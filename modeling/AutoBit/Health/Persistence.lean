import AutoBit.Health.RoundTrip
import AutoBit.Store.Log

/-!
# The persistence of the health monitor

A health event stores the fields of version two. What version three adds about the fill
episode is rebuilt from the whole log: `projectFillRecoveryEvidence` folds the health
events, and a flat-account check is told from a fill check by the suffix of its event.
-/

namespace AutoBit.Health

open Library Store

/-- The fields that version three adds, with whether the episode is active. -/
structure FillEpisode where
  active : Bool := false
  episode : ℕ := 0
  checks : ℕ := 0
  anomalyDeviation : FloatValue := .finite 0
  detectedAt : Option ℤ := none
  resolvedAt : Option ℤ := none
  lastRecoveryAt : Option ℤ := none
  deriving DecidableEq, Repr

/-- The fill episode of a snapshot. -/
def HealthSnapshot.fillEpisode (s : HealthSnapshot) : FillEpisode where
  active := !s.fillWithinLimit
  episode := s.fillAnomalyEpisode
  checks := s.fillRecoveryChecks
  anomalyDeviation := s.fillAnomalyDeviation
  detectedAt := s.fillAnomalyDetectedAtUtc
  resolvedAt := s.fillAnomalyResolvedAtUtc
  lastRecoveryAt := s.lastFillRecoveryAtUtc

/-- `replace(stored, fill_anomaly_episode=...)`: a snapshot with the fields of an episode. -/
def HealthSnapshot.withEpisode (s : HealthSnapshot) (p : FillEpisode) : HealthSnapshot :=
  { s with
    fillAnomalyEpisode := p.episode
    fillRecoveryChecks := p.checks
    fillAnomalyDeviation := p.anomalyDeviation
    fillAnomalyDetectedAtUtc := p.detectedAt
    fillAnomalyResolvedAtUtc := p.resolvedAt
    lastFillRecoveryAtUtc := p.lastRecoveryAt }

/-! ## The identity of a health event -/

/-- `text.rsplit(separator, 1)`, when the separator occurs. -/
def rsplit (separator : List Char) : List Char → Option (List Char × List Char)
  | [] => none
  | c :: rest =>
    match rsplit separator rest with
    | some (before, after) => some (c :: before, after)
    | none =>
      if separator.isPrefixOf (c :: rest) then some ([], (c :: rest).drop separator.length)
      else none

/-- `_FILL_RECOVERY_EVENT_SUFFIX`. -/
def fillRecoveryEventSuffix : String := ":fill-recovery-v1:"

/-- `startswith("health:reconcile:")`. -/
def isReconcile : EventId → Bool
  | .healthReconcile .. => true
  | .fillRecovery base _ => isReconcile base
  | .external text => "health:reconcile:".toList.isPrefixOf text.toList
  | _ => false

/-- `_fill_recovery_marker`. -/
def fillRecoveryMarker : EventId → Except Failure (Option Bool)
  | .fillRecovery base eligible => do
    reject (isReconcile base = false)
      (.corruption "flat fill recovery event identity is invalid")
    return some eligible
  | .external text =>
    match rsplit fillRecoveryEventSuffix.toList text.toList with
    | none => return none
    | some (before, outcome) => do
      reject ("health:reconcile:".toList.isPrefixOf before = false ∨
          outcome ≠ "eligible".toList ∧ outcome ≠ "ineligible".toList)
        (.corruption "flat fill recovery event identity is invalid")
      return some (outcome = "eligible".toList)
  | _ => return none

/-! ## The projection of the log -/

/-- `HealthSnapshot.from_event_mapping`. -/
def HealthSnapshot.fromEventMapping (payload : Mapping) : Except Failure HealthSnapshot := do
  reject (payload = []) (.health "health event payload must not be empty")
  (HealthSnapshot.fromMapping payload).mapError Failure.health

/-- The part of a round that sees whether an episode opens or stays open. -/
def FillEpisode.trigger (p : FillEpisode) (stored : HealthSnapshot) (observed : ℤ) : FillEpisode :=
  let opened : FillEpisode :=
    if stored.fillWithinLimit = false ∧ p.active = false then
      { p with
        active := true
        episode := p.episode + 1
        checks := 0
        detectedAt := some observed
        resolvedAt := none
        lastRecoveryAt := none }
    else p
  if stored.fillWithinLimit = false then
    { opened with
      anomalyDeviation :=
        (opened.anomalyDeviation.max stored.fillDeviation).max stored.fillAnomalyDeviation }
  else opened

/-- The count of flat-account checks after one more. -/
def nextChecks (eligible : Bool) (checks : ℕ) : ℕ :=
  if eligible then min apiSuccessesRequired (checks + 1) else 0

/-- The part of a round that counts a flat-account check or sees a direct resolution. -/
def FillEpisode.settle (p : FillEpisode) (wasActive : Bool) (marker : Option Bool)
    (fillWithinLimit : Bool) (observed : ℤ) : Except Failure FillEpisode :=
  match marker with
  | some eligible => do
    reject (wasActive = false)
      (.corruption "flat fill recovery evidence has no active anomaly episode")
    reject (∃ last ∈ p.lastRecoveryAt, observed ≤ last)
      (.corruption "flat fill recovery evidence is duplicated or reversed")
    let checks := nextChecks eligible p.checks
    let resolved := eligible && decide (apiSuccessesRequired ≤ checks)
    reject (fillWithinLimit ≠ resolved)
      (.corruption "flat fill recovery marker contradicts health state")
    return { p with
      active := !resolved
      checks
      resolvedAt := if resolved then some observed else none
      lastRecoveryAt := some observed }
  | none =>
    if wasActive = true ∧ fillWithinLimit = true then
      return { p with
        active := false
        checks := apiSuccessesRequired
        resolvedAt := some observed }
    else return p

/-- The accumulators of `_project_fill_recovery_evidence`. -/
structure FillProjection where
  latest : Option HealthSnapshot := none
  fill : FillEpisode := {}
  deriving DecidableEq, Repr

/-- One round of the loop of `_project_fill_recovery_evidence`. -/
def projectHealthEvent (p : FillProjection) (event : StoredEvent) : Except Failure FillProjection :=
  match event.payload with
  | .healthState payload => do
    let stored ← HealthSnapshot.fromEventMapping payload
    let observed := stored.lastObservationAtUtc.getD event.occurredAtUtc
    let marker ← fillRecoveryMarker event.eventId
    let fill ← (p.fill.trigger stored observed).settle p.fill.active marker stored.fillWithinLimit
      observed
    return ⟨some (stored.withEpisode fill), fill⟩
  | _ => return p

/-- `_project_fill_recovery_evidence`. -/
def projectFillRecoveryEvidence (events : List StoredEvent) : Except Failure HealthSnapshot := do
  let p ← events.foldlM projectHealthEvent {}
  require p.latest (.corruption "health projection has no event evidence")

/-! ## The monitor -/

/-- `HealthMonitor`. -/
structure HealthMonitor where
  snapshot : HealthSnapshot := {}
  pendingFillRecovery : Option Bool := none
  deriving DecidableEq, Repr

/-- `HealthMonitor.__init__` on a snapshot. -/
def HealthMonitor.new (snapshot : HealthSnapshot) : Except Failure HealthMonitor := do
  let snapshot ← (HealthSnapshot.fromMapping snapshot.toMapping).mapError Failure.health
  return { snapshot }

/-- One round of the loop of `HealthMonitor.from_store`, which keeps the latest payload. -/
def checkHealthEvent (latest : Option Mapping) (event : StoredEvent) :
    Except Failure (Option Mapping) :=
  match event.payload with
  | .healthState payload => do
    let _ ← HealthSnapshot.fromEventMapping payload
    return some payload
  | _ => return latest

/-- `HealthMonitor.from_store`. -/
def HealthMonitor.fromStore (db : Database) : Except Failure HealthMonitor := do
  let state ← replayState db
  let latest ← state.eventEvidence.foldlM checkHealthEvent none
  let healthState := state.healthState.getD []
  match latest with
  | none => do
    reject (healthState ≠ []) (.corruption "health projection has no event evidence")
    return {}
  | some payload => do
    reject (healthState ≠ payload)
      (.corruption "health projection contradicts event evidence")
    let snapshot ← projectFillRecoveryEvidence state.eventEvidence
    HealthMonitor.new snapshot

/-- Whether a flat-account check is one that the monitor takes. -/
def takesFlatCheck (s : HealthSnapshot) (observed : ℤ) : Bool :=
  s.fillWithinLimit = false ∧ ∀ prior ∈ s.lastFillRecoveryAtUtc, prior < observed

/-- A call of a recording method. A flat-account check that is taken stays pending until the
monitor persists. -/
def HealthMonitor.observe (monitor : HealthMonitor) (o : Observation) : HealthMonitor where
  snapshot := Health.observe monitor.snapshot o
  pendingFillRecovery :=
    match o with
    | .flatFillRecoveryCheck eligible observed =>
      if takesFlatCheck monitor.snapshot observed then some eligible
      else monitor.pendingFillRecovery
    | _ => monitor.pendingFillRecovery

/-- A sequence of calls. -/
def HealthMonitor.observeAll (monitor : HealthMonitor) (batch : List Observation) :
    HealthMonitor :=
  batch.foldl HealthMonitor.observe monitor

/-- `persistence_event_id`, on an identity that is not empty. -/
def HealthMonitor.persistenceEventId (monitor : HealthMonitor) (eventId : EventId) : EventId :=
  match monitor.pendingFillRecovery with
  | none => eventId
  | some eligible => .fillRecovery eventId eligible

/-- `_validate_duplicate_event` on the events with the identity. -/
def validateDuplicateEvent (found : Option StoredEvent) (logicalAt : ℤ) (payload : Mapping) :
    Except Failure Unit :=
  match found with
  | none => .error (.idempotency "health event identity is not unique")
  | some event =>
    match event.payload with
    | .healthState stored => do
      reject (event.occurredAtUtc ≠ logicalAt) (.idempotency "health event identity conflicts")
      let _ ← (HealthSnapshot.fromEventMapping stored).mapError fun _ =>
        Failure.corruption "stored health event is invalid"
      reject (stored ≠ payload) (.idempotency "health event identity conflicts")
    | _ => .error (.idempotency "health event identity conflicts")

/-- `HealthMonitor.persist`. -/
def HealthMonitor.persist (monitor : HealthMonitor) (db : Database) (eventId : EventId)
    (logicalAt : ℤ) : Except Failure (HealthMonitor × Database) := do
  reject (eventId = .external "") (.value "event_id must be non-empty")
  let payload := monitor.snapshot.toStorageMapping
  let settled : HealthMonitor := { monitor with pendingFillRecovery := none }
  let state ← replayState db
  match findEvent state.eventEvidence eventId with
  | some event => do
    validateDuplicateEvent (some event) logicalAt payload
    return (settled, db)
  | none =>
    match appendEvent db eventId logicalAt (.healthState payload) with
    | .ok db' => return (settled, db')
    | .error (.idempotency _) => do
      let state ← replayState db
      validateDuplicateEvent (findEvent state.eventEvidence eventId) logicalAt payload
      return (settled, db)
    | .error failure => .error failure

/-! ## What is read back -/

/-- A snapshot as a reader of version two sees it. -/
def HealthSnapshot.legacy (s : HealthSnapshot) : HealthSnapshot :=
  { s with
    version := snapshotVersion
    fillAnomalyEpisode := if s.fillWithinLimit then 0 else 1
    fillRecoveryChecks := 0
    fillAnomalyDeviation := if s.fillWithinLimit then .finite 0 else s.fillDeviation
    fillAnomalyDetectedAtUtc := none
    fillAnomalyResolvedAtUtc := none
    lastFillRecoveryAtUtc := none }

/-- A stored mapping has the keys of the second version. -/
@[simp] theorem sameKeys_toStorageMapping (s : HealthSnapshot) :
    sameKeys (s.toStorageMapping.map Prod.fst) snapshotV2Keys = true := by
  have h : s.toStorageMapping.map Prod.fst =
      ({} : HealthSnapshot).toStorageMapping.map Prod.fst := by
    simp [HealthSnapshot.toStorageMapping, HealthSnapshot.sharedItems]
  rw [h]
  decide

/-- A stored mapping is not empty. -/
theorem toStorageMapping_ne_nil (s : HealthSnapshot) : s.toStorageMapping ≠ [] := by
  simp [HealthSnapshot.toStorageMapping, HealthSnapshot.sharedItems]

/-- What a consistent snapshot stores is consistent for a reader of version two. -/
theorem Consistent.legacy {s : HealthSnapshot} (h : Consistent s) : Consistent s.legacy := by
  refine ⟨⟨h.ledger.1⟩, ?_, ?_, ?_, ?_⟩
  · have hwithin := h.fill.withinLimit_eq
    cases hactive : s.fillWithinLimit with
    | true => constructor <;> simp_all [HealthSnapshot.legacy]
    | false => constructor <;> simp_all [HealthSnapshot.legacy, apiSuccessesRequired]
  · exact ⟨h.api.1, h.api.2, h.api.3, h.api.4, h.api.5, h.api.6, h.api.7, h.api.8, h.api.9⟩
  · exact ⟨h.stage.1, h.stage.2, h.stage.3, h.stage.4⟩
  · refine ⟨rfl, h.fields.2, h.fields.3, h.fields.4, h.fields.5, ?_⟩
    dsimp only [HealthSnapshot.legacy]
    split_ifs
    · exact ⟨0, le_rfl, rfl⟩
    · exact h.fields.5

/-- The stored payload of a consistent snapshot is read back without the fields that version
three adds. -/
theorem fromMapping_toStorageMapping {s : HealthSnapshot} (h : Consistent s) :
    HealthSnapshot.fromMapping s.toStorageMapping = .ok s.legacy := by
  obtain ⟨hledger, hfill, hapi, hstage, hfields⟩ := h.legacy
  unfold HealthSnapshot.fromMapping
  rw [if_neg (toStorageMapping_ne_nil s)]
  simp only [Except.bind_eq_ok, reject_eq_ok, sameKeys_toStorageMapping]
  simp [item, fillRecoveryFields, HealthSnapshot.toStorageMapping, HealthSnapshot.sharedItems,
    List.lookup_cons]
  refine ⟨s.reasons, ?_, hfields.2, hfields.3, hfields.4, hfields.5, ⟨(), ?_⟩, rfl⟩
  · rw [h.stage.reasons_eq]
    exact strictReasons_deriveReasons s
  · exact validateSnapshotRelationships_eq_ok.mpr ⟨hledger, hfill, hapi, hstage⟩

/-- A stored mapping reads back as the snapshot without the newer fields. -/
theorem fromEventMapping_toStorageMapping {s : HealthSnapshot} (h : Consistent s) :
    HealthSnapshot.fromEventMapping s.toStorageMapping = .ok s.legacy := by
  simp only [HealthSnapshot.fromEventMapping, Except.bind_eq_ok, reject_eq_ok,
    Except.mapError_eq_ok]
  exact ⟨⟨⟩, toStorageMapping_ne_nil s, fromMapping_toStorageMapping h⟩

/-- Reasons parse back to themselves, if they parse. -/
theorem strictReasons_eq_ok {reasons listed : List HealthReason}
    (h : strictReasons (.array (reasons.map fun reason => .text reason.text)) = .ok listed) :
    listed = reasons := by
  simp only [strictReasons] at h
  split_ifs at h with htext hsame
  cases h
  have hinjective : Function.Injective fun reason : HealthReason => Scalar.text reason.text :=
    fun a b hab => HealthReason.text_injective (Scalar.text.inj hab)
  exact (List.map_injective_iff.mpr hinjective hsame).symm

/-- A snapshot parses back to itself, if it parses. -/
theorem fromMapping_toMapping_eq {s t : HealthSnapshot}
    (h : HealthSnapshot.fromMapping s.toMapping = .ok t) : t = s := by
  unfold HealthSnapshot.fromMapping at h
  rw [if_neg s.toMapping_ne_nil] at h
  simp only [Except.bind_eq_ok, reject_eq_ok, sameKeys_toMapping, sameKeys_toMapping_v2] at h
  simp [item, fillRecoveryFields, HealthSnapshot.toMapping, HealthSnapshot.sharedItems,
    List.lookup_cons] at h
  obtain ⟨hversion, reasons, hreasons, -, -, -, -, -, -, rfl⟩ := h
  have hsame := strictReasons_eq_ok hreasons
  cases s
  simp_all

/-- A mapping that reads back reads back as its snapshot. -/
theorem fromEventMapping_toMapping_eq {s t : HealthSnapshot}
    (h : HealthSnapshot.fromEventMapping s.toMapping = .ok t) : t = s := by
  simp only [HealthSnapshot.fromEventMapping, Except.bind_eq_ok, Except.mapError_eq_ok] at h
  obtain ⟨_, _, hmapping⟩ := h
  exact fromMapping_toMapping_eq hmapping

/-- A number that parses is finite and not negative. -/
theorem nonnegativeFinite_ok {value : Json} {label : String} {f : FloatValue}
    (h : nonnegativeFinite value label = .ok f) : ∃ q, 0 ≤ q ∧ f = .finite q := by
  unfold nonnegativeFinite at h
  split at h
  · split_ifs at h with hq
    cases h
    exact ⟨_, hq, rfl⟩
  · rename_i n
    split_ifs at h with hn
    split at h
    · rename_i q hfloat
      cases h
      have hround : 0 ≤ binary64.round (n : ℚ) :=
        binary64.round_nonneg (by exact_mod_cast not_lt.mp hn)
      unfold toFloat at hfloat
      split_ifs at hfloat
      cases hfloat
      exact ⟨_, hround, rfl⟩
    · cases h
  · cases h
  · cases h

/-- The deviation of an anomaly that is read is finite and not negative. -/
theorem fillRecoveryFields_anomaly {payload : Mapping} {legacy within : Bool}
    {deviation : FloatValue}
    {fields : FillRecoveryFields} (hdeviation : ∃ q, 0 ≤ q ∧ deviation = .finite q)
    (h : fillRecoveryFields payload legacy within deviation = .ok fields) :
    ∃ q, 0 ≤ q ∧ fields.deviation = .finite q := by
  unfold fillRecoveryFields at h
  split at h
  · cases h
    dsimp only
    split
    · exact ⟨0, le_rfl, rfl⟩
    · exact hdeviation
  · simp only [Except.bind_eq_ok, Except.pure_eq_ok] at h
    obtain ⟨_, -, _, -, _, hanomaly, _, -, _, -, _, -, rfl⟩ := h
    exact nonnegativeFinite_ok hanomaly

/-- Whatever parses is consistent. -/
theorem consistent_of_fromMapping {payload : Mapping} {s : HealthSnapshot}
    (h : HealthSnapshot.fromMapping payload = .ok s) : Consistent s := by
  unfold HealthSnapshot.fromMapping at h
  split at h
  · rw [Except.pure_eq_ok] at h
    exact h ▸ initial_consistent
  · simp only [Except.bind_eq_ok, reject_eq_ok, Except.pure_eq_ok] at h
    obtain ⟨_, -, _, -, _, -, _, -, _, -, _, -, _, -, _, hsuccesses, _, -, _, -, _, -, _, -, _, hcash,
      _, hbtc, _, -, _, -, _, -, _, -, _, hdeviation, fill, hfill, _, -, _, -, _, -, _, -, halt, -,
      resume, -, _, hvalid, rfl⟩ := h
    have hflags := hvalid
    unfold validateSnapshotRelationships at hflags
    simp only [Except.bind_eq_ok, reject_eq_ok, not_or, not_not] at hflags
    obtain ⟨_, -, _, -, _, -, _, -, _, -, hhalt, hresume⟩ := hflags
    rw [hhalt, hresume] at hvalid
    obtain ⟨hledger, hfillEvidence, hapi, hstage⟩ := validateSnapshotRelationships_eq_ok.mp hvalid
    refine ⟨hledger, hfillEvidence, hapi, hstage, ?_⟩
    exact ⟨rfl, not_lt.mp hsuccesses, nonnegativeFinite_ok hcash, nonnegativeFinite_ok hbtc,
      nonnegativeFinite_ok hdeviation,
      fillRecoveryFields_anomaly (nonnegativeFinite_ok hdeviation) hfill⟩

/-- A monitor is made of a consistent snapshot, unchanged. -/
theorem HealthMonitor.new_eq_ok {s : HealthSnapshot} {monitor : HealthMonitor} :
    HealthMonitor.new s = .ok monitor ↔ Consistent s ∧ monitor = { snapshot := s } := by
  simp only [HealthMonitor.new, Except.bind_eq_ok, Except.mapError_eq_ok, Except.pure_eq_ok]
  constructor
  · rintro ⟨t, ht, rfl⟩
    obtain rfl := fromMapping_toMapping_eq ht
    exact ⟨(fromMapping_toMapping_iff _).mp ht, rfl⟩
  · rintro ⟨hs, rfl⟩
    exact ⟨s, (fromMapping_toMapping_iff s).mpr hs, rfl⟩

/-! ## The fold over the log -/

/-- A maximum with a value that is in it already changes nothing. -/
theorem FloatValue.max_absorbs (a b c : FloatValue) :
    ((a.max b).max c).max b = (a.max b).max c := by
  cases a <;> cases b <;> cases c <;> simp only [FloatValue.max]
  · split_ifs <;> simp only [] <;> split_ifs <;> simp only [] <;> split_ifs <;>
      first | rfl | (exfalso; linarith)
  all_goals
    split_ifs <;> rfl

/-- An episode as one health event continues it. -/
def FillEpisode.read (p : FillEpisode) (marker : Option Bool) (stored : HealthSnapshot)
    (observed : ℤ) : Except Failure FillEpisode :=
  (p.trigger stored observed).settle p.active marker stored.fillWithinLimit observed

/-- The trigger of an event with a healthy fill changes nothing, and one with a deviating
fill leaves the episode active. -/
theorem FillEpisode.trigger_active (p : FillEpisode) (stored : HealthSnapshot) (observed : ℤ) :
    (p.trigger stored observed).active = (p.active || !stored.fillWithinLimit) := by
  cases hwithin : stored.fillWithinLimit <;> cases hactive : p.active <;>
    simp [FillEpisode.trigger, hwithin, hactive]

/-- After an event the episode is active exactly when the event says so. -/
theorem FillEpisode.read_active {p q : FillEpisode} {marker : Option Bool}
    {stored : HealthSnapshot} {observed : ℤ} (h : p.read marker stored observed = .ok q) :
    q.active = !stored.fillWithinLimit := by
  have htrigger := p.trigger_active stored observed
  unfold FillEpisode.read FillEpisode.settle at h
  cases marker with
  | some eligible =>
    simp only [Except.bind_eq_ok, reject_eq_ok, Except.pure_eq_ok, not_not] at h
    obtain ⟨_, -, _, -, _, hresolved, rfl⟩ := h
    rw [hresolved]
  | none =>
    simp only at h
    split_ifs at h with hends
    · rw [Except.pure_eq_ok] at h
      rw [← h, hends.2]
      rfl
    · rw [Except.pure_eq_ok] at h
      rw [← h, htrigger]
      cases hactive : p.active
      · rfl
      · cases hwithin : stored.fillWithinLimit
        · rfl
        · exact absurd ⟨hactive, hwithin⟩ hends

/-- Settling an episode leaves its number and its worst deviation alone. -/
theorem FillEpisode.settle_kept {p q : FillEpisode} {wasActive : Bool} {marker : Option Bool}
    {fillWithinLimit : Bool} {observed : ℤ}
    (h : p.settle wasActive marker fillWithinLimit observed = .ok q) :
    q.episode = p.episode ∧ q.anomalyDeviation = p.anomalyDeviation ∧
      q.detectedAt = p.detectedAt := by
  unfold FillEpisode.settle at h
  cases marker with
  | some eligible =>
    simp only [Except.bind_eq_ok, reject_eq_ok, Except.pure_eq_ok] at h
    obtain ⟨_, -, _, -, _, -, rfl⟩ := h
    exact ⟨rfl, rfl, rfl⟩
  | none =>
    simp only at h
    split_ifs at h <;> rw [Except.pure_eq_ok] at h <;> subst h <;> exact ⟨rfl, rfl, rfl⟩

/-- The projection stands at its latest snapshot, whose worst deviation covers the deviation
of an active episode. -/
structure FillProjection.Sound (p : FillProjection) (s : HealthSnapshot) : Prop where
  latest : p.latest.getD {} = s
  fill : p.fill = s.fillEpisode
  covered : s.fillWithinLimit = false →
    s.fillAnomalyDeviation.max s.fillDeviation = s.fillAnomalyDeviation

/-- Every round keeps the projection sound. -/
theorem projectHealthEvent_sound {p q : FillProjection} {s : HealthSnapshot} {event : StoredEvent}
    (h : p.Sound s) (hround : projectHealthEvent p event = .ok q) : ∃ t, q.Sound t := by
  unfold projectHealthEvent at hround
  split at hround
  · simp only [Except.bind_eq_ok, Except.pure_eq_ok] at hround
    obtain ⟨stored, -, marker, -, fill, hfill, rfl⟩ := hround
    refine ⟨_, rfl, ?_, ?_⟩
    · have hactive := FillEpisode.read_active hfill
      cases fill
      simp only at hactive
      subst hactive
      rfl
    · intro hwithin
      have hwithin : stored.fillWithinLimit = false := hwithin
      have hkept := (FillEpisode.settle_kept hfill).2.1
      change fill.anomalyDeviation.max stored.fillDeviation = fill.anomalyDeviation
      rw [hkept]
      simp only [FillEpisode.trigger, if_pos hwithin]
      exact FloatValue.max_absorbs _ _ _
  · rw [Except.pure_eq_ok] at hround
    exact hround ▸ ⟨s, h⟩

/-- What the stored events project is sound for some snapshot. -/
theorem project_sound {events : List StoredEvent} {p : FillProjection}
    (h : events.foldlM projectHealthEvent {} = .ok p) : ∃ s, p.Sound s :=
  foldlM_invariant (fun p : FillProjection => ∃ s, p.Sound s)
    (fun _ _ _ _ ⟨_, hs⟩ hround => projectHealthEvent_sound hs hround) ⟨{}, rfl, rfl, nofun⟩ h

/-- A log without health events projects to the beginning. -/
theorem project_of_check_none {events : List StoredEvent}
    (h : events.foldlM checkHealthEvent none = .ok none) :
    events.foldlM projectHealthEvent {} = .ok {} := by
  induction events using List.reverseRecOn with
  | nil => rfl
  | append_singleton events e ih =>
    obtain ⟨latest, hlatest, hround⟩ := foldlM_snoc_eq_ok.mp h
    unfold checkHealthEvent at hround
    split at hround
    · simp at hround
    · rename_i hother
      rw [Except.pure_eq_ok] at hround
      subst hround
      refine foldlM_snoc_eq_ok.mpr ⟨_, ih hlatest, ?_⟩
      unfold projectHealthEvent
      split
      · rename_i payload hpayload
        exact absurd hpayload (hother payload)
      · rfl

/-- A monitor from a store stands at the projection of the log. -/
theorem HealthMonitor.fromStore_eq_ok {db : Database} {monitor : HealthMonitor}
    (h : HealthMonitor.fromStore db = .ok monitor) :
    monitor.pendingFillRecovery = none ∧ Consistent monitor.snapshot ∧
      (∃ latest, db.events.foldlM checkHealthEvent none = .ok latest) ∧
      ∃ p, db.events.foldlM projectHealthEvent {} = .ok p ∧ p.Sound monitor.snapshot := by
  simp only [HealthMonitor.fromStore, Except.bind_eq_ok] at h
  obtain ⟨state, hstate, latest, hlatest, h⟩ := h
  obtain ⟨s, -, -, rfl⟩ := replayAndVerify_eq_ok.mp hstate
  have hlatest : db.events.foldlM checkHealthEvent none = .ok latest := hlatest
  cases latest with
  | none =>
    simp only [Except.bind_eq_ok, Except.pure_eq_ok] at h
    obtain ⟨_, -, rfl⟩ := h
    refine ⟨rfl, initial_consistent, ⟨none, hlatest⟩, {}, project_of_check_none hlatest, rfl, rfl,
      fun hfaulty => ?_⟩
    cases hfaulty
  | some payload =>
    simp only [Except.bind_eq_ok, projectFillRecoveryEvidence, require_eq_ok] at h
    obtain ⟨_, -, snapshot, ⟨p, hp, hsnapshot⟩, hnew⟩ := h
    obtain ⟨hconsistent, rfl⟩ := HealthMonitor.new_eq_ok.mp hnew
    have hp : db.events.foldlM projectHealthEvent {} = .ok p := hp
    obtain ⟨t, hsound⟩ := project_sound hp
    have ht : t = snapshot := by
      rw [← hsound.latest, hsnapshot]
      rfl
    exact ⟨rfl, hconsistent, ⟨_, hlatest⟩, p, hp, ht ▸ hsound⟩

/-- The health state of a database that ends with a health event. -/
theorem healthState_of_appended {db db' : Database} {eventId : EventId} {occurredAt : ℤ}
    {payload : Mapping} {state : PaperSnapshot}
    (happended : Appended db eventId occurredAt (.healthState payload) db')
    (hstate : replayState db' = .ok state) : state.healthState = some payload := by
  obtain ⟨s, hs, -, rfl⟩ := replayAndVerify_eq_ok.mp hstate
  rw [happended.events] at hs
  obtain ⟨t, -, hround⟩ := rebuild_snoc.mp hs
  obtain ⟨-, -, -, u, hu, rfl⟩ := replayEvent_eq_ok.mp hround
  cases hu
  rfl

/-- What a monitor loads after one more health event: the episode of its snapshot, as the
event continues it. -/
theorem fromStore_appended {db db' : Database} {monitor : HealthMonitor} {m : HealthSnapshot}
    {eventId : EventId} {occurredAt : ℤ} (hload : HealthMonitor.fromStore db = .ok monitor)
    (hm : Consistent m)
    (happended : Appended db eventId occurredAt (.healthState m.toStorageMapping) db') :
    HealthMonitor.fromStore db' = .ok { snapshot := m } ↔ ∃ marker,
      fillRecoveryMarker eventId = .ok marker ∧
      monitor.snapshot.fillEpisode.read marker m.legacy (m.lastObservationAtUtc.getD occurredAt) =
        .ok m.fillEpisode := by
  obtain ⟨-, -, ⟨latest, hlatest⟩, p, hp, hsound⟩ := HealthMonitor.fromStore_eq_ok hload
  obtain ⟨state, hstate⟩ := happended.after
  have hhealth := healthState_of_appended happended hstate
  have hparse := fromEventMapping_toStorageMapping hm
  have hevidence : state.eventEvidence = db'.events := by
    obtain ⟨s, -, -, rfl⟩ := replayAndVerify_eq_ok.mp hstate
    rfl
  have hcheck : db'.events.foldlM checkHealthEvent none = .ok (some m.toStorageMapping) := by
    rw [happended.events, foldlM_snoc_eq_ok]
    refine ⟨latest, hlatest, ?_⟩
    simp only [checkHealthEvent, Database.nextEvent, Except.bind_eq_ok, Except.pure_eq_ok]
    exact ⟨m.legacy, hparse, trivial⟩
  have hwithEpisode : ∀ fill : FillEpisode, fill.active = !m.fillWithinLimit →
      (m.legacy.withEpisode fill = m ↔ fill = m.fillEpisode) := by
    intro fill hactive
    constructor
    · intro hsame
      have hfields := congrArg HealthSnapshot.fillEpisode hsame
      rw [← hfields]
      cases fill
      simp only at hactive
      subst hactive
      rfl
    · rintro rfl
      have hversion := hm.fields.version_eq
      cases m
      simp only at hversion
      subst hversion
      rfl
  have hround : ∀ q, db'.events.foldlM projectHealthEvent {} = .ok q ↔ ∃ marker,
      fillRecoveryMarker eventId = .ok marker ∧ ∃ fill, monitor.snapshot.fillEpisode.read marker
        m.legacy (m.lastObservationAtUtc.getD occurredAt) = .ok fill ∧
      ⟨some (m.legacy.withEpisode fill), fill⟩ = q := by
    intro q
    rw [happended.events, foldlM_snoc_eq_ok]
    constructor
    · rintro ⟨p', hp', hnext⟩
      cases hp.symm.trans hp'
      simp only [projectHealthEvent, Database.nextEvent, Except.bind_eq_ok, Except.pure_eq_ok] at hnext
      obtain ⟨stored, hstored, marker, hmarker, fill, hfill, rfl⟩ := hnext
      cases hparse.symm.trans hstored
      rw [hsound.fill] at hfill
      exact ⟨marker, hmarker, fill, hfill, rfl⟩
    · rintro ⟨marker, hmarker, fill, hfill, rfl⟩
      refine ⟨p, hp, ?_⟩
      simp only [projectHealthEvent, Database.nextEvent, Except.bind_eq_ok, Except.pure_eq_ok]
      refine ⟨m.legacy, hparse, marker, hmarker, fill, ?_, rfl⟩
      rw [hsound.fill]
      exact hfill
  constructor
  · intro h
    simp only [HealthMonitor.fromStore, Except.bind_eq_ok] at h
    obtain ⟨state', hstate', latest', hlatest', h⟩ := h
    cases hstate.symm.trans hstate'
    rw [hevidence, hcheck] at hlatest'
    cases hlatest'
    simp only [Except.bind_eq_ok, projectFillRecoveryEvidence, require_eq_ok, hevidence] at h
    obtain ⟨_, -, snapshot, ⟨q, hq, hsnapshot⟩, hnew⟩ := h
    obtain ⟨marker, hmarker, fill, hfill, rfl⟩ := (hround q).mp hq
    obtain ⟨-, hsame⟩ := HealthMonitor.new_eq_ok.mp hnew
    cases hsnapshot
    have hactive := FillEpisode.read_active hfill
    have hfields := (hwithEpisode fill hactive).mp (congrArg HealthMonitor.snapshot hsame).symm
    exact ⟨marker, hmarker, hfields ▸ hfill⟩
  · rintro ⟨marker, hmarker, hfill⟩
    simp only [HealthMonitor.fromStore, Except.bind_eq_ok]
    refine ⟨state, hstate, some m.toStorageMapping, ?_, ?_⟩
    · rw [hevidence]
      exact hcheck
    · simp only [Except.bind_eq_ok, reject_eq_ok, projectFillRecoveryEvidence, require_eq_ok,
        hhealth, hevidence, HealthMonitor.new_eq_ok]
      refine ⟨⟨⟩, by simp, m, ⟨_, (hround _).mpr ⟨marker, hmarker, _, hfill, rfl⟩, ?_⟩, hm, rfl⟩
      exact congrArg some ((hwithEpisode m.fillEpisode rfl).mpr rfl)

/-- A fresh event is appended. -/
theorem HealthMonitor.persist_appended {monitor monitor' : HealthMonitor} {db db' : Database}
    {eventId : EventId} {logicalAt : ℤ} (hfresh : findEvent db.events eventId = none)
    (h : monitor.persist db eventId logicalAt = .ok (monitor', db')) :
    Appended db eventId logicalAt (.healthState monitor.snapshot.toStorageMapping) db' := by
  simp only [HealthMonitor.persist, Except.bind_eq_ok] at h
  obtain ⟨_, -, state, hstate, h⟩ := h
  have hevidence : state.eventEvidence = db.events := by
    obtain ⟨s, -, -, rfl⟩ := replayAndVerify_eq_ok.mp hstate
    rfl
  rw [hevidence, hfresh] at h
  simp only at h
  split at h
  · rename_i db'' happend
    cases h
    exact appendEvent_appended happend
  · simp only [Except.bind_eq_ok, validateDuplicateEvent, hstate] at h
    obtain ⟨_, hagain, _, hnone, -⟩ := h
    cases hagain
    rw [hevidence, hfresh] at hnone
    cases hnone
  · cases h

end AutoBit.Health
