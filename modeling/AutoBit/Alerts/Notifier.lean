import AutoBit.Library.Loop
import AutoBit.Store.Log

/-!
# The delivery of one alert

`deliver_alert_once` claims an alert with a durable marker before it sends, and records a
failed delivery. Its accesses to the store are the steps of a call: between two of them
other writers of the store may act, unless a mutation boundary holds the store. The
verifier of the alert evidence is the other half of the module.
-/

namespace AutoBit.Alerts

open Library Store

/-- `_ALERT_SOURCE_TYPES`. -/
def alertSourceTypes : List String := ["HEALTH_STATE", "PAPER_CYCLE"]

/-- The arguments of `deliver_alert_once`. The source payload stands with the type that it
is given under. -/
structure Alert where
  sourceEventId : EventId
  sourcePayload : Payload
  logicalAt : ℤ
  bounded : Bool
  deriving DecidableEq, Repr

/-- `source_event_type`. -/
def Alert.sourceEventType (alert : Alert) : String := alert.sourcePayload.eventType

/-- The two kinds of evidence that a call appends. -/
inductive Evidence where
  | attempt
  | failure
  deriving DecidableEq, Repr

/-- The identity of the evidence of an alert. A source type has no separator, so the text
under the digest determines the source and its type. -/
def Evidence.eventId (alert : Alert) : Evidence → EventId
  | .attempt => .alertAttempt alert.sourceEventId alert.sourceEventType
  | .failure => .alertFailure alert.sourceEventId alert.sourceEventType

/-- The payload of the evidence of an alert. -/
def Evidence.payload (alert : Alert) : Evidence → Payload
  | .attempt => .alertAttempt ⟨alert.sourceEventId, alert.sourceEventType, 1⟩
  | .failure => .alertFailure ⟨alert.sourceEventId, alert.sourceEventType, 1⟩ "DELIVERY_FAILED"

/-- The events of a snapshot with an identity. -/
def matchingEvents (snapshot : PaperSnapshot) (eventId : EventId) : List StoredEvent :=
  snapshot.eventEvidence.filter (·.eventId = eventId)

/-- `_require_durable_source`, after the checks of the two texts. -/
def requireDurableSource (db : Database) (alert : Alert) : Except Failure Unit := do
  reject (alert.sourceEventId = .external "") (.value "source event id must be non-empty")
  reject (alert.sourceEventType = "") (.value "source event type must be non-empty")
  reject (alert.sourceEventType ∉ alertSourceTypes)
    (.value "alert durable source type is not supported")
  let snapshot ← replayState db
  match matchingEvents snapshot alert.sourceEventId with
  | [source] =>
    reject (source.payload ≠ alert.sourcePayload) (.value "alert durable source does not match")
  | _ => .error (.value "alert durable source is missing")

/-- `_require_exact`. -/
def requireExact (found : List StoredEvent) (payload : Payload) : Except Failure Unit :=
  match found with
  | [event] =>
    reject (event.payload ≠ payload) (.corruption "alert identity has conflicting evidence")
  | _ => .error (.corruption "alert identity is duplicated")

/-- `_monotonic_time`. -/
def monotonicTime (snapshot : PaperSnapshot) (logicalAt : ℤ) : ℤ :=
  match snapshot.eventEvidence.getLast? with
  | some last => max logicalAt last.occurredAtUtc
  | none => logicalAt

/-- Where a call stands. `_claim_attempt` and `_append_exact_once` look their evidence up,
append it, and look it up again when its identity has been taken in between. -/
inductive Phase where
  | checking
  | viewing (evidence : Evidence)
  | appending (evidence : Evidence) (occurredAt : ℤ)
  | confirming (evidence : Evidence)
  | sending
  | awaiting
  | finished (result : Option Bool)
  | raised (failure : Failure)
  | crashed
  deriving DecidableEq, Repr

/-- What follows when the evidence is already there. -/
def Evidence.present : Evidence → Phase
  | .attempt => .finished none
  | .failure => .finished (some false)

/-- What follows when the evidence has been appended. -/
def Evidence.appended : Evidence → Phase
  | .attempt => .sending
  | .failure => .finished (some false)

/-- What follows when the evidence cannot be recorded: the claim raises, and the record of a
failed delivery is given up. -/
def Evidence.failed (failure : Failure) : Evidence → Phase
  | .attempt => .raised failure
  | .failure => .finished (some false)

/-- Continue with the phase that a computation gives, or with that of its error. -/
def orElse (onError : Failure → Phase) : Except Failure Phase → Phase
  | .ok phase => phase
  | .error failure => onError failure

/-- One access of a call to the store, a transaction of its own outside a boundary. -/
def advance (alert : Alert) (db : Database) : Phase → Database × Phase
  | .checking => (db, orElse .raised do
      requireDurableSource db alert
      return .viewing .attempt)
  | .viewing evidence => (db, orElse (evidence.failed ·) do
      let snapshot ← replayState db
      let found := matchingEvents snapshot (evidence.eventId alert)
      if found = [] then return .appending evidence (monotonicTime snapshot alert.logicalAt)
      requireExact found (evidence.payload alert)
      return evidence.present)
  | .appending evidence occurredAt =>
    match appendEvent db (evidence.eventId alert) occurredAt (evidence.payload alert) with
    | .ok db' => (db', evidence.appended)
    | .error (.idempotency _) => (db, .confirming evidence)
    | .error failure => (db, evidence.failed failure)
  | .confirming evidence => (db, orElse (evidence.failed ·) do
      let snapshot ← replayState db
      requireExact (matchingEvents snapshot (evidence.eventId alert)) (evidence.payload alert)
      return evidence.present)
  | phase => (db, phase)

/-- Whether a call is about to access the store. -/
def Phase.inStore : Phase → Bool
  | .checking | .viewing _ | .appending .. | .confirming _ => true
  | _ => false

/-- Whether a call has come to its end. -/
def Phase.over : Phase → Bool
  | .finished _ | .raised _ | .crashed => true
  | _ => false

/-- The phase after an access that the store, or the boundary around it, refuses. -/
def Phase.refused (failure : Failure) : Phase → Phase
  | .checking => .raised failure
  | .viewing evidence | .appending evidence _ | .confirming evidence => evidence.failed failure
  | phase => phase

/-! ## What an access does -/

/-- The source of an alert is in a log, and is one that may be alerted about. -/
structure Sourced (alert : Alert) (log : List StoredEvent) : Prop where
  nonempty : alert.sourceEventId ≠ .external ""
  supported : alert.sourceEventType ∈ alertSourceTypes
  stored : ∃ source ∈ log,
    source.eventId = alert.sourceEventId ∧ source.payload = alert.sourcePayload

/-- The attempt of an alert is in a log. -/
def Attempted (alert : Alert) (log : List StoredEvent) : Prop := ∃ attempt ∈ log,
  attempt.eventId = Evidence.attempt.eventId alert ∧
    attempt.payload = Evidence.attempt.payload alert

/-- A source stays in a longer log. -/
theorem Sourced.mono {alert : Alert} {log log' : List StoredEvent} (h : Sourced alert log)
    (hsub : log <+: log') : Sourced alert log' := by
  obtain ⟨source, hmem, hsource⟩ := h.stored
  exact ⟨h.nonempty, h.supported, source, hsub.subset hmem, hsource⟩

/-- An attempt stays in a longer log. -/
theorem Attempted.mono {alert : Alert} {log log' : List StoredEvent} (h : Attempted alert log)
    (hsub : log <+: log') : Attempted alert log' := by
  obtain ⟨attempt, hmem, hattempt⟩ := h
  exact ⟨attempt, hsub.subset hmem, hattempt⟩

/-- The events of a snapshot are those of the log. -/
theorem mem_of_matchingEvents {db : Database} {snapshot : PaperSnapshot} {eventId : EventId}
    {event : StoredEvent} (h : replayState db = .ok snapshot)
    (hmem : event ∈ matchingEvents snapshot eventId) :
    event ∈ db.events ∧ event.eventId = eventId := by
  obtain ⟨s, -, -, rfl⟩ := replayAndVerify_eq_ok.mp h
  simpa [matchingEvents, snapshotFromComponents] using hmem

/-- A durable source is in the log. -/
theorem requireDurableSource_eq_ok {db : Database} {alert : Alert} {u : Unit}
    (h : requireDurableSource db alert = .ok u) : Sourced alert db.events := by
  simp only [requireDurableSource, Except.bind_eq_ok, reject_eq_ok] at h
  obtain ⟨_, hnonempty, _, -, _, htype, snapshot, hsnapshot, h⟩ := h
  split at h
  · rename_i source hfound
    have hsource : source ∈ matchingEvents snapshot alert.sourceEventId := by
      rw [hfound]
      exact List.mem_singleton_self source
    obtain ⟨hmem, hid⟩ := mem_of_matchingEvents hsnapshot hsource
    rw [reject_eq_ok] at h
    exact ⟨hnonempty, not_not.mp htype, source, hmem, hid, not_not.mp h⟩
  · cases h

/-- What one access to the store can do: the source is found, the evidence is missing, the
evidence is appended or its identity is found taken, or the call comes to its end. -/
inductive Advanced (alert : Alert) (db : Database) : Phase → Database → Phase → Prop where
  | checked : Sourced alert db.events → Advanced alert db .checking db (.viewing .attempt)
  | viewed (evidence : Evidence) (occurredAt : ℤ) :
      Advanced alert db (.viewing evidence) db (.appending evidence occurredAt)
  | appended (evidence : Evidence) (occurredAt : ℤ) {db' : Database} :
      Appended db (evidence.eventId alert) occurredAt (evidence.payload alert) db' →
      Advanced alert db (.appending evidence occurredAt) db' evidence.appended
  | taken (evidence : Evidence) (occurredAt : ℤ) :
      Advanced alert db (.appending evidence occurredAt) db (.confirming evidence)
  | ended (phase : Phase) {phase' : Phase} : phase'.over = true → Advanced alert db phase db phase'
  | idle (phase : Phase) : Advanced alert db phase db phase

/-- A call that finds the evidence is over. -/
theorem Evidence.present_over (evidence : Evidence) : evidence.present.over = true := by
  cases evidence <;> rfl

/-- A call that fails is over. -/
theorem Evidence.failed_over (failure : Failure) (evidence : Evidence) :
    (evidence.failed failure).over = true := by
  cases evidence <;> rfl

/-- What holds of every phase that a computation gives, and of that of every error. -/
theorem orElse_rule {P : Phase → Prop} {onError : Failure → Phase} {x : Except Failure Phase}
    (hok : ∀ phase, x = .ok phase → P phase) (herror : ∀ failure, P (onError failure)) :
    P (orElse onError x) := by
  cases x with
  | ok phase => exact hok phase rfl
  | error failure => exact herror failure

/-- An access does one of these. -/
theorem advanced_of_advance (alert : Alert) (db : Database) (phase : Phase) :
    Advanced alert db phase (advance alert db phase).1 (advance alert db phase).2 := by
  cases phase with
  | checking =>
    refine orElse_rule (P := Advanced alert db .checking db) ?_ fun failure => .ended _ rfl
    intro phase h
    simp only [Except.bind_eq_ok, Except.pure_eq_ok] at h
    obtain ⟨_, hsource, rfl⟩ := h
    exact .checked (requireDurableSource_eq_ok hsource)
  | viewing evidence =>
    refine orElse_rule (P := Advanced alert db (.viewing evidence) db) ?_ fun failure =>
      .ended _ (evidence.failed_over failure)
    intro phase h
    rw [Except.bind_eq_ok] at h
    obtain ⟨snapshot, -, h⟩ := h
    dsimp only at h
    split at h
    · rw [Except.pure_eq_ok] at h
      exact h ▸ .viewed evidence _
    · simp only [Except.bind_eq_ok, Except.pure_eq_ok] at h
      obtain ⟨_, -, rfl⟩ := h
      exact .ended _ evidence.present_over
  | appending evidence occurredAt =>
    simp only [advance]
    split
    · rename_i db' happend
      exact .appended evidence occurredAt (appendEvent_appended happend)
    · exact .taken evidence occurredAt
    · exact .ended _ (evidence.failed_over _)
  | confirming evidence =>
    refine orElse_rule (P := Advanced alert db (.confirming evidence) db) ?_ fun failure =>
      .ended _ (evidence.failed_over failure)
    intro phase h
    simp only [Except.bind_eq_ok, Except.pure_eq_ok] at h
    obtain ⟨snapshot, -, _, -, rfl⟩ := h
    exact .ended _ evidence.present_over
  | sending => exact .idle _
  | awaiting => exact .idle _
  | finished result => exact .idle _
  | raised failure => exact .idle _
  | crashed => exact .idle _

/-! ## The verifier of the evidence -/

/-- Whether an event is evidence of an alert. -/
def Payload.isAlert (payload : Payload) : Bool :=
  payload.eventType = "ALERT_ATTEMPT" ∨ payload.eventType = "ALERT_FAILURE"

/-- The checks that the two kinds of evidence share. -/
def requireSource (seen : List StoredEvent) (evidence : AlertEvidence) : Except Failure Unit := do
  reject (evidence.version ≠ 1) (.corruption "alert evidence version is invalid")
  reject (evidence.sourceEventId = .external "" ∨ evidence.sourceEventType ∉ alertSourceTypes)
    (.corruption "alert evidence source identity is invalid")
  reject (¬∃ source ∈ findEvent seen evidence.sourceEventId,
      source.payload.eventType = evidence.sourceEventType)
    (.corruption "alert evidence has no matching prior source")

/-- One round of `_validate_operational_alert_chain`. The events seen so far stand newest
first; evidence without the fields of its type is refused. -/
def validateAlert (seen : List StoredEvent) (event : StoredEvent) :
    Except Failure (List StoredEvent) := do
  match event.payload with
  | .alertAttempt evidence =>
    requireSource seen evidence
    reject (event.eventId ≠ .alertAttempt evidence.sourceEventId evidence.sourceEventType)
      (.corruption "alert evidence identity is invalid")
  | .alertFailure evidence failureCode =>
    requireSource seen evidence
    reject (failureCode ≠ "DELIVERY_FAILED" ∨
        event.eventId ≠ .alertFailure evidence.sourceEventId evidence.sourceEventType)
      (.corruption "alert evidence failure payload is invalid")
    reject (¬∃ attempt ∈ findEvent seen
          (.alertAttempt evidence.sourceEventId evidence.sourceEventType),
        attempt.payload.eventType = "ALERT_ATTEMPT")
      (.corruption "alert evidence failure has no prior attempt")
  | payload =>
    reject (Payload.isAlert payload = true) (.corruption "alert evidence payload is invalid")
  return event :: seen

/-- `_validate_operational_alert_chain`. -/
def validateOperationalAlertChain (events : List StoredEvent) : Except Failure Unit := do
  let _ ← events.foldlM validateAlert []
  return ()

/-- The verifier accepts a log, and has then seen all of it. -/
def Accepted (log : List StoredEvent) : Prop := log.foldlM validateAlert [] = .ok log.reverse

/-- An accepted log passes the check of the alert chain. -/
theorem Accepted.validate {log : List StoredEvent} (h : Accepted log) :
    validateOperationalAlertChain log = .ok () := by
  simp only [validateOperationalAlertChain, Except.bind_eq_ok]
  exact ⟨_, h, rfl⟩

/-- An accepted log with one more event that passes its round is accepted. -/
theorem Accepted.snoc {log : List StoredEvent} {e : StoredEvent} (h : Accepted log)
    (hround : validateAlert log.reverse e = .ok (e :: log.reverse)) : Accepted (log ++ [e]) := by
  refine foldlM_snoc_eq_ok.mpr ⟨_, h, ?_⟩
  rw [List.reverse_append]
  exact hround

/-- An event that is no evidence of an alert is accepted. -/
theorem validateAlert_other {seen : List StoredEvent} {e : StoredEvent}
    (h : Payload.isAlert e.payload = false) : validateAlert seen e = .ok (e :: seen) := by
  unfold validateAlert
  split <;> rename_i hpayload
  · rw [hpayload] at h
    cases h
  · rw [hpayload] at h
    cases h
  · simp only [Except.bind_eq_ok, reject_eq_ok, Except.pure_eq_ok]
    exact ⟨⟨⟩, by simp [h], trivial⟩

/-- An event is found by its identity, when identities are unique. -/
theorem findEvent_reverse {log : List StoredEvent} {e : StoredEvent}
    (hids : (log.map (·.eventId)).Nodup) (he : e ∈ log) :
    findEvent log.reverse e.eventId = some e := by
  unfold findEvent
  cases hfound : log.reverse.find? (·.eventId = e.eventId) with
  | none =>
    have hnone := List.find?_eq_none.mp hfound e (List.mem_reverse.mpr he)
    exact absurd (decide_eq_true rfl) hnone
  | some e' =>
    have hmem := List.mem_reverse.mp (List.mem_of_find?_eq_some hfound)
    have hid : e'.eventId = e.eventId := by simpa using List.find?_some hfound
    rw [List.inj_on_of_nodup_map hids hmem he hid]

/-- The source of an alert in a log passes the checks of its evidence. -/
theorem requireSource_eq_ok {alert : Alert} {log : List StoredEvent} (h : Sourced alert log)
    (hids : (log.map (·.eventId)).Nodup) :
    requireSource log.reverse ⟨alert.sourceEventId, alert.sourceEventType, 1⟩ = .ok () := by
  obtain ⟨source, hmem, hid, hpayload⟩ := h.stored
  simp only [requireSource, Except.bind_eq_ok, reject_eq_ok, not_not, not_or]
  refine ⟨⟨⟩, trivial, ⟨⟩, ⟨h.nonempty, h.supported⟩, source, ?_, ?_⟩
  · rw [← hid]
    exact findEvent_reverse hids hmem
  · rw [hpayload]
    rfl

/-- The evidence that a call appends is accepted. -/
theorem validateAlert_evidence {alert : Alert} {log : List StoredEvent} {e : StoredEvent}
    (evidence : Evidence) (hids : (log.map (·.eventId)).Nodup) (hsource : Sourced alert log)
    (hattempt : evidence = .failure → Attempted alert log)
    (hid : e.eventId = evidence.eventId alert) (hpayload : e.payload = evidence.payload alert) :
    validateAlert log.reverse e = .ok (e :: log.reverse) := by
  have hrequire := requireSource_eq_ok hsource hids
  cases evidence with
  | attempt =>
    simp only [validateAlert, hpayload, Evidence.payload, Except.bind_eq_ok, reject_eq_ok, not_not]
    exact ⟨⟨⟩, hrequire, ⟨⟩, hid, rfl⟩
  | failure =>
    obtain ⟨attempt, hmem, hattemptId, hattemptPayload⟩ := hattempt rfl
    have hfound := findEvent_reverse hids hmem
    rw [hattemptId] at hfound
    simp only [validateAlert, hpayload, Evidence.payload, Except.bind_eq_ok, reject_eq_ok, not_not,
      not_or]
    refine ⟨⟨⟩, hrequire, ⟨⟩, ⟨trivial, hid⟩, ⟨⟩, ⟨attempt, hfound, ?_⟩, rfl⟩
    rw [hattemptPayload]
    rfl

end AutoBit.Alerts
