import AutoBit.Risk.Accumulation
import AutoBit.Service.RiskDecision
import AutoBit.Store.Log

/-!
# The writer and the verifier of the risk chain agree

Health events, cycles of any bar, crashes and reruns keep the log acceptable to the
verifier. A decision is the health action applied to the latest base, and the projection
holds it.
-/

namespace AutoBit.Service

open Library Store Risk Health

/-! ## States that survive the store -/

/-- A decision that is read back. -/
structure StorableDecision (decision : RiskDecision) : Prop where
  rate : 0 ≤ decision.riskRate
  cap : 0 ≤ decision.exposureCap
  reasons : "" ∉ decision.reasons

/-- A risk state that is read back unchanged, whose history ends at its cursor. -/
structure Ready (s : RiskState) : Prop where
  initial : s.initialEquity = 100
  history_nonneg : ∀ item ∈ s.equityHistory, 0 ≤ item.2
  history_sorted : (s.equityHistory.map Prod.fst).Pairwise (· < ·)
  history_last : s.lastRiskAt = s.equityHistory.getLast?.map Prod.fst
  decision : StorableDecision s.decision
  peak : 0 ≤ s.equityPeak
  baseline : 0 ≤ s.dailyBaselineEquity
  equity : 0 ≤ s.lastEquity

/-- A ready state is read back from its payload. -/
theorem Ready.fromPayload {s : RiskState} (h : Ready s) :
    riskStateFromPayload (riskStatePayload s) = .ok s := by
  have hinitial := h.initial
  simp only [riskStateFromPayload, riskStatePayload, Except.bind_eq_ok, reject_eq_ok,
    Except.pure_eq_ok]
  refine ⟨⟨⟩, by simp, ⟨⟩, ?_, ⟨⟩, not_not.mpr h.history_sorted, ⟨⟩, h.decision.reasons, ⟨⟩, ?_,
    ⟨⟩, ?_, ⟨⟩, ?_, ?_⟩
  · rintro ⟨item, hitem, hnegative⟩
    exact absurd (h.history_nonneg item hitem) (not_le.mpr hnegative)
  · have hrate := h.decision.rate
    have hcap := h.decision.cap
    simp only [not_or, not_lt]
    exact ⟨hrate, hcap⟩
  · simp only [not_or, not_lt]
    exact ⟨h.peak, h.baseline, h.equity⟩
  · rintro ⟨cursor, hcursor, item, hitem, hne⟩
    have hlast := h.history_last
    rw [Option.mem_def.mp hcursor, Option.mem_def.mp hitem] at hlast
    exact hne (Option.some.inj hlast)
  · cases s
    simp only at hinitial
    subst hinitial
    rfl

/-- A ready state with another storable decision is ready. -/
theorem Ready.withDecision {s : RiskState} (h : Ready s) {decision : RiskDecision}
    (hdecision : StorableDecision decision) : Ready { s with decision } :=
  { h with decision := hdecision }

/-- A new chain is ready. -/
theorem ready_init : Ready {} where
  initial := rfl
  history_nonneg := nofun
  history_sorted := List.Pairwise.nil
  history_last := rfl
  decision := ⟨by norm_num, by norm_num, by simp⟩
  peak := by norm_num
  baseline := by norm_num
  equity := by norm_num

/-- No overlay makes a decision unstorable. -/
theorem StorableDecision.applyHealthRecovery {decision : RiskDecision}
    (h : StorableDecision decision) (systemHealthy resumeReduced : Bool) :
    StorableDecision (applyHealthRecovery decision systemHealthy resumeReduced) := by
  unfold Risk.applyHealthRecovery
  split
  · exact ⟨le_rfl, le_rfl, by simp⟩
  · split
    · exact h
    · have hrate := h.rate
      have hcap := h.cap
      exact ⟨div_nonneg hrate (by norm_num), div_nonneg hcap (by norm_num),
        by simpa using h.reasons⟩

/-- Health makes no decision unstorable. -/
theorem StorableDecision.applyHealthAction {decision : RiskDecision} (h : StorableDecision decision)
    (health : Option HealthAction) : StorableDecision (applyHealthAction decision health) :=
  h.applyHealthRecovery _ _

/-- A history of points that is cut at its old end keeps its last point, if that is young
enough. -/
theorem getLast?_filter_snoc {α : Type} (P : α → Bool) (xs : List α) {x : α} (hx : P x = true) :
    ((xs ++ [x]).filter P).getLast? = some x := by
  simp [List.filter_append, hx]

/-- In an increasing list, nothing is above the last. -/
theorem le_getLast_of_pairwise {xs : List ℤ} (h : xs.Pairwise (· < ·)) {x : ℤ} (hx : x ∈ xs) :
    ∃ last ∈ xs.getLast?, x ≤ last := by
  rcases List.eq_nil_or_concat xs with rfl | ⟨init, last, rfl⟩
  · cases hx
  · refine ⟨last, by simp, ?_⟩
    rcases List.mem_append.mp (List.concat_eq_append ▸ hx) with hinit | hlast
    · rw [List.concat_eq_append, List.pairwise_append] at h
      exact (h.2.2 x hinit last (List.mem_singleton_self last)).le
    · exact (List.mem_singleton.mp hlast).le

/-- What `advance_risk_state` takes for granted of an accepted observation. -/
theorem accepted_observation {prior : RiskState} {observation : RiskObservation}
    (h : validateObservation prior observation = .ok ()) :
    0 ≤ observation.equity ∧ ∀ last ∈ prior.lastRiskAt, last ≤ observation.now := by
  simp only [validateObservation, Except.bind_eq_ok, reject_eq_ok, not_lt] at h
  obtain ⟨_, hequity, _, -, _, -, _, -, _, hreversed, -⟩ := h
  refine ⟨hequity, ?_⟩
  intro last hlast
  by_contra hlater
  exact hreversed ⟨last, hlast, not_le.mp hlater⟩

/-- The points of an accepted observation are sorted, and its own point is the last. -/
theorem Ready.points {prior : RiskState} {observation : RiskObservation} (h : Ready prior)
    (haccepted : validateObservation prior observation = .ok ()) {points : List (ℤ × ℚ)}
    (hpoints : points = if prior.lastRiskAt ≠ some observation.now then
      prior.equityHistory ++ [(observation.now, observation.equity)] else prior.equityHistory) :
    (∀ item ∈ points, 0 ≤ item.2) ∧ (points.map Prod.fst).Pairwise (· < ·) ∧
      ∃ earlier equity, points = earlier ++ [(observation.now, equity)] := by
  obtain ⟨hequity, hcursor⟩ := accepted_observation haccepted
  by_cases hnew : prior.lastRiskAt ≠ some observation.now
  · rw [if_pos hnew] at hpoints
    subst hpoints
    refine ⟨?_, ?_, prior.equityHistory, observation.equity, rfl⟩
    · intro item hitem
      rcases List.mem_append.mp hitem with hold | hlast
      · exact h.history_nonneg item hold
      · rw [List.mem_singleton.mp hlast]
        exact hequity
    · rw [List.map_append, List.pairwise_append]
      refine ⟨h.history_sorted, List.pairwise_singleton _ _, ?_⟩
      intro time htime last hlast
      obtain rfl := List.mem_singleton.mp hlast
      obtain ⟨cursor, hlatest, hle⟩ := le_getLast_of_pairwise h.history_sorted htime
      rw [List.getLast?_map, ← h.history_last] at hlatest
      have hbefore := hcursor cursor hlatest
      have hne : cursor ≠ observation.now := by
        rintro rfl
        exact hnew hlatest
      show time < observation.now
      omega
  · rw [if_neg hnew] at hpoints
    subst hpoints
    refine ⟨h.history_nonneg, h.history_sorted, ?_⟩
    -- An observation of the same bar finds the point of the bar.
    have hlast := h.history_last
    rw [not_not.mp hnew, eq_comm, Option.map_eq_some_iff] at hlast
    obtain ⟨⟨now, equity⟩, hlast, rfl⟩ := hlast
    obtain ⟨earlier, hearlier⟩ := List.getLast?_eq_some_iff.mp hlast
    exact ⟨earlier, equity, hearlier⟩

/-- An accepted observation leaves a ready state. -/
theorem Ready.observed {prior base : RiskState} {observation : RiskObservation}
    {config : RiskConfig} (h : Ready prior)
    (hbase : advanceRiskState prior observation config = .ok base) : Ready base := by
  have hhistory := advanceRiskState_history hbase
  obtain ⟨input, hadvanced⟩ := advanced_of_ok hbase
  have hwellFormed := evaluateRisk_wellFormed input
  rw [← hadvanced.decision] at hwellFormed
  obtain ⟨hequity, -⟩ := accepted_observation hadvanced.accepted
  obtain ⟨hnonneg, hsorted, earlier, equity, hlast⟩ := h.points hadvanced.accepted rfl
  have hyoung : observation.now - hours 168 ≤ observation.now := by
    simp only [hours]
    omega
  refine ⟨?_, ?_, ?_, ?_, ?_, ?_, ?_, ?_⟩
  · rw [hadvanced.initialEquity, h.initial]
  · intro item hitem
    rw [hhistory] at hitem
    exact hnonneg item (List.mem_of_mem_filter hitem)
  · rw [hhistory]
    exact hsorted.sublist (List.filter_sublist.map _)
  · rw [hadvanced.lastRiskAt, hhistory, hlast, getLast?_filter_snoc _ _ (by simpa using hyoung)]
    rfl
  · exact ⟨hwellFormed.rate, hwellFormed.cap,
      fun hempty => absurd (hwellFormed.reasons "" hempty) (by decide)⟩
  · rw [hadvanced.equityPeak]
    exact le_max_of_le_left h.peak
  · rw [hadvanced.dailyBaselineEquity, dailyBaseline]
    split
    · exact h.equity
    · exact h.baseline
  · rw [hadvanced.lastEquity]
    exact hequity

/-- A bar leaves a ready state, at its cursor, without the marker of a follow-up. -/
theorem Ready.advance {prior base : RiskState} {barAt : ℤ} {row : RiskRow} {config : RiskConfig}
    {systemHealthy : Bool} (h : Ready prior)
    (hbase : advanceRow prior barAt row config systemHealthy = .ok base) :
    Ready base ∧ base.lastRiskAt = some barAt ∧
      "health_recovery_reduced" ∉ base.decision.reasons := by
  simp only [advanceRow, Except.bind_eq_ok, Except.mapError_eq_ok] at hbase
  obtain ⟨ratio, -, hbase⟩ := hbase
  have hready := h.observed hbase
  obtain ⟨input, hadvanced⟩ := advanced_of_ok hbase
  have hwellFormed := evaluateRisk_wellFormed input
  rw [← hadvanced.decision] at hwellFormed
  refine ⟨hready, hadvanced.lastRiskAt, ?_⟩
  intro hmarker
  exact absurd (hwellFormed.reasons _ hmarker) (by decide)

/-! ## The invariant of the log -/

/-- The payloads of the type `BREAKER_STATE`. -/
def breakerPayloads (events : List StoredEvent) : List BreakerPayload :=
  events.filterMap fun event => match event.payload with
    | .breakerState payload => some payload
    | _ => none

/-- The breaker payloads of a longer log are those of its parts. -/
theorem breakerPayloads_append (before after : List StoredEvent) :
    breakerPayloads (before ++ after) = breakerPayloads before ++ breakerPayloads after :=
  List.filterMap_append

/-- An event of another type is no risk event. -/
theorem breakerPayloads_other {event : StoredEvent}
    (h : ∀ payload, event.payload ≠ .breakerState payload) : breakerPayloads [event] = [] := by
  rw [breakerPayloads, List.filterMap_cons_none, List.filterMap_nil]
  split
  · rename_i payload hpayload
    exact absurd hpayload (h payload)
  · rfl

/-- A breaker event has one payload. -/
theorem breakerPayloads_breaker {event : StoredEvent} {payload : BreakerPayload}
    (h : event.payload = .breakerState payload) : breakerPayloads [event] = [payload] := by
  simp [breakerPayloads, h]

/-- Whether an event is a follow-up with an identity. -/
def IsFollowup (event : StoredEvent) (eventId : EventId) : Prop :=
  (∃ payload, event.payload = .breakerState payload) ∧ event.eventId = eventId

/-- The verifier accepts the log, with these accumulators and this gate. A follow-up in the
log is no later than the latest base and names an event of the log; one for the latest base
and the present gate has the decision of the projection. -/
structure Agreed (events : List StoredEvent) (chain : RiskChain) (gate : HealthGate) : Prop where
  folded : events.foldlM chainRound {} = .ok chain
  gate_eq : healthGateFromEvents none (healthEvents events) = .ok gate
  health : chain.healthEvents = healthEvents events
  previous : chain.previousEvent = events.getLast?
  evidence : gate.evidenceEventId = none → healthEvents events = []
  known : ∀ source ∈ gate.evidenceEventId,
    gate.evidenceSequence ≠ 0 ∧ source ∈ events.map (·.eventId)
  latest : gate.action ≠ none → ∀ x ∈ (healthEvents events).getLast?,
    x.2 ≠ [] ∧ ∃ snapshot, HealthSnapshot.fromMapping x.2 = .ok snapshot
  ready : Ready chain.latestBase
  based : chain.latestBaseEvent = none → chain.latestBase.lastRiskAt = none
  decision : StorableDecision chain.projection.decision
  projection : chain.projection =
    { chain.latestBase with decision := chain.projection.decision }
  version : chain.latestRiskVersion = chain.latestRiskEvent.elim 1 fun _ => riskStateVersion
  stored : (breakerPayloads events).getLast? =
    chain.latestRiskEvent.map fun _ => riskStatePayload chain.projection
  unrisked : chain.latestRiskEvent = none → chain.projection = {}
  earlier : ∀ e ∈ events, ∀ barAt sequence version source,
    IsFollowup e (.riskHealth barAt sequence version source) →
    (∃ cursor ∈ chain.latestBase.lastRiskAt, barAt ≤ cursor) ∧ source ∈ events.map (·.eventId)
  bound : ∀ e ∈ events, ∀ cursor ∈ chain.latestBase.lastRiskAt, ∀ eventId,
    healthRiskFollowupId cursor gate = .ok eventId → IsFollowup e eventId →
    chain.projection.decision = applyHealthAction chain.latestBase.decision gate.action

/-- A new chain agrees with the empty log. -/
theorem agreed_init : Agreed [] {} initialGate where
  folded := rfl
  gate_eq := rfl
  health := rfl
  previous := rfl
  evidence := fun _ => rfl
  known := fun source hsource => absurd hsource (Option.not_mem_none source)
  latest := fun _ x hx => absurd hx (Option.not_mem_none x)
  ready := ready_init
  based := fun _ => rfl
  decision := ready_init.decision
  projection := rfl
  version := rfl
  stored := rfl
  unrisked := fun _ => rfl
  earlier := fun _ he => absurd he List.not_mem_nil
  bound := fun _ he => absurd he List.not_mem_nil

/-- The identity of a follow-up. -/
theorem healthRiskFollowupId_eq_ok {barAt : ℤ} {gate : HealthGate} {eventId : EventId} :
    healthRiskFollowupId barAt gate = .ok eventId ↔ ∃ source, gate.evidenceEventId = some source ∧
      gate.evidenceSequence ≠ 0 ∧
      eventId = .riskHealth barAt gate.evidenceSequence gate.evidenceVersion source := by
  simp only [healthRiskFollowupId, Except.bind_eq_ok, require_eq_ok, reject_eq_ok,
    Except.pure_eq_ok]
  constructor
  · rintro ⟨source, hsource, _, hsequence, rfl⟩
    exact ⟨source, hsource, hsequence, rfl⟩
  · rintro ⟨source, hsource, hsequence, rfl⟩
    exact ⟨source, hsource, ⟨⟩, hsequence, rfl⟩

section

variable {events : List StoredEvent} {chain : RiskChain} {gate : HealthGate} {e : StoredEvent}

/-- The projection is the latest base with a decision, and ready. -/
theorem Agreed.ready_projection (h : Agreed events chain gate) : Ready chain.projection := by
  rw [h.projection]
  exact h.ready.withDecision h.decision

/-- The cursor of the projection is that of the latest base. -/
theorem Agreed.cursor (h : Agreed events chain gate) :
    chain.projection.lastRiskAt = chain.latestBase.lastRiskAt := by
  rw [h.projection]

/-- A source of a log is one of the log with one more event. -/
theorem mem_ids_snoc {source : EventId} (h : source ∈ events.map (·.eventId)) :
    source ∈ (events ++ [e]).map (·.eventId) := by
  rw [List.map_append]
  exact List.mem_append_left _ h

/-- An event of any other type changes nothing. -/
theorem Agreed.other (h : Agreed events chain gate)
    (hhealth : ∀ payload, e.payload ≠ .healthState payload)
    (hbreaker : ∀ payload, e.payload ≠ .breakerState payload) :
    Agreed (events ++ [e]) { chain with previousEvent := some e } gate := by
  have hevents : healthEvents (events ++ [e]) = healthEvents events := by
    rw [healthEvents_append, healthEvents_other hhealth, List.append_nil]
  have hround : chainRound chain e = .ok { chain with previousEvent := some e } := by
    unfold chainRound
    split
    · rename_i payload hpayload
      exact absurd hpayload (hhealth payload)
    · rename_i payload hpayload
      exact absurd hpayload (hbreaker payload)
    · rfl
  exact {
    folded := foldlM_snoc_eq_ok.mpr ⟨chain, h.folded, hround⟩
    gate_eq := by rw [hevents]; exact h.gate_eq
    health := by rw [hevents]; exact h.health
    previous := by simp
    evidence := by rw [hevents]; exact h.evidence
    known := fun source hsource =>
      ⟨(h.known source hsource).1, mem_ids_snoc (h.known source hsource).2⟩
    latest := by rw [hevents]; exact h.latest
    ready := h.ready
    based := h.based
    decision := h.decision
    projection := h.projection
    version := h.version
    stored := by
      rw [breakerPayloads_append, breakerPayloads_other hbreaker, List.append_nil]
      exact h.stored
    unrisked := h.unrisked
    earlier := by
      intro old hold barAt sequence version source hfollowup
      rcases List.mem_append.mp hold with hold | hlast
      · have hearlier := h.earlier old hold barAt sequence version source hfollowup
        exact ⟨hearlier.1, mem_ids_snoc hearlier.2⟩
      · obtain ⟨⟨payload, hpayload⟩, -⟩ := hfollowup
        exact absurd (List.mem_singleton.mp hlast ▸ hpayload) (hbreaker payload)
    bound := by
      intro old hold cursor hcursor eventId hid hfollowup
      rcases List.mem_append.mp hold with hold | hlast
      · exact h.bound old hold cursor hcursor eventId hid hfollowup
      · obtain ⟨⟨payload, hpayload⟩, -⟩ := hfollowup
        exact absurd (List.mem_singleton.mp hlast ▸ hpayload) (hbreaker payload) }

/-- A health event moves the gate, to an event that no follow-up names yet. -/
theorem Agreed.healthEvent (h : Agreed events chain gate) {payload : Mapping}
    (he : e.payload = .healthState payload) (hpayload : payload ≠ [])
    (hfresh : e.eventId ∉ events.map (·.eventId)) (hsequence : e.sequence ≠ 0) :
    Agreed (events ++ [e]) { chain with
      healthEvents := chain.healthEvents ++ [(e, payload)]
      previousEvent := some e } (gate.next e payload) := by
  have hevents : healthEvents (events ++ [e]) = healthEvents events ++ [(e, payload)] := by
    rw [healthEvents_append, healthEvents_health he]
  have hbreaker : ∀ breaker, e.payload ≠ .breakerState breaker := by
    intro breaker hother
    rw [he] at hother
    cases hother
  have hround : chainRound chain e = .ok { chain with
      healthEvents := chain.healthEvents ++ [(e, payload)]
      previousEvent := some e } := by
    simp [chainRound, he]
  obtain ⟨hsource, hnumber⟩ := gateOf_evidence e payload
  exact {
    folded := foldlM_snoc_eq_ok.mpr ⟨chain, h.folded, hround⟩
    gate_eq := by
      rw [hevents]
      exact healthGateFromEvents_snoc hpayload (fun x hx => absurd hx (Option.not_mem_none x))
        h.gate_eq
    health := by rw [hevents, h.health]
    previous := by simp
    evidence := by
      intro hnone
      unfold HealthGate.next at hnone
      split at hnone
      · rename_i hrefused
        have hempty := h.evidence hnone
        have hinitial := h.gate_eq
        rw [hempty] at hinitial
        cases hinitial
        exact absurd hrefused (Option.some_ne_none _)
      · rw [hsource] at hnone
        cases hnone
    known := by
      intro source hmem
      unfold HealthGate.next at hmem ⊢
      split at hmem
      · rename_i hrefused
        rw [if_pos hrefused]
        exact ⟨(h.known source hmem).1, mem_ids_snoc (h.known source hmem).2⟩
      · rename_i hactive
        rw [if_neg hactive]
        rw [hsource] at hmem
        cases hmem
        exact ⟨hnumber ▸ hsequence, by simp⟩
    latest := by
      intro hactive x hx
      rw [hevents, List.getLast?_concat] at hx
      cases hx
      refine ⟨hpayload, ?_⟩
      unfold HealthGate.next at hactive
      split at hactive
      · rename_i hrefused
        exact absurd hrefused hactive
      · cases hparse : HealthSnapshot.fromMapping payload with
        | error failure => simp [gateOf, hparse] at hactive
        | ok snapshot => exact ⟨snapshot, rfl⟩
    ready := h.ready
    based := h.based
    decision := h.decision
    projection := h.projection
    version := h.version
    stored := by
      rw [breakerPayloads_append, breakerPayloads_other hbreaker, List.append_nil]
      exact h.stored
    unrisked := h.unrisked
    earlier := by
      intro old hold barAt sequence version source hfollowup
      rcases List.mem_append.mp hold with hold | hlast
      · have hearlier := h.earlier old hold barAt sequence version source hfollowup
        exact ⟨hearlier.1, mem_ids_snoc hearlier.2⟩
      · obtain ⟨⟨breaker, hother⟩, -⟩ := hfollowup
        exact absurd (List.mem_singleton.mp hlast ▸ hother) (hbreaker breaker)
    bound := by
      intro old hold cursor hcursor eventId hid hfollowup
      rcases List.mem_append.mp hold with hold | hlast
      · unfold HealthGate.next at hid ⊢
        split at hid
        · rename_i hrefused
          rw [if_pos hrefused]
          exact h.bound old hold cursor hcursor eventId hid hfollowup
        · obtain ⟨source, hnamed, -, rfl⟩ := healthRiskFollowupId_eq_ok.mp hid
          rw [hsource] at hnamed
          cases hnamed
          exact absurd (h.earlier old hold _ _ _ _ hfollowup).2 hfresh
      · obtain ⟨⟨breaker, hother⟩, -⟩ := hfollowup
        exact absurd (List.mem_singleton.mp hlast ▸ hother) (hbreaker breaker) }

/-- The base decision of a later bar. -/
theorem Agreed.baseEvent (h : Agreed events chain gate) {base : RiskState} {cursor : ℤ}
    (he : e.payload = .breakerState (riskStatePayload base)) (hid : e.eventId = .risk cursor)
    (hat : e.occurredAtUtc = cursor) (hready : Ready base) (hcursor : base.lastRiskAt = some cursor)
    (hmarker : "health_recovery_reduced" ∉ base.decision.reasons)
    (hnew : ∀ last ∈ chain.latestBase.lastRiskAt, last < cursor) :
    Agreed (events ++ [e]) { chain with
      latestBase := base
      projection := base
      latestBaseEvent := some e
      latestRiskEvent := some e
      previousEvent := some e
      latestRiskVersion := riskStateVersion } gate := by
  have hhealth : ∀ payload, e.payload ≠ .healthState payload := by
    intro payload hother
    rw [he] at hother
    cases hother
  have hevents : healthEvents (events ++ [e]) = healthEvents events := by
    rw [healthEvents_append, healthEvents_other hhealth, List.append_nil]
  have hversion : chain.latestRiskVersion ≤ riskStateVersion := by
    rw [h.version]
    cases chain.latestRiskEvent <;> simp [riskStateVersion]
  have hround : chainRound chain e = .ok { chain with
      latestBase := base
      projection := base
      latestBaseEvent := some e
      latestRiskEvent := some e
      previousEvent := some e
      latestRiskVersion := riskStateVersion } := by
    simp only [chainRound, he, hid, isRiskHealth, Bool.false_eq_true, if_false, Except.bind_eq_ok,
      reject_eq_ok, Except.pure_eq_ok]
    refine ⟨⟨⟩, by simp [riskStatePayload], base, hready.fromPayload, ⟨⟩, not_lt.mpr hversion,
      { chain with latestBase := base, projection := base, latestBaseEvent := some e }, ?_, rfl⟩
    simp only [baseRound, Except.bind_eq_ok, require_eq_ok, reject_eq_ok, Except.pure_eq_ok]
    refine ⟨cursor, hcursor, ⟨⟩, not_not.mpr hid, ⟨⟩, not_not.mpr hat, ⟨⟩, hmarker, ⟨⟩, ?_, trivial⟩
    rintro ⟨last, hlast, hle⟩
    exact absurd (hnew last hlast) (not_lt.mpr hle)
  exact {
    folded := foldlM_snoc_eq_ok.mpr ⟨chain, h.folded, hround⟩
    gate_eq := by rw [hevents]; exact h.gate_eq
    health := by rw [hevents]; exact h.health
    previous := by simp
    evidence := by rw [hevents]; exact h.evidence
    known := fun source hsource =>
      ⟨(h.known source hsource).1, mem_ids_snoc (h.known source hsource).2⟩
    latest := by rw [hevents]; exact h.latest
    ready := hready
    based := fun hnone => absurd hnone (Option.some_ne_none e)
    decision := hready.decision
    projection := rfl
    version := rfl
    stored := by simp [breakerPayloads_append, breakerPayloads_breaker he]
    unrisked := fun hnone => absurd hnone (Option.some_ne_none e)
    earlier := by
      intro old hold barAt sequence version source hfollowup
      rcases List.mem_append.mp hold with hold | hlast
      · obtain ⟨⟨last, hlast, hle⟩, hknown⟩ := h.earlier old hold _ _ _ _ hfollowup
        exact ⟨⟨cursor, hcursor, hle.trans (hnew last hlast).le⟩, mem_ids_snoc hknown⟩
      · have hfollowupId := hfollowup.2
        rw [List.mem_singleton.mp hlast, hid] at hfollowupId
        cases hfollowupId
    bound := by
      intro old hold cursor' hcursor' eventId hid' hfollowup
      obtain ⟨source, -, -, rfl⟩ := healthRiskFollowupId_eq_ok.mp hid'
      rw [Option.mem_def, hcursor] at hcursor'
      cases hcursor'
      rcases List.mem_append.mp hold with hold | hlast
      · obtain ⟨⟨last, hlast, hle⟩, -⟩ := h.earlier old hold _ _ _ _ hfollowup
        exact absurd (hnew last hlast) (not_lt.mpr hle)
      · have hfollowupId := hfollowup.2
        rw [List.mem_singleton.mp hlast, hid] at hfollowupId
        cases hfollowupId }

/-- A follow-up of the latest base, bound to the present gate. -/
theorem Agreed.followupEvent (h : Agreed events chain gate) {cursor : ℤ} {final : RiskDecision}
    (hcursor : chain.latestBase.lastRiskAt = some cursor)
    (hfinal : final = applyHealthAction chain.latestBase.decision gate.action)
    (hid : healthRiskFollowupId cursor gate = .ok e.eventId)
    (he : e.payload = .breakerState (riskStatePayload { chain.latestBase with decision := final }))
    (hat : e.occurredAtUtc = followupTime cursor events) :
    Agreed (events ++ [e]) { chain with
      projection := { chain.latestBase with decision := final }
      latestRiskEvent := some e
      previousEvent := some e
      latestRiskVersion := riskStateVersion } gate := by
  have hhealth : ∀ payload, e.payload ≠ .healthState payload := by
    intro payload hother
    rw [he] at hother
    cases hother
  have hevents : healthEvents (events ++ [e]) = healthEvents events := by
    rw [healthEvents_append, healthEvents_other hhealth, List.append_nil]
  have hversion : chain.latestRiskVersion ≤ riskStateVersion := by
    rw [h.version]
    cases chain.latestRiskEvent <;> simp [riskStateVersion]
  have hdecision : StorableDecision final := hfinal ▸ h.ready.decision.applyHealthAction _
  obtain ⟨source, hsource, hsequence, hnamed⟩ := healthRiskFollowupId_eq_ok.mp hid
  have hbased : chain.latestBaseEvent ≠ none := by
    intro hnone
    rw [h.based hnone] at hcursor
    cases hcursor
  have hround : chainRound chain e = .ok { chain with
      projection := { chain.latestBase with decision := final }
      latestRiskEvent := some e
      previousEvent := some e
      latestRiskVersion := riskStateVersion } := by
    simp only [chainRound, he, hnamed, isRiskHealth, if_true, Except.bind_eq_ok, reject_eq_ok,
      Except.pure_eq_ok]
    refine ⟨⟨⟩, by simp [riskStatePayload], _, (h.ready.withDecision hdecision).fromPayload, ⟨⟩,
      not_lt.mpr hversion, { chain with
        projection := { chain.latestBase with decision := final } }, ?_, rfl⟩
    simp only [followupRound, Except.bind_eq_ok, require_eq_ok, reject_eq_ok, Except.pure_eq_ok,
      not_not]
    refine ⟨⟨⟩, hbased, cursor, hcursor, ⟨⟩, hcursor, gate, ?_, ⟨⟩, ?_, _, hid, ⟨⟩, rfl, ⟨⟩, ?_,
      ⟨⟩, ?_, trivial⟩
    · rw [h.health]
      exact h.gate_eq
    · rw [hsource]
      exact Option.some_ne_none source
    · rw [hfinal]
    · cases hlast : events.getLast? <;> simp only [hat, followupTime, h.previous, hlast]
  exact {
    folded := foldlM_snoc_eq_ok.mpr ⟨chain, h.folded, hround⟩
    gate_eq := by rw [hevents]; exact h.gate_eq
    health := by rw [hevents]; exact h.health
    previous := by simp
    evidence := by rw [hevents]; exact h.evidence
    known := fun source hsource =>
      ⟨(h.known source hsource).1, mem_ids_snoc (h.known source hsource).2⟩
    latest := by rw [hevents]; exact h.latest
    ready := h.ready
    based := h.based
    decision := hdecision
    projection := rfl
    version := rfl
    stored := by simp [breakerPayloads_append, breakerPayloads_breaker he]
    unrisked := fun hnone => absurd hnone (Option.some_ne_none e)
    earlier := by
      intro old hold barAt sequence version source' hfollowup
      rcases List.mem_append.mp hold with hold | hlast
      · have hearlier := h.earlier old hold barAt sequence version source' hfollowup
        exact ⟨hearlier.1, mem_ids_snoc hearlier.2⟩
      · have hfollowupId := hfollowup.2
        rw [List.mem_singleton.mp hlast, hnamed] at hfollowupId
        cases hfollowupId
        exact ⟨⟨cursor, hcursor, le_rfl⟩, mem_ids_snoc (h.known source hsource).2⟩
    bound := fun _ _ _ _ _ _ _ => hfinal }

/-- An event of another type leaves the health and risk states alone. -/
theorem replayPayload_states {s t : Projection}
    (hbreaker : ∀ payload, e.payload ≠ .breakerState payload)
    (hhealth : ∀ payload, e.payload ≠ .healthState payload) (h : replayPayload s e = .ok t) :
    t.breakerState = s.breakerState ∧ t.healthState = s.healthState := by
  unfold replayPayload at h
  split at h
  · obtain ⟨-, rfl⟩ := replayOrderCreated_eq_ok h
    exact ⟨rfl, rfl⟩
  · simp only [replayFill, Except.bind_eq_ok, Except.pure_eq_ok] at h
    obtain ⟨_, -, _, -, _, -, balanced, hbalanced, orders, -, rfl⟩ := h
    unfold replayBalance at hbalanced
    split at hbalanced
    · simp only [Except.bind_eq_ok, Except.pure_eq_ok] at hbalanced
      obtain ⟨_, -, rfl⟩ := hbalanced
      exact ⟨rfl, rfl⟩
    · simp only [Except.bind_eq_ok, Except.pure_eq_ok] at hbalanced
      obtain ⟨_, -, _, -, rfl⟩ := hbalanced
      exact ⟨rfl, rfl⟩
  · obtain ⟨existing, -, -, rfl⟩ := replayOrderStatus_eq_ok h
    exact ⟨rfl, rfl⟩
  · rename_i payload hpayload
    exact absurd hpayload (hbreaker payload)
  · rename_i payload hpayload
    exact absurd hpayload (hhealth payload)
  · simp only [Except.bind_eq_ok, Except.pure_eq_ok] at h
    obtain ⟨_, -, _, -, _, -, rfl⟩ := h
    exact ⟨rfl, rfl⟩
  · cases h
    exact ⟨rfl, rfl⟩

/-- What replay keeps of the health and risk events. -/
theorem rebuild_states {log : List StoredEvent} {s : Projection}
    (h : rebuildFromEvents log = .ok s) : s.breakerState = (breakerPayloads log).getLast? ∧
      s.healthState = (healthEvents log).getLast?.map Prod.snd := by
  induction log using List.reverseRecOn generalizing s with
  | nil =>
    cases h
    exact ⟨rfl, rfl⟩
  | append_singleton log e ih =>
    obtain ⟨t, ht, hround⟩ := rebuild_snoc.mp h
    obtain ⟨-, -, -, u, hu, rfl⟩ := replayEvent_eq_ok.mp hround
    obtain ⟨hbreaker, hhealth⟩ := ih ht
    rw [breakerPayloads_append, healthEvents_append]
    cases hpayload : e.payload with
    | breakerState payload =>
      simp only [replayPayload, hpayload] at hu
      cases hu
      rw [breakerPayloads_breaker hpayload, healthEvents_other (by simp [hpayload])]
      exact ⟨by simp, by simpa using hhealth⟩
    | healthState payload =>
      simp only [replayPayload, hpayload] at hu
      cases hu
      rw [breakerPayloads_other (by simp [hpayload]), healthEvents_health hpayload]
      exact ⟨by simpa using hbreaker, by simp⟩
    | _ =>
      have hsame := replayPayload_states (by simp [hpayload]) (by simp [hpayload]) hu
      rw [breakerPayloads_other (by simp [hpayload]), healthEvents_other (by simp [hpayload]),
        List.append_nil, List.append_nil]
      exact ⟨hsame.1.trans hbreaker, hsame.2.trans hhealth⟩

/-- The projected breaker state is the projection of the chain. -/
theorem Agreed.projected {db : Database} {snapshot : PaperSnapshot}
    (h : Agreed db.events chain gate) (hsnapshot : replayState db = .ok snapshot) :
    riskStateFromPayload (snapshot.breakerState.getD (.raw [])) = .ok chain.projection := by
  obtain ⟨s, hs, -, rfl⟩ := replayAndVerify_eq_ok.mp hsnapshot
  have hstored := h.stored
  simp only [snapshotFromComponents, (rebuild_states hs).1]
  cases hrisk : chain.latestRiskEvent with
  | none =>
    rw [hstored, hrisk, h.unrisked hrisk]
    rfl
  | some event =>
    rw [hstored, hrisk]
    exact h.ready_projection.fromPayload

/-- The verifier accepts the log. -/
theorem Agreed.accepted {db : Database} {snapshot : PaperSnapshot}
    (h : Agreed db.events chain gate) (hsnapshot : replayState db = .ok snapshot) :
    healthGateFromSnapshot snapshot = .ok gate ∧
      validateHealthAndRiskChain snapshot = .ok chain := by
  obtain ⟨s, hs, -, rfl⟩ := replayAndVerify_eq_ok.mp hsnapshot
  obtain ⟨hbreaker, hhealth⟩ := rebuild_states hs
  have hgate : healthGateFromSnapshot (snapshotFromComponents s db.events) = .ok gate := by
    simp only [healthGateFromSnapshot, Except.bind_eq_ok]
    refine ⟨gate, h.gate_eq, ?_⟩
    cases hevidence : gate.evidenceEventId with
    | none =>
      have hempty := h.evidence hevidence
      simp only [snapshotFromComponents, hhealth, hempty, Except.bind_eq_ok, reject_eq_ok]
      exact ⟨⟨⟩, by simp, rfl⟩
    | some source =>
      cases haction : gate.action with
      | none => rfl
      | some action =>
        obtain ⟨x, hx⟩ : ∃ x, (healthEvents db.events).getLast? = some x := by
          cases hlast : (healthEvents db.events).getLast? with
          | some x => exact ⟨x, rfl⟩
          | none =>
            have hinitial := h.gate_eq
            rw [List.getLast?_eq_none_iff.mp hlast] at hinitial
            cases hinitial
            cases hevidence
        obtain ⟨hpayload, snapshot, hparse⟩ := h.latest (by simp [haction]) x hx
        have hevent : HealthSnapshot.fromEventMapping x.2 = .ok snapshot := by
          simp only [HealthSnapshot.fromEventMapping, Except.bind_eq_ok, reject_eq_ok,
            Except.mapError_eq_ok]
          exact ⟨⟨⟩, hpayload, hparse⟩
        simp only [snapshotFromComponents, hhealth, hx, Except.bind_eq_ok, reject_eq_ok,
          require_eq_ok, Except.mapError_eq_ok]
        exact ⟨snapshot, hparse, x, rfl, snapshot, hevent, ⟨⟩, by simp, rfl⟩
  have hprojected := h.projected hsnapshot
  refine ⟨hgate, ?_⟩
  simp only [validateHealthAndRiskChain, Except.bind_eq_ok]
  refine ⟨gate, hgate, chain, h.folded, ?_⟩
  have hstored := h.stored
  have hversion := h.version
  cases hrisk : chain.latestRiskEvent with
  | none =>
    rw [hrisk] at hstored
    simp only [snapshotFromComponents, hbreaker, hstored, Except.bind_eq_ok, reject_eq_ok]
    exact ⟨⟨⟩, by simp, rfl⟩
  | some event =>
    rw [hrisk] at hstored hversion
    simp only [Except.bind_eq_ok, reject_eq_ok]
    refine ⟨chain.projection, hprojected, ⟨⟩, ?_, rfl⟩
    simp [snapshotFromComponents, hbreaker, hstored, riskStatePayload, breakerVersion, hversion]

end

/-! ## The writer keeps the invariant -/

/-- The store and the verifier accept the database. -/
def ChainSound (db : Database) : Prop :=
  Verified db ∧ ∃ chain gate, Agreed db.events chain gate

/-- The verifier accepts the database with a latest base and a gate, and the projection has
the decision. -/
def Decided (base : RiskState) (gate : HealthGate) (final : RiskDecision) (db : Database) : Prop :=
  Verified db ∧ ∃ chain, Agreed db.events chain gate ∧ chain.latestBase = base ∧
    chain.projection.decision = final

/-- A decision that is recorded leaves a sound chain. -/
theorem Decided.sound {base : RiskState} {gate : HealthGate} {final : RiskDecision} {db : Database}
    (h : Decided base gate final db) : ChainSound db := by
  obtain ⟨hverified, chain, hagreed, -, -⟩ := h
  exact ⟨hverified, chain, gate, hagreed⟩

/-- An identity that is not found is new. -/
theorem not_mem_ids {events : List StoredEvent} {eventId : EventId}
    (h : findEvent events eventId = none) : eventId ∉ events.map (·.eventId) := by
  intro hmem
  obtain ⟨event, hevent, hid⟩ := List.mem_map.mp hmem
  have hother := List.find?_eq_none.mp h event hevent
  exact hother (by simpa using hid)

section

variable {db : Database} {chain : RiskChain} {gate : HealthGate} {kept : Database → Prop}

/-- A recorded event leaves the database with the event appended. -/
theorem recordEvent_triple {eventId : EventId} {occurredAt : ℤ} {payload : Payload}
    {post : Database → Prop} (h : ∀ db', Appended db eventId occurredAt payload db' → post db') :
    Triple (· = db) (recordEvent eventId occurredAt payload) (fun _ => post) fun _ => True := by
  refine Triple.get_bind ?_
  rintro _ rfl
  refine Triple.lift_bind (fun _ _ => trivial) fun db' happend => ?_
  refine Triple.modify ?_
  rintro _ rfl
  exact h db' (appendEvent_appended happend)

/-- A fenced transaction leaves what its body leaves, or the database before it. -/
theorem fencedCycleTransaction_triple {runs : Bool} {body : Stateful Failure Database Unit}
    {post : Database → Prop} (hkept : kept db)
    (h : Triple (· = db) body (fun _ => post) fun _ => True) :
    Triple (· = db) (fencedCycleTransaction runs body) (fun _ => post) kept := by
  refine Triple.transaction (by rintro _ rfl; exact hkept) ?_
  exact Triple.lift_bind (fun _ _ => trivial) fun _ _ => h

/-- A follow-up is recorded once, or found with the same decision. -/
theorem persistHealthRiskFollowup_triple (hverified : Verified db)
    (h : Agreed db.events chain gate) {barAt : ℤ}
    (hcursor : chain.latestBase.lastRiskAt = some barAt)
    {final : RiskDecision} (hfinal : final = applyHealthAction chain.latestBase.decision gate.action) :
    Triple (· = db) (persistHealthRiskFollowup barAt chain.latestBase final gate)
      (fun _ => Decided chain.latestBase gate final) fun _ => True := by
  refine Triple.lift_bind (fun _ _ => trivial) fun _ _ => ?_
  refine Triple.get_bind ?_
  rintro db rfl
  refine Triple.lift_bind (fun _ _ => trivial) fun snapshot hsnapshot => ?_
  refine Triple.lift_bind (fun _ _ => trivial) fun eventId hid => ?_
  obtain ⟨s, -, -, rfl⟩ := replayAndVerify_eq_ok.mp hsnapshot
  simp only [snapshotFromComponents]
  split
  · refine recordEvent_triple fun db' happended => ⟨happended.after, ?_⟩
    rw [happended.events]
    exact ⟨_, h.followupEvent hcursor hfinal hid rfl rfl, rfl, rfl⟩
  · rename_i existing hfound
    have hmem : existing ∈ db.events.filter (·.eventId = eventId) := by rw [hfound]; simp
    obtain ⟨hold, hsame⟩ := List.mem_filter.mp hmem
    refine Triple.lift (fun _ _ => trivial) ?_
    rintro _ hmatch _ rfl
    split at hmatch
    · rename_i payload hpayload
      have hbound := h.bound existing hold barAt hcursor eventId hid
        ⟨⟨payload, hpayload⟩, of_decide_eq_true hsame⟩
      exact ⟨hverified, chain, h, rfl, hbound.trans hfinal.symm⟩
    · cases hmatch
  · exact Triple.lift (fun _ _ => trivial) fun _ hraised => by cases hraised

/-- An answer with its follow-up leaves the chain decided as it answers. -/
theorem answerWithFollowup_triple (hverified : Verified db)
    (h : Agreed db.events chain gate) {barAt : ℤ}
    (hcursor : chain.latestBase.lastRiskAt = some barAt)
    {final : RiskDecision} (hfinal : final = applyHealthAction chain.latestBase.decision gate.action)
    (runs : RunPoint → Bool) :
    Triple (· = db) (answerWithFollowup runs barAt chain.latestBase final gate)
      (fun decision db' => decision = final ∧ Decided chain.latestBase gate final db')
      ChainSound := by
  refine Triple.bind (fencedCycleTransaction_triple ⟨hverified, chain, gate, h⟩
    (persistHealthRiskFollowup_triple hverified h hcursor hfinal)) fun _ => ?_
  refine Triple.lift_bind (fun _ hdecided => hdecided.sound) fun _ _ => ?_
  exact Triple.pure fun _ hdecided => ⟨rfl, hdecided⟩

/-- What `_risk_decision` returns: the latest base under the latest health, which the
projection holds. -/
def Returns (decision : RiskDecision) (db : Database) : Prop :=
  ∃ base gate, decision = applyHealthAction base.decision gate.action ∧
    Decided base gate decision db

/-- A repeated decision returns what the sound chain holds. -/
theorem redecide_triple (hverified : Verified db) (h : Agreed db.events chain gate) {barAt : ℤ}
    (runs : RunPoint → Bool) :
    Triple (· = db) (redecide runs barAt chain gate) Returns ChainSound := by
  have hsound : ∀ s, s = db → ChainSound s := by
    rintro _ rfl
    exact ⟨hverified, chain, gate, h⟩
  refine Triple.lift_bind hsound fun _ hcursor => ?_
  have hcursor : chain.latestBase.lastRiskAt = some barAt := not_not.mp (reject_eq_ok.mp hcursor)
  refine Triple.lift_bind hsound fun expected _ => ?_
  dsimp only
  split
  · refine (answerWithFollowup_triple hverified h hcursor rfl runs).weaken ?_
    rintro decision db' ⟨rfl, hdecided⟩
    exact ⟨_, gate, rfl, hdecided⟩
  · rename_i hkeep
    refine Triple.pure ?_
    rintro _ rfl
    have hprojection := not_not.mp (not_or.mp hkeep).1
    exact ⟨chain.latestBase, gate, rfl, hverified, chain, h, rfl, hprojection⟩

/-- The decision of a new bar returns what the sound chain then holds. -/
theorem decideNewBar_triple (hverified : Verified db) (h : Agreed db.events chain gate) {barAt : ℤ}
    (hnew : ∀ last ∈ chain.latestBase.lastRiskAt, last < barAt) (config : RiskConfig)
    (runs : RunPoint → Bool) (row : RiskRow) :
    Triple (· = db) (decideNewBar config runs barAt row chain gate) Returns ChainSound := by
  have hsound : ∀ s, s = db → ChainSound s := by
    rintro _ rfl
    exact ⟨hverified, chain, gate, h⟩
  refine Triple.lift_bind hsound fun base hbase => ?_
  obtain ⟨hready, hcursor, hmarker⟩ := h.ready_projection.advance hbase
  have hrecorded : ∀ db', Appended db (.risk barAt) barAt (.breakerState (riskStatePayload base)) db' →
      Decided base gate base.decision db' := by
    intro db' happended
    refine ⟨happended.after, ?_⟩
    rw [happended.events]
    exact ⟨_, h.baseEvent rfl rfl rfl hready hcursor hmarker hnew, rfl, rfl⟩
  refine Triple.bind (fencedCycleTransaction_triple (hsound db rfl)
    (recordEvent_triple hrecorded)) fun _ => ?_
  rintro db' ⟨hverified', chain', hagreed, hlatest, hprojection⟩
  subst hlatest
  dsimp only
  split
  · refine ((answerWithFollowup_triple hverified' hagreed hcursor rfl runs).weaken ?_) db' rfl
    rintro decision db'' ⟨rfl, hdecided⟩
    exact ⟨_, gate, rfl, hdecided⟩
  · rename_i hsame
    have hfinal := not_not.mp hsame
    refine Triple.pure (fun after (hafter : after = db') => ?_) db' rfl
    subst hafter
    exact ⟨chain'.latestBase, gate, rfl, hverified', chain', hagreed, rfl,
      hprojection.trans hfinal.symm⟩

end

/-- `_risk_decision` keeps the log acceptable, however it ends. -/
theorem riskDecision_triple (config : RiskConfig) (runs : RunPoint → Bool) (barAt : ℤ)
    (row : RiskRow) : Triple ChainSound (riskDecision config runs barAt row) Returns ChainSound := by
  refine Triple.get_bind ?_
  intro db hsound
  have hkept : ∀ s, s = db → ChainSound s := by
    rintro _ rfl
    exact hsound
  obtain ⟨hverified, chain, gate, h⟩ := hsound
  refine Triple.lift_bind hkept fun snapshot hsnapshot => ?_
  obtain ⟨hgate, hchain⟩ := h.accepted hsnapshot
  refine Triple.lift_bind hkept fun chain' hchain' => ?_
  cases hchain.symm.trans hchain'
  refine Triple.lift_bind hkept fun gate' hgate' => ?_
  cases hgate.symm.trans hgate'
  refine Triple.lift_bind hkept fun _ hahead => ?_
  split
  · exact redecide_triple hverified h runs
  · rename_i hother
    refine decideNewBar_triple hverified h ?_ config runs row
    intro last hlast
    rw [← h.cursor] at hlast
    have hle : ¬barAt < last := fun hlt => reject_eq_ok.mp hahead ⟨last, hlast, hlt⟩
    have hne : last ≠ barAt := by
      rintro rfl
      exact hother hlast
    omega

/-! ## Every run -/

/-- What other writers append: no risk event, and no health event without a payload. -/
def FromOthers : Payload → Prop
  | .breakerState _ => False
  | .healthState payload => payload ≠ []
  | _ => True

/-- A step of the store: a mutation of another writer, or a cycle for any bar, which may end
before each of its transactions and before it answers. -/
inductive ChainStep (db : Database) : Database → Prop where
  | foreign {db' : Database} : Foreign FromOthers db db' → ChainStep db db'
  | cycle (config : RiskConfig) (runs : RunPoint → Bool) (barAt : ℤ) (row : RiskRow) :
      ChainStep db (execute (riskDecision config runs barAt row) db).2

/-- What others record keeps the chain sound. -/
theorem ChainSound.foreign {db db' : Database} (h : ChainSound db)
    (hforeign : Foreign FromOthers db db') : ChainSound db' := by
  rcases hforeign.appended with rfl | ⟨eventId, occurredAt, payload, happended, hadmitted⟩
  · exact h
  obtain ⟨-, chain, gate, hagreed⟩ := h
  refine ⟨happended.after, ?_⟩
  rw [happended.events]
  cases payload with
  | healthState mapping =>
    have hpayload : mapping ≠ [] := hadmitted.resolve_right (by simp [Payload.isNeutral])
    exact ⟨_, _, hagreed.healthEvent rfl hpayload (not_mem_ids happended.fresh)
      (Nat.succ_ne_zero _)⟩
  | breakerState _ =>
    exact absurd hadmitted (by simp [FromOthers, Payload.isNeutral])
  | _ =>
    exact ⟨_, _, hagreed.other (by simp [Database.nextEvent]) (by simp [Database.nextEvent])⟩

/-- Every step keeps the invariant. -/
theorem ChainSound.step {db db' : Database} (h : ChainSound db) (hstep : ChainStep db db') :
    ChainSound db' := by
  cases hstep with
  | foreign hforeign => exact h.foreign hforeign
  | cycle config runs barAt row =>
    refine ((riskDecision_triple config runs barAt row).weaken ?_).leaves h
    rintro decision db' ⟨base, gate, -, hdecided⟩
    exact hdecided.sound

/-- Every chain that steps of the service reach is sound. -/
theorem ChainSound.run {db : Database} (h : Relation.ReflTransGen ChainStep {} db) :
    ChainSound db := by
  induction h with
  | refl => exact ⟨⟨_, rfl⟩, _, _, agreed_init⟩
  | tail _ hstep ih => exact ih.step hstep

/-- In every run the verifier accepts the log, and a cycle returns the latest base decision
under the latest health action, which is the decision of the projected breaker state. -/
theorem risk_chain_agreement {db : Database} (h : Relation.ReflTransGen ChainStep {} db) :
    (∃ snapshot chain, replayState db = .ok snapshot ∧
      validateHealthAndRiskChain snapshot = .ok chain) ∧
    ∀ config runs barAt row decision db',
      execute (riskDecision config runs barAt row) db = (.ok decision, db') →
      ∃ snapshot chain gate state, replayState db' = .ok snapshot ∧
        validateHealthAndRiskChain snapshot = .ok chain ∧
        healthGateFromSnapshot snapshot = .ok gate ∧
        decision = applyHealthAction chain.latestBase.decision gate.action ∧
        riskStateFromPayload (snapshot.breakerState.getD (.raw [])) = .ok state ∧
        state.decision = decision := by
  have hsound := ChainSound.run h
  constructor
  · obtain ⟨⟨snapshot, hsnapshot⟩, chain, gate, hagreed⟩ := hsound
    exact ⟨snapshot, chain, hsnapshot, (hagreed.accepted hsnapshot).2⟩
  · intro config runs barAt row decision db' hresult
    obtain ⟨base, gate, hdecision, ⟨snapshot, hsnapshot⟩, chain, hagreed, rfl, hprojection⟩ :=
      (riskDecision_triple config runs barAt row db hsound).1 decision db' hresult
    obtain ⟨hgate, hchain⟩ := hagreed.accepted hsnapshot
    exact ⟨snapshot, chain, gate, chain.projection, hsnapshot, hchain, hgate, hdecision,
      hagreed.projected hsnapshot, hprojection⟩

/-- The log after three API failures and three successes: trading resumes reduced. -/
def reducedLog : Database :=
  (appendEvent {} (.healthPublic 6 6 "success") 6 (.healthState (observeAll {}
    [.apiFailure 1, .apiFailure 2, .apiFailure 3, .apiSuccess 4, .apiSuccess 5,
      .apiSuccess 6]).toStorageMapping)).toOption.getD {}

/-- A bar without a loss. -/
def calmRow : RiskRow := ⟨100, [], some (.number 1), true⟩

/-- The log after a cycle that stops before its follow-up. -/
def interruptedCycle : Database :=
  (execute (riskDecision {} (· ≠ .followup) 8 calmRow) reducedLog).2

/-- The rerun of an interrupted cycle returns the halved decision. -/
theorem risk_chain_agreement_rerun : ∃ decision db',
    execute (riskDecision {} (fun _ => true) 8 calmRow) interruptedCycle = (.ok decision, db') ∧
    decision.riskRate = 1 / 100 ∧ ∃ snapshot chain gate state, replayState db' = .ok snapshot ∧
      validateHealthAndRiskChain snapshot = .ok chain ∧
      healthGateFromSnapshot snapshot = .ok gate ∧
      decision = applyHealthAction chain.latestBase.decision gate.action ∧
      riskStateFromPayload (snapshot.breakerState.getD (.raw [])) = .ok state ∧
      state.decision = decision := by
  obtain ⟨log, happend⟩ := Except.isOk_iff.mp (show (appendEvent {} (.healthPublic 6 6 "success") 6
    (.healthState (observeAll {} [.apiFailure 1, .apiFailure 2, .apiFailure 3, .apiSuccess 4,
      .apiSuccess 5, .apiSuccess 6]).toStorageMapping)).isOk = true by decide +kernel)
  have hlog : reducedLog = log := by rw [reducedLog, happend]; rfl
  have hforeign : Foreign FromOthers {} reducedLog := by
    rw [hlog]
    refine .appendEvent ?_ happend
    exact toStorageMapping_ne_nil _
  have hreached : Relation.ReflTransGen ChainStep {} interruptedCycle :=
    (Relation.ReflTransGen.single (.foreign hforeign)).tail (.cycle {} _ 8 calmRow)
  have hrate : ((execute (riskDecision {} (fun _ => true) 8 calmRow)
      interruptedCycle).1.toOption.any fun decision => decision.riskRate = 1 / 100) = true := by
    decide +kernel
  rcases hresult : execute (riskDecision {} (fun _ => true) 8 calmRow) interruptedCycle with
    ⟨failure | decision, db'⟩
  · rw [hresult] at hrate
    cases hrate
  · rw [hresult] at hrate
    exact ⟨decision, db', rfl, of_decide_eq_true hrate,
      (risk_chain_agreement hreached).2 _ _ _ _ _ _ hresult⟩

end AutoBit.Service
