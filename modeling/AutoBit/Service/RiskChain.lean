import AutoBit.Health.Persistence

/-!
# The chain of health and risk events

A risk event is a base decision of one bar, or a follow-up that binds the latest health
event to the latest base. `validateHealthAndRiskChain` recomputes each follow-up from the
raw log.
-/

namespace AutoBit.Service

open Library Store Risk Health

/-! ## Stored risk states -/

/-- `_RISK_STATE_VERSION`. -/
def riskStateVersion : ℕ := 2

/-- `_risk_state_payload`. -/
def riskStatePayload (state : RiskState) : BreakerPayload := .valid riskStateVersion state

/-- `_risk_state_from_payload`. The initial equity is not stored. -/
def riskStateFromPayload : BreakerPayload → Except Failure RiskState
  | .raw [] => .ok {}
  | .raw _ => .error (.corruption "persisted breaker state has an invalid schema")
  | .valid version state => do
    reject (version ≠ 1 ∧ version ≠ riskStateVersion)
      (.corruption "persisted breaker state has an invalid schema")
    let invalid := Failure.corruption "persisted breaker state is invalid"
    reject (∃ item ∈ state.equityHistory, item.2 < 0) invalid
    reject (¬(state.equityHistory.map Prod.fst).Pairwise (· < ·)) invalid
    reject ("" ∈ state.decision.reasons) invalid
    reject (state.decision.riskRate < 0 ∨ state.decision.exposureCap < 0) invalid
    reject (state.equityPeak < 0 ∨ state.dailyBaselineEquity < 0 ∨ state.lastEquity < 0) invalid
    reject (∃ cursor ∈ state.lastRiskAt, ∃ item ∈ state.equityHistory.getLast?, cursor ≠ item.1)
      invalid
    return { state with initialEquity := 100 }

/-- `payload["version"]`, once the payload has been read. -/
def breakerVersion : BreakerPayload → ℕ
  | .valid version _ => version
  | .raw _ => 0

/-! ## The health gate -/

/-- `_HealthGate`. -/
structure HealthGate where
  action : Option HealthAction
  evidenceEventId : Option EventId
  evidenceSequence : ℕ
  evidenceVersion : ℕ
  deriving DecidableEq, Repr

/-- The events of the type `HEALTH_STATE`, with their payloads. -/
def healthEvents (events : List StoredEvent) : List (StoredEvent × Mapping) :=
  events.filterMap fun event => match event.payload with
    | .healthState payload => some (event, payload)
    | _ => none

/-- `int(payload["version"])`. -/
def healthVersion (payload : Mapping) : ℕ :=
  match item payload "version" with
  | .scalar (.int version) => version.toNat
  | _ => 0

/-- The gate before any health event. -/
def initialGate : HealthGate := ⟨some (action {}), none, 0, 1⟩

/-- `_health_gate_from_events`, from the latest snapshot and its event on. The first payload
that is refused decides. -/
def healthGateFromEvents (latest : Option (HealthSnapshot × StoredEvent × Mapping)) :
    List (StoredEvent × Mapping) → Except Failure HealthGate
  | [] =>
    match latest with
    | none => .ok initialGate
    | some (snapshot, event, payload) => do
      let monitor ← HealthMonitor.new snapshot
      return ⟨some (action monitor.snapshot), some event.eventId, event.sequence,
        healthVersion payload⟩
  | (event, payload) :: events => do
    reject (payload = []) (.health "health event payload must not be empty")
    match HealthSnapshot.fromMapping payload with
    | .error _ => return ⟨none, some event.eventId, event.sequence, 0⟩
    | .ok snapshot => healthGateFromEvents (some (snapshot, event, payload)) events

/-- `_health_gate_from_snapshot`. -/
def healthGateFromSnapshot (snapshot : PaperSnapshot) : Except Failure HealthGate := do
  let events := healthEvents snapshot.eventEvidence
  let gate ← healthGateFromEvents none events
  let healthState := snapshot.healthState.getD []
  match gate.evidenceEventId, gate.action with
  | none, _ => do
    reject (healthState ≠ []) (.corruption "health projection has no event evidence")
    return gate
  | some _, none => return gate
  | some _, some _ => do
    let projected ← (HealthSnapshot.fromMapping healthState).mapError Failure.health
    let (_, payload) ← require events.getLast? (.value "tuple index out of range")
    let latest ← HealthSnapshot.fromEventMapping payload
    reject (projected ≠ latest) (.corruption "health projection contradicts event evidence")
    return gate

/-- `_apply_health_action`. -/
def applyHealthAction (decision : RiskDecision) (health : Option HealthAction) : RiskDecision :=
  applyHealthRecovery decision (health.any (!·.haltEntries)) (health.any (·.resumeReduced))

/-- `_health_risk_followup_id`. -/
def healthRiskFollowupId (barAt : ℤ) (health : HealthGate) : Except Failure EventId := do
  let source ← require health.evidenceEventId
    (.corruption "health risk followup lacks event identity")
  reject (health.evidenceSequence = 0) (.corruption "health risk followup lacks event identity")
  return .riskHealth barAt health.evidenceSequence health.evidenceVersion source

/-! ## The verifier -/

/-- `startswith("risk-health:")`. -/
def isRiskHealth : EventId → Bool
  | .riskHealth .. => true
  | .fillRecovery base _ => isRiskHealth base || base = .external "risk-health"
  | .external text => "risk-health:".toList.isPrefixOf text.toList
  | _ => false

/-- The accumulators of `_validate_health_and_risk_chain`, of which four make up the
`_ValidatedRiskChain` that it returns. -/
structure RiskChain where
  healthEvents : List (StoredEvent × Mapping) := []
  latestBase : RiskState := {}
  projection : RiskState := {}
  latestBaseEvent : Option StoredEvent := none
  latestRiskEvent : Option StoredEvent := none
  previousEvent : Option StoredEvent := none
  latestRiskVersion : ℕ := 1
  deriving DecidableEq, Repr

/-- The branch of a follow-up. -/
def followupRound (c : RiskChain) (event : StoredEvent) (candidate : RiskState) :
    Except Failure RiskChain := do
  reject (c.latestBaseEvent = none) (.corruption "health risk followup lacks canonical base")
  let cursor ← require c.latestBase.lastRiskAt
    (.corruption "health risk followup lacks canonical base")
  reject (candidate.lastRiskAt ≠ some cursor)
    (.corruption "health risk followup changes the risk cursor")
  let gate ← healthGateFromEvents none c.healthEvents
  reject (gate.evidenceEventId = none)
    (.corruption "health risk followup is not bound to the latest health event")
  let eventId ← healthRiskFollowupId cursor gate
  reject (eventId ≠ event.eventId)
    (.corruption "health risk followup is not bound to the latest health event")
  reject (candidate ≠ { c.latestBase with
      decision := applyHealthAction c.latestBase.decision gate.action })
    (.corruption "health risk followup decision is inconsistent")
  reject (event.occurredAtUtc ≠ (match c.previousEvent with
      | some previous => max cursor previous.occurredAtUtc
      | none => cursor))
    (.corruption "health risk followup timestamp is inconsistent")
  return { c with projection := candidate }

/-- The branch of a base decision. -/
def baseRound (c : RiskChain) (event : StoredEvent) (candidate : RiskState) :
    Except Failure RiskChain := do
  let cursor ← require candidate.lastRiskAt (.corruption "canonical risk event lacks its cursor")
  reject (event.eventId ≠ .risk cursor) (.corruption "breaker event identity is not canonical")
  reject (event.occurredAtUtc ≠ cursor) (.corruption "risk cursor contradicts its event envelope")
  reject ("health_recovery_reduced" ∈ candidate.decision.reasons)
    (.corruption "canonical risk event contains an unbound health marker")
  reject (∃ last ∈ c.latestBase.lastRiskAt, cursor ≤ last)
    (.corruption "canonical risk cursors are not strictly increasing")
  return { c with
    latestBase := candidate
    projection := candidate
    latestBaseEvent := some event }

/-- One round of the loop of `_validate_health_and_risk_chain`. -/
def chainRound (c : RiskChain) (event : StoredEvent) : Except Failure RiskChain :=
  match event.payload with
  | .healthState payload =>
    .ok { c with
      healthEvents := c.healthEvents ++ [(event, payload)]
      previousEvent := some event }
  | .breakerState payload => do
    reject (payload = .raw []) (.corruption "persisted breaker event has an empty schema")
    let candidate ← riskStateFromPayload payload
    reject (breakerVersion payload < c.latestRiskVersion)
      (.corruption "breaker policy version downgrade is invalid")
    let c' ← if isRiskHealth event.eventId then followupRound c event candidate
      else baseRound c event candidate
    return { c' with
      latestRiskEvent := some event
      previousEvent := some event
      latestRiskVersion := breakerVersion payload }
  | _ => .ok { c with previousEvent := some event }

/-- `_validate_health_and_risk_chain`. -/
def validateHealthAndRiskChain (snapshot : PaperSnapshot) : Except Failure RiskChain := do
  let _ ← healthGateFromSnapshot snapshot
  let chain ← snapshot.eventEvidence.foldlM chainRound {}
  let breakerState := snapshot.breakerState.getD (.raw [])
  match chain.latestRiskEvent with
  | none => do
    reject (breakerState ≠ .raw []) (.corruption "breaker projection has no event evidence")
    return chain
  | some _ => do
    let state ← riskStateFromPayload breakerState
    reject (state ≠ chain.projection ∨ breakerVersion breakerState ≠ chain.latestRiskVersion)
      (.corruption "breaker projection contradicts event evidence")
    return chain

/-! ## The gate of a growing log -/

/-- The gate that one health event decides. -/
def gateOf (event : StoredEvent) (payload : Mapping) : HealthGate :=
  match HealthSnapshot.fromMapping payload with
  | .error _ => ⟨none, some event.eventId, event.sequence, 0⟩
  | .ok snapshot => ⟨some (action snapshot), some event.eventId, event.sequence,
      healthVersion payload⟩

/-- The gate after one more health event: a payload that was refused still decides. -/
def HealthGate.next (gate : HealthGate) (event : StoredEvent) (payload : Mapping) : HealthGate :=
  if gate.action = none then gate else gateOf event payload

/-- A gate has the evidence of its event. -/
theorem gateOf_evidence (event : StoredEvent) (payload : Mapping) :
    (gateOf event payload).evidenceEventId = some event.eventId ∧
      (gateOf event payload).evidenceSequence = event.sequence := by
  unfold gateOf
  split <;> exact ⟨rfl, rfl⟩

/-- The gate of a snapshot that has been read. -/
theorem healthGateFromEvents_read (event : StoredEvent) {snapshot : HealthSnapshot}
    {payload : Mapping} (h : HealthSnapshot.fromMapping payload = .ok snapshot) :
    healthGateFromEvents (some (snapshot, event, payload)) [] = .ok (gateOf event payload) := by
  have hnew := HealthMonitor.new_eq_ok.mpr ⟨consistent_of_fromMapping h, rfl⟩
  simp only [healthGateFromEvents, Except.bind_eq_ok, Except.pure_eq_ok, gateOf, h]
  exact ⟨_, hnew, rfl⟩

/-- One health event after another: the loop goes on where it stood. -/
theorem healthGateFromEvents_snoc {latest : Option (HealthSnapshot × StoredEvent × Mapping)}
    {events : List (StoredEvent × Mapping)} {gate : HealthGate} {event : StoredEvent}
    {payload : Mapping} (hpayload : payload ≠ [])
    (hlatest : ∀ x ∈ latest, HealthSnapshot.fromMapping x.2.2 = .ok x.1)
    (h : healthGateFromEvents latest events = .ok gate) :
    healthGateFromEvents latest (events ++ [(event, payload)]) = .ok (gate.next event payload) := by
  induction events generalizing latest with
  | nil =>
    have hactive : gate.action ≠ none := by
      cases latest with
      | none =>
        cases h
        exact Option.some_ne_none _
      | some x =>
        have hread := healthGateFromEvents_read x.2.1 (hlatest x rfl)
        cases h.symm.trans hread
        simp [gateOf, hlatest x rfl]
    rw [HealthGate.next, if_neg hactive]
    simp only [List.nil_append, healthGateFromEvents, Except.bind_eq_ok, reject_eq_ok]
    refine ⟨⟨⟩, hpayload, ?_⟩
    cases hparse : HealthSnapshot.fromMapping payload with
    | error _ => simp [gateOf, hparse, pure, Except.pure]
    | ok snapshot =>
      have hread := healthGateFromEvents_read event hparse
      simpa [healthGateFromEvents] using hread
  | cons first events ih =>
    simp only [List.cons_append, healthGateFromEvents, Except.bind_eq_ok, reject_eq_ok] at h ⊢
    obtain ⟨_, hfirst, h⟩ := h
    refine ⟨⟨⟩, hfirst, ?_⟩
    cases hparse : HealthSnapshot.fromMapping first.2 with
    | error _ =>
      simp only [hparse, Except.pure_eq_ok] at h
      subst h
      rfl
    | ok snapshot =>
      simp only [hparse] at h
      refine ih ?_ h
      rintro x hx
      cases hx
      exact hparse

/-- The health events of a longer log are those of its parts. -/
theorem healthEvents_append (before after : List StoredEvent) :
    healthEvents (before ++ after) = healthEvents before ++ healthEvents after :=
  List.filterMap_append

/-- An event of another type is no health event. -/
theorem healthEvents_other {event : StoredEvent}
    (h : ∀ payload, event.payload ≠ .healthState payload) :
    healthEvents [event] = [] := by
  rw [healthEvents, List.filterMap_cons_none, List.filterMap_nil]
  split
  · rename_i payload hpayload
    exact absurd hpayload (h payload)
  · rfl

/-- A health event has one payload. -/
theorem healthEvents_health {event : StoredEvent} {payload : Mapping}
    (h : event.payload = .healthState payload) : healthEvents [event] = [(event, payload)] := by
  simp [healthEvents, h]

/-- A chain that is accepted is what the loop over the log comes to. -/
theorem chain_folded {snapshot : PaperSnapshot} {chain : RiskChain}
    (h : validateHealthAndRiskChain snapshot = .ok chain) :
    snapshot.eventEvidence.foldlM chainRound {} = .ok chain := by
  simp only [validateHealthAndRiskChain, Except.bind_eq_ok] at h
  obtain ⟨_, -, folded, hfolded, h⟩ := h
  split at h <;> simp only [Except.bind_eq_ok, Except.pure_eq_ok] at h
  · obtain ⟨_, -, rfl⟩ := h
    exact hfolded
  · obtain ⟨_, -, _, -, rfl⟩ := h
    exact hfolded

end AutoBit.Service
