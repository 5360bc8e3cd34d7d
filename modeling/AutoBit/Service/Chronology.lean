import AutoBit.Broker.Operations
import Mathlib.Data.List.Sort

/-!
# The chronology of cycles

A cycle leaves an attempt before its first mutation and a completion after its last. Both
are read back before anything else is done: completions must form one contiguous chain of
four-hour ends, and at most one attempt may be unfinished, that of the end after the chain.
-/

namespace AutoBit.Service

open Library Store Broker

/-- `_require_cycle_end`. -/
def requireCycleEnd (value : ℤ) : Except Failure Unit :=
  reject (¬IsBoundary value) (.value "end_utc must be an exact four-hour UTC boundary")

/-- `PaperBroker.order`, for an order that evidence names. -/
def evidencedOrder (db : Database) (id : PaperId) (missing : String) : Except Failure PaperOrder :=
  (orderById db id).mapError fun failure => match failure with
    | .value _ => .corruption missing
    | failure => failure

/-- The checks of `_validate_cycle_event` on one created order. -/
def validateCreated (db : Database) (log : List StoredEvent) (sequence : ℕ) (barAt : ℤ)
    (id : PaperId) : Except Failure Unit := do
  let metadata := (view readOrderMetadata log).filter fun candidate =>
    candidate.body.orderId = id ∧ candidate.sequence < sequence
  reject (metadata.length ≠ 1)
    (.corruption "cycle created order lacks prior paper order evidence")
  let order ← evidencedOrder db id "cycle created order does not exist"
  reject (order.orderKind ≠ .market ∨ order.parentOrderId ≠ none)
    (.corruption "cycle created order kind is invalid")
  reject (order.signalAtUtc ≠ barAt)
    (.corruption "cycle created order does not belong to its signal bar")

/-- The checks of `_validate_cycle_event` on one filled order. -/
def validateFilled (db : Database) (log : List StoredEvent) (account : Ledger) (sequence : ℕ)
    (barAt : ℤ) (id : PaperId) : Except Failure Unit := do
  let metadata := (view readFillMetadata log).filter fun candidate =>
    candidate.body.orderId = id ∧ candidate.occurredAtUtc = barAt ∧ candidate.sequence < sequence
  let matchingFills := account.fills.filter fun fill => fill.orderId = id ∧ fill.fillTime = barAt
  reject (metadata.length ≠ 1 ∨ matchingFills.length ≠ 1)
    (.corruption "cycle filled order lacks broker fill evidence for its fill bar")
  let order ← evidencedOrder db id "cycle filled order does not exist"
  reject (order.orderKind = .stop ∧ order.side ≠ .sell)
    (.corruption "cycle stop fill side is invalid")

/-- The checks of `_validate_cycle_event` on the payload. The reconciliation of a caller, if
it has one, is that of the same database. -/
def validateCompletion (db : Database) (log : List StoredEvent) (sequence : ℕ) (end_ : ℤ)
    (completion : CycleCompletion) : Except Failure Unit := do
  let created := completion.createdOrderIds
  let filled := completion.filledOrderIds
  reject (completion.endUtc ≠ end_) (.corruption "cycle completion payload is inconsistent")
  reject (completion.status ≠ .processed ∧ completion.status ≠ .unsafeData)
    (.corruption "cycle completion status is invalid")
  reject (.external "" ∈ created ∨ .external "" ∈ filled ∨ "" ∈ completion.reasonCodes)
    (.corruption "cycle completion list evidence is invalid")
  reject (¬(created.Nodup ∧ filled.Nodup))
    (.corruption "cycle mutation identities must be unique")
  reject (completion.status = .unsafeData ∧ ¬(created = [] ∧ filled = []))
    (.corruption "unsafe cycle cannot claim mutation identities")
  let account ← buildLedger db
  forM created (validateCreated db log sequence (end_ - fourHours))
  forM filled (validateFilled db log account sequence (end_ - fourHours))

/-- `_validate_cycle_event`. -/
def validateCycleEvent (db : Database) (log : List StoredEvent) (event : StoredEvent)
    (end_ : ℤ) : Except Failure Unit := do
  reject (event.payload.eventType ≠ "PAPER_CYCLE" ∨ event.occurredAtUtc ≠ end_)
    (.corruption "cycle completion evidence is inconsistent")
  match event.payload with
  | .paperCycle completion => validateCompletion db log event.sequence end_ completion
  | _ => .error (.corruption "cycle completion payload is inconsistent")

/-- `_has_completed_cycle`. -/
def hasCompletedCycle (db : Database) (log : List StoredEvent) (end_ : ℤ) : Except Failure Bool :=
  match log.filter fun event => event.eventId = .cycle end_ with
  | [] => .ok false
  | [event] => do
    validateCycleEvent db log event end_
    return true
  | _ => .error (.corruption "cycle completion identity is duplicated")

/-! ## Completions -/

/-- `event_id.startswith("cycle:")`. -/
def namesCycle : EventId → Bool
  | .cycle _ => true
  | .fillRecovery base _ => namesCycle base || base = .external "cycle"
  | .external text => "cycle:".toList.isPrefixOf text.toList
  | _ => false

/-- Whether `_completed_cycle_ends` looks at an event. -/
def concernsCycle (event : StoredEvent) : Bool :=
  event.payload.eventType = "PAPER_CYCLE" ∨ namesCycle event.eventId

/-- One round of the loop of `_completed_cycle_ends`. -/
def completedRound (db : Database) (log : List StoredEvent) (latestMatured : ℤ)
    (completed : List ℤ) (event : StoredEvent) : Except Failure (List ℤ) :=
  if concernsCycle event = false then .ok completed
  else do
    let end_ := event.occurredAtUtc
    reject (¬IsBoundary end_) (.corruption "cycle completion boundary is invalid")
    reject (event.eventId ≠ .cycle end_) (.corruption "cycle completion identity is inconsistent")
    reject (latestMatured < end_)
      (.corruption "cycle completion is later than latest matured end")
    validateCycleEvent db log event end_
    reject (end_ ∈ completed) (.corruption "cycle completion boundary is duplicated")
    return completed ++ [end_]

/-- `sorted` on instants. -/
def sortedInstants (instants : List ℤ) : List ℤ := instants.insertionSort (· ≤ ·)

/-- Whether each instant of a list is four hours after the one before it. -/
def contiguousEnds (ordered : List ℤ) : Bool :=
  (ordered.zip ordered.tail).all fun pair => pair.2 - pair.1 = fourHours

/-- `_completed_cycle_ends`. -/
def completedCycleEnds (db : Database) (log : List StoredEvent) (latestMatured : ℤ) :
    Except Failure (List ℤ) := do
  let completed ← log.foldlM (completedRound db log latestMatured) []
  reject (contiguousEnds (sortedInstants completed) = false)
    (.corruption "cycle completion chronology is not contiguous")
  return completed

/-- `_first_uncompleted_after_cycle_chain`. -/
def firstUncompletedAfterCycleChain (completed : List ℤ) : Except Failure ℤ := do
  let last ← require (sortedInstants completed).getLast?
    (.value "completed cycle chain cannot be empty")
  return last + fourHours

/-! ## Attempts -/

/-- `_CYCLE_ATTEMPT_VERSION`. -/
def cycleAttemptVersion : ℤ := 1

/-- `event_id.startswith("paper-cycle-attempt:")`. -/
def namesAttempt : EventId → Bool
  | .cycleAttempt _ => true
  | .fillRecovery base _ => namesAttempt base || base = .external "paper-cycle-attempt"
  | .external text => "paper-cycle-attempt:".toList.isPrefixOf text.toList
  | _ => false

/-- The attempts met so far, by target, with their sequence numbers. -/
abbrev Attempts := List (ℤ × ℕ)

/-- The part of the first loop of `_validated_cycle_attempts` for an attempt. -/
def attemptRound (latestMatured : ℤ) (attempts : Attempts) (event : StoredEvent) :
    Except Failure Attempts :=
  match event.payload with
  | .paperCycleAttempt attempt => do
    let target := attempt.endUtc
    reject (attempt.version ≠ cycleAttemptVersion)
      (.corruption "cycle attempt payload is invalid")
    reject (¬IsBoundary target) (.corruption "cycle attempt target is invalid")
    reject (event.eventId ≠ .cycleAttempt target)
      (.corruption "cycle attempt identity is inconsistent")
    reject (event.occurredAtUtc ≠ target - fourHours)
      (.corruption "cycle attempt envelope is inconsistent")
    reject (latestMatured < target) (.corruption "cycle attempt target is not yet mature")
    reject (target ∈ attempts.map Prod.fst) (.corruption "cycle attempt target is duplicated")
    return attempts ++ [(target, event.sequence)]
  | payload => do
    reject (payload.eventType = "PAPER_CYCLE_ATTEMPT")
      (.corruption "cycle attempt payload is invalid")
    reject (namesAttempt event.eventId = true)
      (.corruption "cycle attempt identity has the wrong event type")
    return attempts

/-- `cycle_events.get(target)`: the last completion at an instant. -/
def terminalCycle (log : List StoredEvent) (target : ℤ) : Option StoredEvent :=
  (log.filter fun event => event.payload.eventType = "PAPER_CYCLE" ∧
    event.occurredAtUtc = target).getLast?

/-- `sorted(set(attempts) - completed)`. -/
def unfinishedTargets (attempted completed : List ℤ) : List ℤ :=
  sortedInstants (attempted.filter (· ∉ completed))

/-- `_validated_cycle_attempts`. -/
def validatedCycleAttempts (log : List StoredEvent) (completed : List ℤ) (latestMatured : ℤ) :
    Except Failure (List ℤ) := do
  requireCycleEnd latestMatured
  let attempts ← log.foldlM (attemptRound latestMatured) []
  let attempted := attempts.map Prod.fst
  reject (∃ attempt ∈ attempts, attempt.1 ∈ completed ∧
      ¬∃ terminal ∈ terminalCycle log attempt.1, attempt.2 < terminal.sequence)
    (.corruption "cycle attempt is not prior to its terminal cycle")
  let unfinished := unfinishedTargets attempted completed
  reject (1 < unfinished.length)
    (.corruption "cycle attempts contain multiple unfinished targets")
  match unfinished.head? with
  | some first =>
    if completed ≠ [] then do
      let expected ← firstUncompletedAfterCycleChain completed
      reject (first ≠ expected) (.corruption "cycle attempt contradicts completed chronology")
      return attempted
    else return attempted
  | none => return attempted

/-- `_require_attempt_target`. -/
def requireAttemptTarget (requested : ℤ) (attempted completed : List ℤ) : Except Failure Unit :=
  reject (∃ first ∈ (unfinishedTargets attempted completed).head?, requested ≠ first)
    (.service "requested cycle skips the durable cycle attempt")

end AutoBit.Service
