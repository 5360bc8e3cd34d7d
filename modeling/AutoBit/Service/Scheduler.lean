import AutoBit.Basic
import AutoBit.Library.Except
import Mathlib.Data.List.Chain
import Mathlib.Order.Bounds.Basic

/-!
# The order of the scheduled cycles

The scheduler sleeps to the maturity of its next candle, derives the work from the clock it
wakes up to, and moves its cursor only past a candle that the service has taken. Whatever
the clock reads and however the calls end, the candles come in order and none comes early.
-/

namespace AutoBit.Scheduler

open Library

/-! ## Instants in the range of `datetime` -/

/-- `datetime.min` in UTC. -/
def minInstant : ℤ := -62135596800000000

/-- `datetime.max` in UTC. -/
def maxInstant : ℤ := 253402300799999999

/-- The result of arithmetic on a `datetime`, which overflows outside its range. -/
def inRange (instant : ℤ) (message : String) : Except Failure ℤ :=
  if minInstant ≤ instant ∧ instant ≤ maxInstant then .ok instant else .error (.value message)

/-- An instant passes exactly when a datetime can hold it. -/
theorem inRange_eq_ok {instant result : ℤ} {message : String} :
    inRange instant message = .ok result ↔
      (minInstant ≤ instant ∧ instant ≤ maxInstant) ∧ instant = result := by
  unfold inRange
  split <;> simp_all

/-- The message of both boundary functions of the scheduler. -/
def outsideRange : String := "datetime is outside the supported scheduler range"

/-- `next_cycle_at`. -/
def nextCycleAt (now : ℤ) : Except Failure ℤ := do
  let eligible ← inRange (now - maturityDelay) outsideRange
  let floor ← inRange (floorFourHours eligible) outsideRange
  let latestSlot ← inRange (floor + maturityDelay) outsideRange
  if latestSlot ≤ now then inRange (latestSlot + fourHours) outsideRange else return latestSlot

/-- `latest_completed_end` of the scheduler: epoch slots. -/
def latestCompletedEnd (now : ℤ) : Except Failure ℤ := do
  let eligible ← inRange (now - maturityDelay) outsideRange
  inRange (floorFourHours eligible) outsideRange

/-- `datetime.hour` in UTC. -/
def hourOf (instant : ℤ) : ℤ := instant % hours 24 / hours 1

/-- `datetime.replace` of the hour, with all that is smaller set to zero. -/
def replaceHour (instant hour : ℤ) : ℤ := utcDate instant * hours 24 + hour * hours 1

/-- `_latest_matured_end` of the service: calendar fields. -/
def latestMaturedEnd (now : ℤ) : Except Failure ℤ := do
  let eligible ← inRange (now - maturityDelay) "clock is outside the supported cycle range"
  inRange (replaceHour eligible (hourOf eligible - hourOf eligible % 4))
    "clock is outside the supported cycle range"

/-- Epoch slots and calendar fields give the same boundary. -/
theorem replaceHour_eq_floor (instant : ℤ) :
    replaceHour instant (hourOf instant - hourOf instant % 4) = floorFourHours instant := by
  simp only [replaceHour, hourOf, utcDate, floorFourHours, fourHours_eq, hours]
  omega

/-- The two modules complete the same candle at every instant. -/
theorem latestCompletedEnd_iff_latestMaturedEnd (now end_ : ℤ) :
    latestCompletedEnd now = .ok end_ ↔ latestMaturedEnd now = .ok end_ := by
  simp only [latestCompletedEnd, latestMaturedEnd, Except.bind_eq_ok, inRange_eq_ok]
  constructor
  · rintro ⟨eligible, heligible, hfloor⟩
    exact ⟨eligible, heligible, by rwa [replaceHour_eq_floor]⟩
  · rintro ⟨eligible, heligible, hfloor⟩
    exact ⟨eligible, heligible, by rwa [replaceHour_eq_floor] at hfloor⟩

/-- The instants at which some candle is old enough to be processed. -/
def IsCycle (instant : ℤ) : Prop := IsBoundary (instant - maturityDelay)

/-- The next cycle of an instant is the least one after it; there is none when the maturity
delay goes back, or the cycle goes on, beyond the range. -/
theorem nextCycleAt_eq_ok {now cycle : ℤ} :
    nextCycleAt now = .ok cycle ↔ minInstant ≤ now - maturityDelay ∧
      IsLeast {instant | now < instant ∧ IsCycle instant} cycle ∧ cycle ≤ maxInstant := by
  have hnext : IsLeast {instant | now < instant ∧ IsCycle instant}
      (floorFourHours (now - maturityDelay) + maturityDelay + fourHours) := by
    refine ⟨⟨?_, ?_⟩, ?_⟩
    · simp only [floorFourHours, fourHours_eq, maturityDelay_eq]
      omega
    · simp only [IsCycle, IsBoundary, floorFourHours, fourHours_eq, maturityDelay_eq]
      omega
    · rintro instant ⟨hlater, hcycle⟩
      simp only [IsCycle, IsBoundary, floorFourHours, fourHours_eq, maturityDelay_eq] at hcycle ⊢
      omega
  have hslot : floorFourHours (now - maturityDelay) + maturityDelay ≤ now := by
    simp only [floorFourHours, fourHours_eq, maturityDelay_eq]
    omega
  simp only [nextCycleAt, Except.bind_eq_ok, inRange_eq_ok]
  constructor
  · rintro ⟨_, ⟨hmin, rfl⟩, _, ⟨-, rfl⟩, _, ⟨-, rfl⟩, hcycle⟩
    rw [if_pos hslot, inRange_eq_ok] at hcycle
    obtain ⟨hrange, rfl⟩ := hcycle
    exact ⟨hmin.1, hnext, hrange.2⟩
  · rintro ⟨hmin, hleast, hrange⟩
    have hfloor : minInstant ≤ floorFourHours (now - maturityDelay) := by
      simp only [minInstant, floorFourHours, fourHours_eq, maturityDelay_eq] at hmin ⊢
      omega
    have hlater : now < floorFourHours (now - maturityDelay) + maturityDelay + fourHours :=
      hnext.1.1
    obtain rfl := hnext.unique hleast
    refine ⟨_, ⟨?_, rfl⟩, _, ⟨?_, rfl⟩, _, ⟨?_, rfl⟩, ?_⟩
    · have hdelay := maturityDelay_eq
      omega
    · have hdelay := maturityDelay_eq
      have hwidth := fourHours_eq
      omega
    · have hdelay := maturityDelay_eq
      omega
    · have hdelay := maturityDelay_eq
      have hwidth := fourHours_eq
      rw [if_pos hslot, inRange_eq_ok]
      omega

/-! ## The scheduler -/

/-- What `process_completed_candle` did: it raised, or returned a result that has a status or
none. -/
abbrev ServiceResult := Except Failure (Option String)

/-- What `_process_pending` asks of a result: whether its candle is still pending. -/
def StillPending (result : ServiceResult) : Prop :=
  (∃ failure, result = .error failure) ∨ result = .ok (some "LEASE_HELD")

instance : DecidablePred StillPending
  | .error failure => isTrue (.inl ⟨failure, rfl⟩)
  | .ok status => decidable_of_iff (status = some "LEASE_HELD") (by simp [StillPending])

/-- A scheduler with its retry delays in seconds. -/
structure Config where
  retryDelaySeconds : ℚ
  hasProvider : Bool
  positive : 0 < retryDelaySeconds
  atMost : retryDelaySeconds ≤ 60

/-- What the world does during one `run_once`: the clock readings in order, each an instant or
what the clock or the sleep before it raised, the answer of `oldest_required_end` (the
identity when the service has none), the service result, and the number of seconds that the
retry delay provider gives, if it gives one. -/
structure Attempt where
  readings : List (Except Failure ℤ)
  resolver : ℤ → Except Failure ℤ
  result : ServiceResult
  provided : Option ℚ

/-- One call of `process_completed_candle`: its end, the clock reading before it, and its
result. -/
structure Call where
  end_ : ℤ
  wake : ℤ
  result : ServiceResult

/-- What one `run_once` leaves: the cursor, the call it made, the seconds it slept before it
returned or raised, and what it returned or raised. -/
structure Turn where
  nextEnd : Option ℤ
  call : Option Call
  retrySleep : Option ℚ
  result : ServiceResult

/-- `_current_retry_delay`, with the fallback of `_sleep_for_retry`. -/
def retryDelay (config : Config) (attempt : Attempt) : ℚ :=
  if config.hasProvider then
    match attempt.provided with
    | some delay => if 0 < delay ∧ delay ≤ 300 then delay else 300
    | none => 300
  else config.retryDelaySeconds

/-- `_resolved_end`. -/
def resolvedEnd (value : ℤ) : Except Failure ℤ := do
  reject (¬IsBoundary value) (.value "resolved end must be an exact four-hour UTC boundary")
  return value

/-- The cursor of a run, resolved when there is none yet. -/
def resolveEnd (nextEnd : Option ℤ) (attempt : Attempt) (wake : ℤ) : Except Failure ℤ :=
  match nextEnd with
  | some end_ => .ok end_
  | none => do
    let latestMatured ← latestCompletedEnd wake
    let required ← attempt.resolver latestMatured
    resolvedEnd required

/-- The waiting loop: it ends with the first reading that reaches the target, or with what is
raised before. There is no result while the readings have not got there. -/
def wait (target wake : ℤ) : List (Except Failure ℤ) → Option (Except Failure ℤ)
  | [] => if target ≤ wake then some (.ok wake) else none
  | reading :: rest =>
    if target ≤ wake then some (.ok wake)
    else
      match reading with
      | .error failure => some (.error failure)
      | .ok next => wait target next rest

/-- `_process_pending`. -/
def processPending (config : Config) (attempt : Attempt) (processEnd wake : ℤ) : Turn :=
  match inRange (processEnd + fourHours) "scheduler cursor is outside datetime range" with
  | .error failure =>
    ⟨some processEnd, none, some (retryDelay config attempt), .error failure⟩
  | .ok followingEnd =>
    let call : Call := ⟨processEnd, wake, attempt.result⟩
    if StillPending attempt.result then
      ⟨some processEnd, some call, some (retryDelay config attempt), attempt.result⟩
    else ⟨some followingEnd, some call, none, attempt.result⟩

/-- `run_once`. -/
def runOnce (config : Config) (nextEnd : Option ℤ) (attempt : Attempt) : Option Turn :=
  let raised (nextEnd : Option ℤ) (failure : Failure) : Option Turn :=
    some ⟨nextEnd, none, some (retryDelay config attempt), .error failure⟩
  match attempt.readings with
  | [] => none
  | .error failure :: _ => raised nextEnd failure
  | .ok actualWake :: rest =>
    match resolveEnd nextEnd attempt actualWake with
    | .error failure => raised nextEnd failure
    | .ok end_ =>
      match inRange (end_ + maturityDelay) "scheduler target is outside datetime range" with
      | .error failure => raised (some end_) failure
      | .ok target =>
        match wait target actualWake rest with
        | none => none
        | some (.error failure) => raised (some end_) failure
        | some (.ok wake) =>
          match latestCompletedEnd wake with
          | .error failure => raised (some end_) failure
          | .ok latest =>
            if latest < end_ then
              raised (some end_) (.service "scheduler target did not mature a completed candle")
            else some (processPending config attempt end_ wake)

/-- The calls of a run, one attempt after the other, up to one that is still waiting. -/
def calls (config : Config) : Option ℤ → List Attempt → List Call
  | _, [] => []
  | nextEnd, attempt :: attempts =>
    match runOnce config nextEnd attempt with
    | none => []
    | some turn => turn.call.toList ++ calls config turn.nextEnd attempts

/-- The waiting loop returns at or after its target. -/
theorem target_le_of_wait {target wake woken : ℤ} {readings : List (Except Failure ℤ)}
    (h : wait target wake readings = some (.ok woken)) : target ≤ woken := by
  induction readings generalizing wake with
  | nil =>
    simp only [wait] at h
    split at h
    · rename_i hreached
      obtain rfl := Except.ok.inj (Option.some.inj h)
      exact hreached
    · cases h
  | cons reading rest ih =>
    simp only [wait] at h
    split at h
    · rename_i hreached
      obtain rfl := Except.ok.inj (Option.some.inj h)
      exact hreached
    · cases reading with
      | error failure => cases h
      | ok next => exact ih h

/-- The end that an attempt resolves when there is no cursor yet. -/
def resolves (attempt : Attempt) : Option ℤ :=
  match attempt.readings with
  | .ok wake :: _ => (resolveEnd none attempt wake).toOption
  | _ => none

/-- The end that an attempt works on. -/
def workingEnd (nextEnd : Option ℤ) (attempt : Attempt) : Option ℤ :=
  nextEnd.or (resolves attempt)

/-- The cursor after a call: its end while it is still pending, and four hours later once it
is not. -/
def Call.following (call : Call) : ℤ :=
  if StillPending call.result then call.end_ else call.end_ + fourHours

/-- An attempt works on the end that it resolves. -/
theorem workingEnd_of_resolveEnd {nextEnd : Option ℤ} {attempt : Attempt} {wake end_ : ℤ}
    {rest : List (Except Failure ℤ)} (hreadings : attempt.readings = .ok wake :: rest)
    (h : resolveEnd nextEnd attempt wake = .ok end_) : workingEnd nextEnd attempt = some end_ := by
  cases nextEnd with
  | some cursor =>
    obtain rfl := Except.ok.inj h
    rfl
  | none => simp [workingEnd, resolves, hreadings, h, Except.toOption]

/-- An attempt that resolves no end works on the one before. -/
theorem workingEnd_of_error {nextEnd : Option ℤ} {attempt : Attempt} {wake : ℤ}
    {failure : Failure} {rest : List (Except Failure ℤ)}
    (hreadings : attempt.readings = .ok wake :: rest)
    (h : resolveEnd nextEnd attempt wake = .error failure) :
    workingEnd nextEnd attempt = nextEnd := by
  cases nextEnd with
  | some cursor => rfl
  | none => simp [workingEnd, resolves, hreadings, h, Except.toOption]

/-- A turn that calls the service moves the cursor by the result. -/
theorem processPending_spec (config : Config) (attempt : Attempt) (end_ wake : ℤ) :
    ((processPending config attempt end_ wake).call = none ∧
        (processPending config attempt end_ wake).nextEnd = some end_) ∨
      ∃ call, (processPending config attempt end_ wake).call = some call ∧ call.end_ = end_ ∧
        call.wake = wake ∧
        (processPending config attempt end_ wake).nextEnd = some call.following := by
  unfold processPending
  split
  · exact .inl ⟨rfl, rfl⟩
  · rename_i following hfollowing
    obtain ⟨-, rfl⟩ := inRange_eq_ok.mp hfollowing
    right
    dsimp only
    split
    · rename_i hpending
      exact ⟨_, rfl, rfl, rfl, by rw [Call.following, if_pos hpending]⟩
    · rename_i htaken
      exact ⟨_, rfl, rfl, rfl, by rw [Call.following, if_neg htaken]⟩

/-- What one turn does: it leaves the cursor at the end it worked on, or it makes one call
for this end, not before it is mature, and moves the cursor by its result. -/
theorem runOnce_spec {config : Config} {nextEnd : Option ℤ} {attempt : Attempt} {turn : Turn}
    (h : runOnce config nextEnd attempt = some turn) :
    (turn.call = none ∧ turn.nextEnd = workingEnd nextEnd attempt) ∨
      ∃ call, turn.call = some call ∧ workingEnd nextEnd attempt = some call.end_ ∧
        call.end_ + maturityDelay ≤ call.wake ∧ turn.nextEnd = some call.following := by
  unfold runOnce at h
  cases hreadings : attempt.readings with
  | nil =>
    rw [hreadings] at h
    cases h
  | cons reading rest =>
    cases reading with
    | error failure =>
      simp only [hreadings] at h
      obtain rfl := Option.some.inj h
      left
      cases nextEnd <;> simp [workingEnd, resolves, hreadings]
    | ok wake =>
      simp only [hreadings] at h
      cases hend : resolveEnd nextEnd attempt wake with
      | error failure =>
        simp only [hend] at h
        obtain rfl := Option.some.inj h
        exact .inl ⟨rfl, (workingEnd_of_error hreadings hend).symm⟩
      | ok end_ =>
        simp only [hend] at h
        rw [workingEnd_of_resolveEnd hreadings hend]
        split at h
        · obtain rfl := Option.some.inj h
          exact .inl ⟨rfl, rfl⟩
        · rename_i target htarget
          obtain ⟨-, rfl⟩ := inRange_eq_ok.mp htarget
          split at h
          · cases h
          · obtain rfl := Option.some.inj h
            exact .inl ⟨rfl, rfl⟩
          · rename_i woken hwoken
            have hmature := target_le_of_wait hwoken
            split at h
            · obtain rfl := Option.some.inj h
              exact .inl ⟨rfl, rfl⟩
            · split at h
              · obtain rfl := Option.some.inj h
                exact .inl ⟨rfl, rfl⟩
              · obtain rfl := Option.some.inj h
                rcases processPending_spec config attempt end_ woken with hnone | hcall
                · exact .inl hnone
                · obtain ⟨call, hcall, rfl, rfl, hnext⟩ := hcall
                  exact .inr ⟨call, hcall, rfl, hmature, hnext⟩

/-- The end that a run starts from: the cursor, or the first end that an attempt resolves. -/
def startEnd (nextEnd : Option ℤ) (attempts : List Attempt) : Option ℤ :=
  nextEnd.or (attempts.findSome? resolves)

/-- The end that attempts start with is that of the rest after the first. -/
theorem startEnd_cons (nextEnd : Option ℤ) (attempt : Attempt) (attempts : List Attempt) :
    startEnd nextEnd (attempt :: attempts) = startEnd (workingEnd nextEnd attempt) attempts := by
  cases nextEnd with
  | some cursor => rfl
  | none =>
    rw [startEnd, List.findSome?_cons]
    cases hresolves : resolves attempt <;> simp [startEnd, workingEnd, hresolves]

/-- The calls of a run start at its end, and each one follows the result of the one before. -/
theorem calls_ordered (config : Config) (nextEnd : Option ℤ) (attempts : List Attempt) :
    (∀ first ∈ (calls config nextEnd attempts).head?,
      startEnd nextEnd attempts = some first.end_) ∧
    (calls config nextEnd attempts).IsChain (fun call next => next.end_ = call.following) ∧
    ∀ call ∈ calls config nextEnd attempts, call.end_ + maturityDelay ≤ call.wake := by
  induction attempts generalizing nextEnd with
  | nil => simp [calls]
  | cons attempt attempts ih =>
    rw [calls]
    cases hturn : runOnce config nextEnd attempt with
    | none => simp
    | some turn =>
      obtain ⟨hhead, hchain, hmature⟩ := ih turn.nextEnd
      dsimp only
      rcases runOnce_spec hturn with ⟨hnone, hnext⟩ | ⟨call, hcall, hworking, hwake, hnext⟩
      · rw [hnone, Option.toList_none, List.nil_append]
        refine ⟨fun first hfirst => ?_, hchain, hmature⟩
        rw [startEnd_cons, ← hnext]
        exact hhead first hfirst
      · rw [hcall, Option.toList_some, List.singleton_append]
        refine ⟨fun first hfirst => ?_, ?_, ?_⟩
        · obtain rfl := Option.some.inj hfirst
          rw [startEnd_cons, hworking]
          rfl
        · refine hchain.cons fun second hsecond => ?_
          have hstart := hhead second hsecond
          rw [hnext] at hstart
          exact (Option.some.inj hstart).symm
        · rw [List.forall_mem_cons]
          exact ⟨hwake, hmature⟩

/-- The ends that the scheduler passes on start at the resolved end, stay while a call raises
or finds the lease held, and go on by four hours when it does not; none is passed before it
is mature. The two modules agree on what is mature, and the next cycle is the least one. -/
theorem scheduler_order (config : Config) (attempts : List Attempt) :
    (∀ first ∈ (calls config none attempts).head?,
      attempts.findSome? resolves = some first.end_) ∧
    (calls config none attempts).IsChain (fun call next =>
      next.end_ = if StillPending call.result then call.end_ else call.end_ + fourHours) ∧
    (∀ call ∈ calls config none attempts, call.end_ + maturityDelay ≤ call.wake) ∧
    (∀ now end_, latestCompletedEnd now = .ok end_ ↔ latestMaturedEnd now = .ok end_) ∧
    ∀ now cycle, nextCycleAt now = .ok cycle ↔ minInstant ≤ now - maturityDelay ∧
      IsLeast {instant | now < instant ∧ IsCycle instant} cycle ∧ cycle ≤ maxInstant := by
  obtain ⟨hhead, hchain, hmature⟩ := calls_ordered config none attempts
  exact ⟨hhead, hchain, hmature, latestCompletedEnd_iff_latestMaturedEnd,
    fun _ _ => nextCycleAt_eq_ok⟩

/-- One second between retries. -/
def defaultConfig : Config := ⟨1, false, by norm_num, by norm_num⟩

/-- A held lease, an exception after oversleeping a day, and a candle that is taken. -/
def troubledAttempts : List Attempt :=
  [⟨[.ok (hours 13)], .ok, .ok (some "LEASE_HELD"), none⟩,
    ⟨[.ok (hours 40)], .ok, .error (.service "candle is not available"), none⟩,
    ⟨[.ok (hours 40)], .ok, .ok (some "PROCESSED"), none⟩,
    ⟨[.ok (hours 40)], .ok, .ok (some "PROCESSED"), none⟩]

/-- The candle that is still pending is passed three times before the next one. -/
theorem scheduler_order_troubled :
    (calls defaultConfig none troubledAttempts).map Call.end_ =
        [hours 12, hours 12, hours 12, hours 16] ∧
      ∀ call ∈ calls defaultConfig none troubledAttempts,
        call.end_ + maturityDelay ≤ call.wake :=
  ⟨by decide +kernel, (scheduler_order defaultConfig troubledAttempts).2.2.1⟩

end AutoBit.Scheduler
