import AutoBit.Service.Resolution
import AutoBit.Service.Scheduler
import AutoBit.Service.Working

/-!
# The cycles of a scheduler

A scheduler resolves its first end from the store, calls the service for it, and goes on by
the result. The process may stop wherever a cycle may, and start again without its cursor,
and its clock may go back. The completed cycles stay one unbroken row, with at most one more
attempted after it, and the cursor never leaves the row and the end that is due.
-/

namespace AutoBit.Service

open Library Store Broker Scheduler

/-! ## What is resolved -/

section Resolved

variable {db : Database} {completed : List ℤ} {current : Option ℤ} {end_ latest : ℤ}

/-- The required end is due. -/
theorem Timely.due (h : Timely completed current latest) :
    Due completed current (requiredEnd completed current latest) := by
  constructor
  · by_cases hsome : attemptedEnds completed current = []
    · obtain ⟨rfl, -⟩ := List.append_eq_nil_iff.mp hsome
      simp
    · exact (h.required_fresh hsome).1
  · intro due hdue
    cases current with
    | some open_ =>
      obtain rfl := Option.some.inj hdue
      rfl
    | none =>
      rw [Option.none_or] at hdue
      rw [requiredEnd, Option.getD_none, Option.mem_def.mp hdue, Option.getD_some]

/-- A log whose attempts are mature is timely. -/
theorem Chronicle.timely (h : Chronicle db.events completed current) (hlatest : IsBoundary latest)
    (hmature : ∀ end_ ∈ attemptedEnds completed current, end_ ≤ latest) :
    Timely completed current latest :=
  ⟨h.ends.1, h.ends.2, hlatest, hmature⟩

/-- What the service resolves is the end that its chronicle requires. -/
theorem Chronicle.required_of_resolved (h : Chronicle db.events completed current)
    (hguarded : Guarded db) (hresolved : Service.oldestRequiredEnd db latest = .ok end_) :
    Timely completed current latest ∧ end_ = requiredEnd completed current latest := by
  obtain ⟨a, hanchored, -⟩ := hguarded
  have hparts := hresolved
  simp only [Service.oldestRequiredEnd, Except.bind_eq_ok, requireCycleEnd, reject_eq_ok, not_not]
    at hparts
  obtain ⟨_, hlatest, snapshot, hsnapshot, chain, hchain, _, halerts, _, -, _, -, _, hattempts, -⟩ :=
    hparts
  have hlog : snapshot.eventEvidence = db.events := by
    obtain ⟨s, -, -, rfl⟩ := replayAndVerify_eq_ok.mp hsnapshot
    rfl
  rw [hlog] at halerts hattempts
  simp only [Service.validatedCycleAttempts, Except.bind_eq_ok] at hattempts
  obtain ⟨_, -, attempts, hrounds, -⟩ := hattempts
  have htimely := h.timely hlatest (h.mature hrounds)
  have hrequired := h.oldestRequiredEnd hanchored.sound htimely hsnapshot hchain halerts
  exact ⟨htimely, Except.ok.inj (hresolved.symm.trans hrequired)⟩

/-- An end that is completed has its completion. -/
theorem Chronicle.completes {log : List StoredEvent} (h : Chronicle log completed current)
    (hend : end_ ∈ completed) : Completes log end_ := by
  have hkept : ∀ {log : List StoredEvent} {e : StoredEvent}, Completes log end_ →
      Completes (log ++ [e]) end_ := by
    rintro log e ⟨completion, hcompletion, hsame⟩
    exact ⟨completion, by rw [view_append]; exact List.mem_append_left _ hcompletion, hsame⟩
  induction h with
  | start => cases hend
  | operational _ _ ih => exact hkept (ih hend)
  | attempt _ _ _ _ ih => exact hkept (ih hend)
  | bar _ _ ih => exact hkept (ih hend)
  | @complete log completed end' e completion _ _ hcompletion ih =>
    rcases List.mem_append.mp hend with hold | hnew
    · exact hkept (ih hold)
    · obtain rfl := List.mem_singleton.mp hnew
      refine ⟨⟨e.sequence, e.eventId, e.occurredAtUtc, completion⟩, ?_, hcompletion.ends⟩
      rw [view_append]
      refine List.mem_append_right _ (mem_view.mpr ⟨e, by simp, ?_⟩)
      rw [hcompletion.payload]
      exact ⟨rfl, rfl, rfl, rfl⟩

end Resolved

/-! ## The cursor -/

/-- Where the cursor of a scheduler may be: at a completed end, or at the end that is due. -/
def InOrder (completed : List ℤ) (current : Option ℤ) (end_ : ℤ) : Prop :=
  end_ ∈ completed ∨ Due completed current end_

section Cursors

variable {completed : List ℤ} {current : Option ℤ} {end_ : ℤ}

/-- The end after the last completed one is due. -/
theorem due_next (hspaced : Spaced fourHours completed) (hlast : completed.getLast? = some end_) :
    Due completed none (end_ + fourHours) := by
  constructor
  · intro hmem
    have hle := hspaced.le_last fourHours_pos hlast hmem
    have hpos := fourHours_pos
    omega
  · intro due hdue
    rw [Option.none_or, hlast] at hdue
    exact Option.some.inj hdue

/-- A scheduler that goes on from a completed end stays in order. -/
theorem inOrder_next (hspaced : Spaced fourHours (attemptedEnds completed current))
    (hend : end_ ∈ completed) : InOrder completed current (end_ + fourHours) := by
  cases current with
  | none =>
    rw [attemptedEnds_none] at hspaced
    rcases hspaced.succ_mem hend with hlast | hnext
    · exact Or.inr (due_next hspaced hlast)
    · exact Or.inl hnext
  | some open_ =>
    obtain ⟨hfresh, hopen⟩ := current_fresh hspaced rfl
    have hdue : Due completed (some open_) open_ :=
      ⟨hfresh, fun _ hdue => Option.some.inj hdue⟩
    rcases hspaced.left.succ_mem hend with hlast | hnext
    · rw [← hopen end_ hlast]
      exact Or.inr hdue
    · exact Or.inl hnext

/-- The end that is due stays due, when it is attempted and not completed. -/
theorem Due.attempted (h : Due completed current end_) : Due completed (some end_) end_ :=
  ⟨h.1, fun _ hdue => Option.some.inj hdue⟩

end Cursors

/-! ## Runs -/

/-- A process and its store: the cursor of its scheduler, and the latest time that a cycle has
read off the clock. -/
structure Situation where
  db : Database
  nextEnd : Option ℤ
  clock : ℤ

/-- `CycleStatus` as text. -/
def statusText : CycleStatus → String
  | .processed => "PROCESSED"
  | .alreadyProcessed => "ALREADY_PROCESSED"
  | .leaseHeld => "LEASE_HELD"
  | .unsafeData => "UNSAFE_DATA"

/-- What the scheduler sees of a call. -/
def serviceResult (result : Except Failure Outcome) : ServiceResult :=
  result.map fun outcome => some (statusText outcome.result.status)

section Runs

variable {Cell : Type} [DecidableEq Cell]

/-- A step of a process: it starts again, another process records an event, or the scheduler
makes a turn, with or without a call. -/
inductive ScheduledStep (Cell : Type) [DecidableEq Cell] (config : Config) :
    Situation → Situation → Prop
  | restart (s : Situation) : ScheduledStep Cell config s { s with nextEnd := none }
  | recorded {s : Situation} {db : Database} (event : SourceEvent)
      (happend : appendEvent s.db event.eventId event.occurredAt event.payload = .ok db) :
      ScheduledStep Cell config s { s with db }
  | quiet {s : Situation} {attempt : Attempt} {turn : Turn}
      (hturn : runOnce config s.nextEnd attempt = some turn)
      (hresolver : attempt.resolver = oldestRequiredEnd s.db) (hquiet : turn.call = none) :
      ScheduledStep Cell config s { s with nextEnd := turn.nextEnd }
  | called {s : Situation} {attempt : Attempt} {turn : Turn} {call : Scheduler.Call}
      {c : ServiceConfig Cell} {chances : Chances Cell}
      (hturn : runOnce config s.nextEnd attempt = some turn)
      (hresolver : attempt.resolver = oldestRequiredEnd s.db) (hcall : turn.call = some call)
      (hrates : ValidRates c.brokerCosts)
      (hresult : call.result =
        serviceResult (execute (processCompletedCandle c chances call.end_) s.db).1) :
      ScheduledStep Cell config s
        ⟨(execute (processCompletedCandle c chances call.end_) s.db).2, turn.nextEnd,
          max s.clock chances.now⟩

/-- The cycles of a situation are in order. -/
structure CyclesInOrder (completed : List ℤ) (current : Option ℤ) (s : Situation) : Prop where
  chronicle : Chronicle s.db.events completed current
  guarded : Guarded s.db
  cursor : ∀ end_ ∈ s.nextEnd, InOrder completed current end_
  mature : ∀ end_ ∈ attemptedEnds completed current, end_ + maturityDelay ≤ s.clock

variable {config : Config} {s s' : Situation} {completed : List ℤ} {current : Option ℤ} {end_ : ℤ}

/-- The end that a turn works on is in order. -/
theorem CyclesInOrder.working (h : CyclesInOrder completed current s) {attempt : Attempt}
    (hresolver : attempt.resolver = oldestRequiredEnd s.db)
    (hworking : workingEnd s.nextEnd attempt = some end_) : InOrder completed current end_ := by
  cases hcursor : s.nextEnd with
  | some cursor =>
    rw [hcursor] at hworking
    obtain rfl := Option.some.inj hworking
    exact h.cursor _ hcursor
  | none =>
    rw [hcursor] at hworking
    have hresolves : resolves attempt = some end_ := hworking
    unfold resolves at hresolves
    split at hresolves
    · have hresolved := Except.toOption_eq_some.mp hresolves
      simp only [resolveEnd, resolvedEnd, Except.bind_eq_ok, reject_eq_ok, Except.pure_eq_ok,
        hresolver] at hresolved
      obtain ⟨latest, -, required, hrequired, _, -, rfl⟩ := hresolved
      obtain ⟨htimely, rfl⟩ := h.chronicle.required_of_resolved h.guarded hrequired
      exact Or.inr htimely.due
    · cases hresolves

/-- A call that comes too early raises and changes nothing. -/
theorem raises_of_early (c : ServiceConfig Cell) (db : Database) {chances : Chances Cell}
    (hearly : chances.now < end_ + maturityDelay) :
    ∃ e, execute (processCompletedCandle c chances end_) db = (.error e, db) := by
  simp only [processCompletedCandle, execute_bind, execute_lift, reject, if_pos hearly]
  cases requireCycleEnd end_ with
  | error e => exact ⟨e, rfl⟩
  | ok => exact ⟨_, rfl⟩

/-- The attempts stay mature when a mature end is completed. -/
theorem mature_snoc (h : ∀ end_ ∈ attemptedEnds completed current, end_ + maturityDelay ≤ s.clock)
    {now : ℤ} (hnow : end_ + maturityDelay ≤ now) :
    ∀ other ∈ completed ++ [end_], other + maturityDelay ≤ max s.clock now := by
  intro other hother
  rcases List.mem_append.mp hother with hold | hnew
  · exact le_max_of_le_left (h other (List.mem_append_left _ hold))
  · rw [List.mem_singleton.mp hnew]
    exact le_max_of_le_right hnow

/-- A call that fails is still pending. -/
theorem stillPending_error (e : Failure) : StillPending (serviceResult (.error e)) :=
  Or.inl ⟨e, rfl⟩

/-- A call that returns is still pending when the lease is held. -/
theorem stillPending_ok {outcome : Outcome} :
    StillPending (serviceResult (.ok outcome)) ↔ outcome.result.status = .leaseHeld := by
  rcases outcome with ⟨⟨status⟩, -⟩
  cases status <;> simp [StillPending, serviceResult, Except.map, statusText]

/-- A call keeps the cycles in order, and moves the cursor along them. -/
theorem CyclesInOrder.called {c : ServiceConfig Cell} {chances : Chances Cell} {call : Scheduler.Call}
    (h : CyclesInOrder completed current s) (horder : InOrder completed current call.end_)
    (hrates : ValidRates c.brokerCosts)
    (hresult : call.result =
      serviceResult (execute (processCompletedCandle c chances call.end_) s.db).1) :
    ∃ completed' current', completed <+: completed' ∧ CyclesInOrder completed' current'
      ⟨(execute (processCompletedCandle c chances call.end_) s.db).2, some call.following,
        max s.clock chances.now⟩ := by
  have hlater : ∀ end_ ∈ attemptedEnds completed current,
      end_ + maturityDelay ≤ max s.clock chances.now :=
    fun end_ hend => le_max_of_le_left (h.mature end_ hend)
  rcases horder with hdone | hdue
  · -- a completed end is passed, or called again
    rw [unchanged_of_completes (h.chronicle.completes hdone)]
    refine ⟨completed, current, List.prefix_rfl, h.chronicle, h.guarded, fun end_ hend => ?_, hlater⟩
    obtain rfl := Option.some.inj hend
    unfold Call.following
    split
    · exact Or.inl hdone
    · exact inOrder_next h.chronicle.ends.1 hdone
  · rcases lt_or_ge chances.now (call.end_ + maturityDelay) with hearly | hmature
    · obtain ⟨e, hraised⟩ := raises_of_early c s.db hearly
      rw [hraised] at hresult ⊢
      refine ⟨completed, current, List.prefix_rfl, h.chronicle, h.guarded, fun end_ hend => ?_, hlater⟩
      obtain rfl := Option.some.inj hend
      rw [Call.following, hresult, if_pos (stillPending_error e)]
      exact Or.inr hdue
    · have hunfinished : ∀ {db : Database}, Unfinished completed current call.end_ db →
          StillPending call.result → ∃ completed' current', completed <+: completed' ∧
            CyclesInOrder completed' current' ⟨db, some call.following, max s.clock chances.now⟩ := by
        intro db hleft hpending
        rw [Call.following, if_pos hpending]
        rcases hleft.chronicle with hchronicle | hchronicle
        · refine ⟨completed, current, List.prefix_rfl, hchronicle, hleft.guarded, ?_, hlater⟩
          rintro _ ⟨⟩
          exact Or.inr hdue
        · refine ⟨completed, some call.end_, List.prefix_rfl, hchronicle, hleft.guarded, ?_,
            mature_snoc h.mature hmature⟩
          rintro _ ⟨⟩
          exact Or.inr hdue.attempted
      have htriple : Triple _ (processCompletedCandle c chances call.end_) _ _ :=
        processCompletedCandle_concluded hrates hdue
      have hcall := htriple s.db ⟨h.guarded, h.chronicle⟩
      rcases hreturned : execute (processCompletedCandle c chances call.end_) s.db with
        ⟨e | outcome, db'⟩
      · rw [hreturned] at hresult
        exact hunfinished (hcall.2 e db' hreturned) (hresult ▸ stillPending_error e)
      · rw [hreturned] at hresult
        rcases hcall.1 outcome db' hreturned with ⟨hheld, hleft⟩ | ⟨htaken, hclosed⟩
        · exact hunfinished hleft (hresult ▸ stillPending_ok.mpr hheld)
        · rw [Call.following, hresult, if_neg fun hpending => htaken (stillPending_ok.mp hpending)]
          refine ⟨completed ++ [call.end_], none, List.prefix_append _ _, hclosed.chronicle,
            hclosed.guarded, ?_, by simpa [attemptedEnds] using mature_snoc h.mature hmature⟩
          rintro _ ⟨⟩
          have hspaced := hclosed.chronicle.ends.1
          rw [attemptedEnds_none] at hspaced
          exact Or.inr (due_next hspaced (by simp))

/-- Every step keeps the cycles in order, and loses none that is completed. -/
theorem CyclesInOrder.step (h : CyclesInOrder completed current s)
    (hstep : ScheduledStep Cell config s s') :
    ∃ completed' current', completed <+: completed' ∧ CyclesInOrder completed' current' s' := by
  cases hstep with
  | restart =>
    refine ⟨completed, current, List.prefix_rfl, h.chronicle, h.guarded, ?_, h.mature⟩
    intro end_ hend
    cases hend
  | recorded event happend =>
    refine ⟨completed, current, List.prefix_rfl, ?_, ?_, h.cursor, h.mature⟩
    · rw [(appendEvent_appended happend).events]
      exact .operational h.chronicle event.operational
    · exact h.guarded.record
        (isForeign_of_isRecord (isRecord_of_isOperational event.operational)) happend
  | @quiet attempt turn hturn hresolver hquiet =>
    refine ⟨completed, current, List.prefix_rfl, h.chronicle, h.guarded, fun end_ hend => ?_, h.mature⟩
    rcases runOnce_spec hturn with ⟨-, hnext⟩ | ⟨call, hcall, -⟩
    · exact h.working hresolver (hnext.symm.trans hend)
    · cases hquiet.symm.trans hcall
  | @called attempt turn call c chances hturn hresolver hcall hrates hresult =>
    rcases runOnce_spec hturn with ⟨hquiet, -⟩ | ⟨call', hcall', hworking, -, hnext⟩
    · cases hquiet.symm.trans hcall
    · obtain rfl := Option.some.inj (hcall.symm.trans hcall')
      rw [hnext]
      exact h.called (h.working hresolver hworking) hrates hresult

/-- Every run of the scheduler keeps the cycles in order. -/
theorem CyclesInOrder.run (h : CyclesInOrder completed current s)
    (hrun : Relation.ReflTransGen (ScheduledStep Cell config) s s') :
    ∃ completed' current', completed <+: completed' ∧ CyclesInOrder completed' current' s' := by
  induction hrun with
  | refl => exact ⟨completed, current, List.prefix_rfl, h⟩
  | tail _ hstep ih =>
    obtain ⟨middle, open_, hprefix, hmiddle⟩ := ih
    obtain ⟨completed', current', hmore, hlast⟩ := hmiddle.step hstep
    exact ⟨completed', current', hprefix.trans hmore, hlast⟩

/-- A process that starts with an empty store. -/
def freshStart (clock : ℤ) : Situation := ⟨{}, none, clock⟩

/-- A new database has its cycles in order. -/
theorem cyclesInOrder_start (clock : ℤ) : CyclesInOrder [] none (freshStart clock) := by
  refine ⟨.start, guarded_empty, ?_, by simp [attemptedEnds]⟩
  intro end_ hend
  cases hend

/-! ## What the service reads -/

/-- What the service reads off a store at any later time: its completed ends and its attempts
in one row, and the end to go on with, if its evidence is accepted. -/
structure ReadsCycles (completed : List ℤ) (current : Option ℤ) (s : Situation) : Prop where
  completions : ∀ now, s.clock ≤ now →
    completedCycleEnds s.db s.db.events (latestCompletedEnd now) = .ok completed
  attempts : ∀ now, s.clock ≤ now → validatedCycleAttempts s.db.events completed
    (latestCompletedEnd now) = .ok (attemptedEnds completed current)
  row : Spaced fourHours (attemptedEnds completed current)
  cursor : ∀ end_ ∈ s.nextEnd, InOrder completed current end_
  resolved : ∀ now, s.clock ≤ now → ∀ evidence,
    cycleEvidence (latestCompletedEnd now) s.db = .ok evidence →
    oldestRequiredEnd s.db (latestCompletedEnd now) =
      .ok (requiredEnd completed current (latestCompletedEnd now))

/-- Cycles in order are read as they are. -/
theorem CyclesInOrder.reads (h : CyclesInOrder completed current s) :
    ReadsCycles completed current s := by
  have hmature : ∀ now, s.clock ≤ now →
      ∀ end_ ∈ attemptedEnds completed current, end_ ≤ latestCompletedEnd now := by
    intro now hnow end_ hend
    rw [le_latestCompletedEnd_iff (h.chronicle.ends.2 end_ hend)]
    exact (h.mature end_ hend).trans hnow
  obtain ⟨a, hanchored, -⟩ := h.guarded
  refine ⟨fun now hnow => ?_, fun now hnow => ?_, h.chronicle.ends.1, h.cursor, ?_⟩
  · exact h.chronicle.completedCycleEnds hanchored.sound fun end_ hend =>
      hmature now hnow end_ (List.mem_append_left _ hend)
  · exact h.chronicle.validatedCycleAttempts hanchored.sound (latestCompletedEnd_isBoundary now)
      (hmature now hnow)
  · intro now hnow evidence hevidence
    simp only [cycleEvidence, validatedSnapshot, Except.bind_eq_ok, Except.pure_eq_ok] at hevidence
    obtain ⟨_, ⟨snapshot, hsnapshot, chain, hchain, rfl⟩, _, halerts, -⟩ := hevidence
    have hlog : snapshot.eventEvidence = s.db.events := by
      obtain ⟨t, -, -, rfl⟩ := replayAndVerify_eq_ok.mp hsnapshot
      rfl
    rw [hlog] at halerts
    exact h.chronicle.oldestRequiredEnd hanchored.sound
      (h.chronicle.timely (latestCompletedEnd_isBoundary now) (hmature now hnow)) hsnapshot hchain
      halerts

/-- However often a process stops and starts again, its completed cycles are one unbroken row,
with at most one more attempted after it; no later step loses one, and the scheduler goes on
with the end that is due. -/
theorem cycles_unbroken {clock : ℤ}
    (hrun : Relation.ReflTransGen (ScheduledStep Cell config) (freshStart clock) s) :
    ∃ completed current, ReadsCycles completed current s ∧
      ∀ s', Relation.ReflTransGen (ScheduledStep Cell config) s s' →
        ∃ completed' current', completed <+: completed' ∧ ReadsCycles completed' current' s' := by
  obtain ⟨completed, current, -, horder⟩ := (cyclesInOrder_start clock).run hrun
  refine ⟨completed, current, horder.reads, fun s' hmore => ?_⟩
  obtain ⟨completed', current', hprefix, horder'⟩ := horder.run hmore
  exact ⟨completed', current', hprefix, horder'.reads⟩

/-- The turn of a scheduler that wakes up ten minutes after sixteen hours, and what it sees. -/
def breakoutAttempt (db : Database) (stop : Option CyclePoint) : Attempt where
  readings := [.ok (hours 16 + maturityDelay)]
  resolver := oldestRequiredEnd db
  result := serviceResult
    (execute (processCompletedCandle shortService (callAt (hours 16) stop breakoutBars) (hours 16)) db).1
  provided := none

/-- The store after the cycle that stops once its order is accepted. -/
def stoppedDatabase : Database :=
  (execute (processCompletedCandle shortService
    (callAt (hours 16) (some .afterOrder) breakoutBars) (hours 16)) {}).2

/-- A call that returns its result is a step of the scheduler. -/
theorem calledStep_of_any {s : Situation} {stop : Option CyclePoint} {following : ℤ}
    (h : (runOnce defaultConfig s.nextEnd (breakoutAttempt s.db stop)).any (fun turn =>
      turn.nextEnd = some following ∧ turn.call.any fun call => call.end_ = hours 16 ∧
        call.result = (breakoutAttempt s.db stop).result) = true) :
    ScheduledStep ℤ defaultConfig s
      ⟨(execute (processCompletedCandle shortService (callAt (hours 16) stop breakoutBars)
        (hours 16)) s.db).2, some following, max s.clock (hours 16 + maturityDelay)⟩ := by
  have hrates : ValidRates shortService.brokerCosts := by
    unfold ValidRates
    decide +kernel
  obtain ⟨turn, hturn, hmade⟩ := (Option.any_eq_true _ _).mp h
  obtain ⟨hnext, hcalled⟩ := of_decide_eq_true hmade
  obtain ⟨call, hcall, hmatch⟩ := (Option.any_eq_true _ _).mp hcalled
  obtain ⟨hend, hresult⟩ := of_decide_eq_true hmatch
  have hstep : ScheduledStep ℤ defaultConfig s ⟨(execute (processCompletedCandle shortService
      (callAt (hours 16) stop breakoutBars) call.end_) s.db).2, turn.nextEnd,
      max s.clock (hours 16 + maturityDelay)⟩ :=
    .called hturn rfl hcall hrates (by rw [hend]; exact hresult)
  rwa [hend, hnext] at hstep

/-- A process that stops once its order is accepted, and starts again, completes its cycle. -/
theorem cycles_unbroken_rerun : ∃ current s, s.db = rerunDatabase ∧
    ReadsCycles [hours 16] current s ∧ s.nextEnd = some (hours 20) := by
  have hfirst : ScheduledStep ℤ defaultConfig (freshStart 0)
      ⟨stoppedDatabase, some (hours 16), max 0 (hours 16 + maturityDelay)⟩ :=
    calledStep_of_any (by decide +kernel)
  have hsecond : ScheduledStep ℤ defaultConfig ⟨stoppedDatabase, none, max 0 (hours 16 + maturityDelay)⟩
      ⟨rerunDatabase, some (hours 20), max (max 0 (hours 16 + maturityDelay)) (hours 16 + maturityDelay)⟩ :=
    calledStep_of_any (by decide +kernel)
  have hrun : Relation.ReflTransGen (ScheduledStep ℤ defaultConfig) (freshStart 0) _ :=
    ((Relation.ReflTransGen.single hfirst).tail (.restart _)).tail hsecond
  obtain ⟨completed, current, hreads, -⟩ := cycles_unbroken hrun
  have hcompleted : completedCycleEnds rerunDatabase rerunDatabase.events
      (latestCompletedEnd (hours 17)) = .ok [hours 16] := by decide +kernel
  have hnow : max (max 0 (hours 16 + maturityDelay)) (hours 16 + maturityDelay) ≤ hours 17 := by
    decide
  obtain rfl := Except.ok.inj ((hreads.completions (hours 17) hnow).symm.trans hcompleted)
  exact ⟨current, _, rfl, hreads, rfl⟩

end Runs

end AutoBit.Service
