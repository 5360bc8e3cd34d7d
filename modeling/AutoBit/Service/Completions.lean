import AutoBit.Service.HeldEvidence
import AutoBit.Service.Listing

/-!
# Completions over runs

As long as every call finds its bar untouched, or its end completed, each completion lists
exactly what was done at its bar, and every fill of a processed cycle is checked. A call that
runs again after it stopped lists nothing of what it had done before.
-/

namespace AutoBit.Service

open Library Store Risk Data Strategy Broker

/-! ## Completed ends -/

section Completed

variable {db : Database} {log : List StoredEvent} {latest end_ : ℤ}

/-- A round keeps the completed ends and adds that of its event. -/
theorem completedRound_mem {completed completed' : List ℤ} {event : StoredEvent}
    (h : completedRound db log latest completed event = .ok completed') :
    (∀ done ∈ completed, done ∈ completed') ∧
      ∀ completion, readCycle event.payload = some completion → completion.endUtc ∈ completed' := by
  unfold completedRound at h
  split at h
  · rename_i hother
    cases h
    refine ⟨fun _ hdone => hdone, fun completion hread => ?_⟩
    cases hpayload : event.payload <;> rw [hpayload] at hread <;> cases hread
    simp [concernsCycle, hpayload, Payload.eventType] at hother
  · simp only [Except.bind_eq_ok, Except.pure_eq_ok] at h
    obtain ⟨_, -, _, -, _, -, _, hvalid, _, -, rfl⟩ := h
    refine ⟨fun _ hdone => List.mem_append_left _ hdone, fun completion hread => ?_⟩
    cases hpayload : event.payload <;> rw [hpayload] at hread <;> cases hread
    simp only [validateCycleEvent, hpayload, validateCompletion, Except.bind_eq_ok, reject_eq_ok,
      not_not] at hvalid
    obtain ⟨_, -, _, hend, -⟩ := hvalid
    rw [hend]
    exact List.mem_append_right _ (List.mem_singleton.mpr rfl)

/-- The completed ends are those of all completions. -/
theorem mem_completedCycleEnds {completed : List ℤ}
    (h : completedCycleEnds db log latest = .ok completed) (hcompletes : Completes log end_) :
    end_ ∈ completed := by
  simp only [completedCycleEnds, Except.bind_eq_ok, Except.pure_eq_ok] at h
  obtain ⟨found, hfound, _, -, rfl⟩ := h
  have hall : ∀ (events : List StoredEvent) (before found : List ℤ),
      events.foldlM (completedRound db log latest) before = .ok found →
      (∀ done ∈ before, done ∈ found) ∧ ∀ event ∈ events, ∀ completion,
        readCycle event.payload = some completion → completion.endUtc ∈ found := by
    intro events
    induction events with
    | nil =>
      intro before found h
      cases h
      exact ⟨fun _ hdone => hdone, by simp⟩
    | cons event events ih =>
      intro before found h
      rw [List.foldlM_cons, Except.bind_eq_ok] at h
      obtain ⟨middle, hround, hrest⟩ := h
      obtain ⟨hkeep, hnew⟩ := completedRound_mem hround
      obtain ⟨hkeepRest, hnewRest⟩ := ih middle found hrest
      refine ⟨fun done hdone => hkeepRest done (hkeep done hdone), ?_⟩
      intro other hother completion hread
      rcases List.mem_cons.mp hother with rfl | hlater
      · exact hkeepRest _ (hnew completion hread)
      · exact hnewRest other hlater completion hread
  obtain ⟨completion, hcompletion, rfl⟩ := hcompletes
  obtain ⟨event, hevent, hread, -⟩ := mem_view.mp hcompletion
  exact (hall log [] found hfound).2 event hevent _ hread

variable {Cell : Type} [DecidableEq Cell] {c : ServiceConfig Cell} {chances : Chances Cell}

/-- A call for a completed end changes nothing and processes nothing. -/
theorem processCompletedCandle_completed (hcompletes : Completes db.events end_) :
    Follows Eq (processCompletedCandle c chances end_)
      (fun outcome _ => outcome.result.status ≠ .processed) db := by
  refine Follows.read_bind (execute_lift _ _) rfl fun _ _ => ?_
  refine Follows.read_bind (execute_lift _ _) rfl fun _ _ => ?_
  refine Follows.read_bind (execute_readDatabase _ _) rfl fun evidence hevidence => ?_
  obtain ⟨completed, attempted⟩ := evidence
  simp only [cycleEvidence, validatedSnapshot, Except.bind_eq_ok, Except.pure_eq_ok,
    Prod.mk.injEq] at hevidence
  obtain ⟨snapshot, ⟨snapshot', hsnapshot, _, -, rfl⟩, _, -, _, -, _, hends, _, -, rfl, -⟩ :=
    hevidence
  obtain ⟨s, -, -, rfl⟩ := replayAndVerify_eq_ok.mp hsnapshot
  dsimp only
  rw [if_pos (mem_completedCycleEnds hends hcompletes)]
  exact Follows.pure rfl fun hprocessed => by cases hprocessed

/-- A call for an end that is completed changes nothing. -/
theorem unchanged_of_completes (hcompletes : Completes db.events end_) :
    (execute (processCompletedCandle c chances end_) db).2 = db :=
  (processCompletedCandle_completed hcompletes).leaves.symm

/-- An end that is completed is not processed again. -/
theorem not_processed_of_completes (hcompletes : Completes db.events end_) {outcome : Outcome}
    {db' : Database}
    (hcycle : execute (processCompletedCandle c chances end_) db = (.ok outcome, db')) :
    outcome.result.status ≠ .processed :=
  ((follows_iff.mp (processCompletedCandle_completed hcompletes)).1 outcome db' hcycle).2

end Completed

/-! ## Lists over runs -/

section Runs

variable {Cell : Type} [DecidableEq Cell] {start db db' : Database} {end_ : ℤ}

/-- The calls that find their bar untouched, or their end completed. -/
def Undisturbed (db : Database) (_ : ServiceConfig Cell) (_ : Chances Cell) (end_ : ℤ) : Prop :=
  Untouched db.events end_ ∨ Completes db.events end_

/-- A completion stays exact when another bar is marked. -/
theorem listsExactly_of_marks {completion : CycleCompletion}
    (h : ListsExactly db.events completion) (hother : completion.endUtc ≠ end_)
    {filled created : List PaperId}
    (hmarks : Marks (allAt (end_ - fourHours) filled) (allAt (end_ - fourHours) created) db db') :
    ListsExactly db'.events completion := by
  have helse : ∀ ids id, (id, completion.endUtc - fourHours) ∉ allAt (end_ - fourHours) ids := by
    intro ids id hmem
    obtain ⟨_, -, hmark⟩ := List.mem_map.mp hmem
    have htime := (Prod.mk.inj hmark).2
    omega
  intro id
  rw [hmarks.fills, hmarks.roots, List.mem_append, List.mem_append, or_iff_left (helse filled id),
    or_iff_left (helse created id)]
  exact h id

/-- A call that finds its bar untouched keeps the lists exact. -/
theorem Listed.left (h : Listed db.events) (hopen : ¬Completes db.events end_)
    (huntouched : Untouched db.events end_) (hleft : Left db end_ db') : Listed db'.events := by
  have hold : ∀ {filled created}, Marks (allAt (end_ - fourHours) filled)
      (allAt (end_ - fourHours) created) db db' → ∀ completion ∈ view readCycle db.events,
        ListsExactly db'.events completion.body := by
    intro filled created hmarks completion hcompletion
    exact listsExactly_of_marks (h completion hcompletion)
      (fun hend => hopen ⟨completion, hcompletion, hend⟩) hmarks
  obtain ⟨filled, created, hprogress | hfinished⟩ := hleft
  · intro completion hcompletion
    rw [hprogress.cycles] at hcompletion
    exact hold hprogress.marks completion hcompletion
  · obtain ⟨last, hcycles, hend, hfilled, hnames⟩ := hfinished.cycles
    intro completion hcompletion
    rw [hcycles] at hcompletion
    rcases List.mem_append.mp hcompletion with hbefore | hlast
    · exact hold hfinished.marks completion hbefore
    · obtain rfl := List.mem_singleton.mp hlast
      have hcreated : completion.body.createdOrderIds = created := by
        rcases hnames with hsame | ⟨id, hroot⟩
        · exact hsame
        · exact absurd hroot (huntouched id).2
      intro id
      rw [hend, hfilled, hcreated, hfinished.marks.fills, hfinished.marks.roots, List.mem_append,
        List.mem_append, or_iff_right (huntouched id).1, or_iff_right (huntouched id).2]
      simp [allAt]

/-- A step that disturbs no completed bar keeps the completions exact. -/
theorem Listed.step (h : Listed db.events)
    (hstep : ServiceStep (@Undisturbed Cell) db db') : Listed db'.events := by
  cases hstep with
  | @cycle c chances end_ hundisturbed =>
    by_cases hcompletes : Completes db.events end_
    · rw [unchanged_of_completes hcompletes]
      exact h
    · have huntouched := hundisturbed.resolve_right hcompletes
      have hended := processCompletedCandle_ended c chances db end_ db (progress_start db _)
      refine h.left hcompletes huntouched ?_
      rcases hresult : execute (processCompletedCandle c chances end_) db with ⟨e | outcome, after⟩
      · exact hended.2 e after hresult
      · exact (hended.1 outcome after hresult).1
  | recorded event happend =>
    have hgrows : Grows (isRecord · = true) db db' :=
      grows_of_appendEvent happend (isRecord_of_isOperational event.operational)
    have hidle := idle_of_grows (hgrows.mono idle_of_isRecord)
    intro completion hcompletion
    rw [hidle.cycles] at hcompletion
    intro id
    rw [hidle.marks.fills, hidle.marks.roots, List.append_nil, List.append_nil]
    exact h completion hcompletion id

/-- Every run that disturbs no completed bar keeps the completions exact. -/
theorem listed_of_run (hstart : view readCycle start.events = [])
    (hrun : Relation.ReflTransGen (ServiceStep (@Undisturbed Cell)) start db) :
    Listed db.events := by
  induction hrun with
  | refl =>
    intro completion hcompletion
    rw [hstart] at hcompletion
    cases hcompletion
  | tail _ hstep ih => exact ih.step hstep

/-! ## The fills that are checked -/

/-- Every order that has a fill is checked against one. -/
theorem mem_fillChecks {account : Ledger} {ids : List PaperId}
    (hfilled : ∀ id ∈ ids, ∃ fill ∈ account.fills, fill.orderId = id) {id : PaperId}
    (hid : id ∈ ids) :
    ∃ fill ∈ fillChecks account ids, fill ∈ account.fills ∧ fill.orderId = id := by
  induction ids with
  | nil => cases hid
  | cons first rest ih =>
    obtain ⟨fill, hfill, hfirst⟩ := hfilled first (by simp)
    have hrest := fun other hother => hfilled other (List.mem_cons_of_mem _ hother)
    cases hlast : (account.fills.filter (·.orderId = first)).getLast? with
    | none =>
      have hnone := List.getLast?_eq_none_iff.mp hlast
      have hmem : fill ∈ account.fills.filter (·.orderId = first) :=
        List.mem_filter.mpr ⟨hfill, by simp [hfirst]⟩
      rw [hnone] at hmem
      cases hmem
    | some found =>
      obtain ⟨hmem, hfound⟩ := List.mem_filter.mp (List.mem_of_getLast? hlast)
      simp only [fillChecks, hlast]
      rcases List.mem_cons.mp hid with rfl | hlater
      · exact ⟨found, by simp, hmem, of_decide_eq_true hfound⟩
      · obtain ⟨checked, hchecked, hrest⟩ := ih hrest hlater
        exact ⟨checked, List.mem_cons_of_mem _ hchecked, hrest⟩

/-- Every fill of a processed cycle that found its bar untouched is checked. -/
theorem fillChecks_complete {c : ServiceConfig Cell} {chances : Chances Cell}
    (huntouched : Untouched db.events end_) {outcome : Outcome}
    (hcycle : execute (processCompletedCandle c chances end_) db = (.ok outcome, db'))
    (hprocessed : outcome.result.status = .processed) {ledger : Ledger}
    (hledger : buildLedger db' = .ok ledger) {fill : PaperFill} (hfill : fill ∈ ledger.fills)
    (htime : fill.fillTime = end_ - fourHours) :
    fill ∈ fillChecks ledger outcome.result.filledOrderIds := by
  have hended := processCompletedCandle_ended c chances db end_ db (progress_start db _)
  obtain ⟨created, hfinished⟩ := (hended.1 outcome db' hcycle).2 hprocessed
  obtain ⟨hmarked, hknown⟩ := fills_of_marks hledger
  have hmark := hmarked fill hfill
  rw [htime, hfinished.marks.fills, List.mem_append, or_iff_right (huntouched _).1] at hmark
  have hid : fill.orderId ∈ outcome.result.filledOrderIds := by simpa [allAt] using hmark
  have hfilled : ∀ id ∈ outcome.result.filledOrderIds, ∃ fill ∈ ledger.fills,
      fill.orderId = id := by
    intro id hid
    refine hknown id (end_ - fourHours) ?_ (hfinished.described id hid)
    rw [hfinished.marks.fills]
    exact List.mem_append_right _ (List.mem_map_of_mem hid)
  obtain ⟨checked, hchecked, hmem, hsame⟩ := mem_fillChecks hfilled hid
  rwa [fill_unique hledger hmem hfill hsame] at hchecked

/-- In a run whose calls find their bars untouched or their ends completed, completions list
exactly what was done at their bars, and every fill of a processed cycle is checked. -/
theorem completions_list_exactly (hstart : view readCycle start.events = [])
    (hrun : Relation.ReflTransGen (ServiceStep (@Undisturbed Cell)) start db) :
    Listed db.events ∧ ∀ (c : ServiceConfig Cell) (chances : Chances Cell) (end_ : ℤ)
      (outcome : Outcome) (db' : Database), Undisturbed db c chances end_ →
        execute (processCompletedCandle c chances end_) db = (.ok outcome, db') →
        outcome.result.status = .processed → ∀ ledger, buildLedger db' = .ok ledger →
        ∀ fill ∈ ledger.fills, fill.fillTime = end_ - fourHours →
          fill ∈ fillChecks ledger outcome.result.filledOrderIds := by
  refine ⟨listed_of_run hstart hrun, ?_⟩
  intro c chances end_ outcome db' hundisturbed hcycle hprocessed ledger hledger fill hfill htime
  by_cases hcompletes : Completes db.events end_
  · -- a completed end is not processed again
    exact absurd hprocessed (not_processed_of_completes hcompletes hcycle)
  · exact fillChecks_complete (hundisturbed.resolve_right hcompletes) hcycle hprocessed hledger
      hfill htime

end Runs

/-! ## A cycle that runs twice -/

/-- A calm price that breaks out, and a bar after the breakout. -/
def breakoutBars : RawFrame ℤ where
  columns := ohlcvColumns
  rows := (calmBars [0, frequency, 2 * frequency]).rows ++ [(.time (3 * frequency), [1000, 1020, 1000, 1020, 1]),
    (.time (4 * frequency), [1020, 1030, 1010, 1025, 1])]
  aligned := by decide

/-- The cycle of the breakout, which stops once its order is accepted, and runs again. -/
def rerunDatabase : Database :=
  (execute (processCompletedCandle shortService (callAt (hours 16) none breakoutBars) (hours 16))
    (execute (processCompletedCandle shortService
      (callAt (hours 16) (some .afterOrder) breakoutBars) (hours 16)) {}).2).2

/-- The cycle of the breakout without a stop. -/
def breakoutDatabase : Database :=
  (execute (processCompletedCandle shortService (callAt (hours 16) none breakoutBars)
    (hours 16)) {}).2

/-- The cycle that fills the order of the breakout. -/
def filledCycle : Except Failure Outcome × Database :=
  execute (processCompletedCandle shortService (callAt (hours 20) none breakoutBars) (hours 20))
    breakoutDatabase

/-- The completion of a cycle that ran again leaves out the order of its first run. -/
theorem not_listed_of_rerun : ¬∀ db : Database,
    Relation.ReflTransGen (@ServiceStep ℤ _ fun _ _ _ _ => True) {} db →
      Listed db.events := by
  intro h
  have hrun : Relation.ReflTransGen (@ServiceStep ℤ _ fun _ _ _ _ => True) {}
      rerunDatabase :=
    .tail (.tail .refl (.cycle (c := shortService) trivial)) (.cycle trivial)
  have hmissing : (view readCycle rerunDatabase.events).any (fun completion =>
      (rootMarks rerunDatabase.events).any fun mark =>
        mark.2 = completion.body.endUtc - fourHours ∧
          mark.1 ∉ completion.body.createdOrderIds) = true := by
    decide +kernel
  obtain ⟨completion, hcompletion, hmark⟩ := List.any_eq_true.mp hmissing
  obtain ⟨mark, hroot, hmark⟩ := List.any_eq_true.mp hmark
  obtain ⟨htime, hunlisted⟩ := of_decide_eq_true hmark
  refine hunlisted (((h _ hrun completion hcompletion) mark.1).2.mpr ?_)
  rw [← htime]
  exact hroot

/-- A bar that no mark of the log names is untouched. -/
theorem untouched_of_all {log : List StoredEvent} {end_ : ℤ}
    (hfills : (fillMarks log).all (fun mark => mark.2 ≠ end_ - fourHours) = true)
    (hroots : (rootMarks log).all (fun mark => mark.2 ≠ end_ - fourHours) = true) :
    Untouched log end_ := by
  intro id
  constructor
  · intro hfill
    simpa using List.all_eq_true.mp hfills _ hfill
  · intro hroot
    simpa using List.all_eq_true.mp hroots _ hroot

/-- The cycle that fills the breakout lists its fill. -/
theorem completions_list_exactly_breakout : Listed breakoutDatabase.events ∧
    ∃ outcome ledger, filledCycle.1 = .ok outcome ∧ buildLedger filledCycle.2 = .ok ledger ∧
      ∃ fill ∈ ledger.fills, fill ∈ fillChecks ledger outcome.result.filledOrderIds := by
  have hfirst : Untouched ({} : Database).events (hours 16) :=
    untouched_of_all (by decide +kernel) (by decide +kernel)
  have hsecond : Untouched breakoutDatabase.events (hours 20) :=
    untouched_of_all (by decide +kernel) (by decide +kernel)
  have hrun : Relation.ReflTransGen (ServiceStep (@Undisturbed ℤ)) {} breakoutDatabase :=
    .tail .refl (.cycle (c := shortService) (Or.inl hfirst))
  obtain ⟨hlisted, hchecked⟩ := completions_list_exactly (by decide +kernel) hrun
  have hprocessed : filledCycle.1.toOption.any (·.result.status = .processed) = true := by
    decide +kernel
  have hfilled : (buildLedger filledCycle.2).toOption.any (fun ledger =>
      ledger.fills.any (·.fillTime = hours 20 - fourHours)) = true := by
    decide +kernel
  obtain ⟨outcome, houtcome, hprocessed⟩ := (Option.any_eq_true _ _).mp hprocessed
  obtain ⟨ledger, hledger, hfilled⟩ := (Option.any_eq_true _ _).mp hfilled
  obtain ⟨fill, hfill, htime⟩ := List.any_eq_true.mp hfilled
  have houtcome := Except.toOption_eq_some.mp houtcome
  have hledger := Except.toOption_eq_some.mp hledger
  refine ⟨hlisted, outcome, ledger, houtcome, hledger, fill, hfill, ?_⟩
  exact hchecked shortService (callAt (hours 20) none breakoutBars) (hours 20) outcome
    filledCycle.2 (Or.inl hsecond) (Prod.ext houtcome rfl) (of_decide_eq_true hprocessed) ledger
    hledger fill hfill (of_decide_eq_true htime)

end AutoBit.Service
