import AutoBit.Broker.Marks
import AutoBit.Service.CycleSteps

/-!
# What a completion lists

A cycle collects the orders that it fills and creates in local lists, and its completion
repeats them. The lists are those of one call: what an earlier call of the same cycle filled
or created before it stopped is in the log and in no list.
-/

namespace AutoBit.Service

open Library Store Risk Data Strategy Broker

/-! ## Completions and their lists -/

/-- The payload of a completion. -/
def readCycle : Payload → Option CycleCompletion
  | .paperCycle completion => some completion
  | _ => none

/-- A completion lists exactly the orders filled at its bar, and the market orders without a
parent that are signalled there. -/
def ListsExactly (log : List StoredEvent) (completion : CycleCompletion) : Prop :=
  ∀ id, (id ∈ completion.filledOrderIds ↔ (id, completion.endUtc - fourHours) ∈ fillMarks log) ∧
    (id ∈ completion.createdOrderIds ↔ (id, completion.endUtc - fourHours) ∈ rootMarks log)

/-- Every completion of a log lists exactly what was done at its bar. -/
def Listed (log : List StoredEvent) : Prop :=
  ∀ completion ∈ view readCycle log, ListsExactly log completion.body

/-- Whether an end has a completion in a log. -/
def Completes (log : List StoredEvent) (end_ : ℤ) : Prop :=
  ∃ completion ∈ view readCycle log, completion.body.endUtc = end_

/-- Nothing is filled at the bar of an end, and no market order without a parent is signalled
there. -/
def Untouched (log : List StoredEvent) (end_ : ℤ) : Prop :=
  ∀ id, (id, end_ - fourHours) ∉ fillMarks log ∧ (id, end_ - fourHours) ∉ rootMarks log

/-- `_record_reconciliation`: the fills that reach `record_fill_check`. The loop ends at an
order that has no fill. -/
def fillChecks (account : Ledger) : List PaperId → List PaperFill
  | [] => []
  | id :: rest =>
    match (account.fills.filter (·.orderId = id)).getLast? with
    | some fill => fill :: fillChecks account rest
    | none => []

/-! ## What one call leaves -/

/-- What fills nothing, orders nothing and completes nothing. -/
structure Idle (db db' : Database) : Prop where
  marks : Marks [] [] db db'
  cycles : view readCycle db'.events = view readCycle db.events
  grows : Grows (fun _ => True) db db'

instance : Std.Refl Idle := ⟨fun db => ⟨Marks.refl db, rfl, Grows.refl db⟩⟩

instance : IsTrans Database Idle := ⟨fun _ _ _ h h' =>
  ⟨h.marks.then_nothing h'.marks, h'.cycles.trans h.cycles, h.grows.trans h'.grows⟩⟩

/-- A log that grows without fills, orders and completions is idle. -/
theorem idle_of_grows {db db' : Database}
    (h : Grows (fun payload => Unmarked payload ∧ readCycle payload = none) db db') : Idle db db' :=
  ⟨marks_of_grows (h.mono fun _ hkind => hkind.1), h.view_eq fun _ hkind => hkind.2,
    h.mono fun _ _ => trivial⟩

/-- A record marks no order and reads as no cycle. -/
theorem idle_of_isRecord (payload : Payload) (h : isRecord payload = true) :
    Unmarked payload ∧ readCycle payload = none := by
  cases payload <;> simp_all [Unmarked, isRecord, readFill, readOrderMetadata, readCycle]

/-- The records of a cycle are idle. -/
theorem records_idle : Records Idle := records_of_grows idle_of_isRecord fun _ _ => idle_of_grows

/-- The stops that a cycle sets are idle. -/
theorem protects_idle (costs : CostConfig) (barAt : ℤ) : Protects costs barAt Idle := by
  intro db db' price activeAfter reason source stop h
  refine idle_of_grows ((setStop_grows h).mono ?_)
  rintro payload ⟨set, rfl⟩
  exact ⟨⟨rfl, rfl⟩, rfl⟩

/-- The observations of a cycle are idle. -/
theorem observations_idle : Observations Idle := by
  intro db db' id candles initialStop h
  obtain ⟨ledger, last, fill, highWater, -, -, -, happended, -⟩ := observePosition_appended h
  exact idle_of_grows (grows_of_appended happended ⟨⟨rfl, rfl⟩, rfl⟩)

/-- What trading records reads as no cycle. -/
theorem readCycle_of_isTrade {payload : Payload} (h : isTrade payload = true) :
    readCycle payload = none := by
  cases payload <;> simp_all [isTrade, isPlacement, readCycle]

/-- Some orders, all at one bar. -/
def allAt (barAt : ℤ) (ids : List PaperId) : List (PaperId × ℤ) := ids.map fun id => (id, barAt)

/-- A call has filled and created these orders at its bar so far, and completed nothing. -/
structure Progress (start : Database) (barAt : ℤ) (filled created : List PaperId)
    (db : Database) : Prop where
  marks : Marks (allAt barAt filled) (allAt barAt created) start db
  cycles : view readCycle db.events = view readCycle start.events
  described : ∀ id ∈ filled, Described db.events id

/-- A created list that names what was created, unless the order was there before. -/
def Names (start : Database) (barAt : ℤ) (created listed : List PaperId) : Prop :=
  listed = created ∨ ∃ id, (id, barAt) ∈ rootMarks start.events

/-- A call has filled these orders so far, and created what it lists. -/
def Listing (start : Database) (barAt : ℤ) (filled listed : List PaperId) (db : Database) : Prop :=
  ∃ created, Progress start barAt filled created db ∧ Names start barAt created listed

/-- A call has completed its cycle with the orders that it filled and created. -/
structure Finished (start : Database) (end_ : ℤ) (filled created : List PaperId)
    (db : Database) : Prop where
  marks : Marks (allAt (end_ - fourHours) filled) (allAt (end_ - fourHours) created) start db
  cycles : ∃ completion, view readCycle db.events = view readCycle start.events ++ [completion] ∧
    completion.body.endUtc = end_ ∧ completion.body.filledOrderIds = filled ∧
    Names start (end_ - fourHours) created completion.body.createdOrderIds
  described : ∀ id ∈ filled, Described db.events id

/-- Wherever a call ends, it has done something at its bar, and may have completed it. -/
def Left (start : Database) (end_ : ℤ) (db : Database) : Prop :=
  ∃ filled created, Progress start (end_ - fourHours) filled created db ∨
    Finished start end_ filled created db

section Calls

variable {Cell : Type} {c : ServiceConfig Cell} {chances : Chances Cell} {start : Database}
  {end_ barAt : ℤ} {enriched : List TrendRow} {bar : Ohlcv ℚ} {filled created : List PaperId}
  {kept : Database → Prop} {α : Type}

/-- A call starts with nothing filled and nothing created. -/
theorem progress_start (start : Database) (barAt : ℤ) : Progress start barAt [] [] start :=
  ⟨Marks.refl start, rfl, by simp⟩

/-- A call may end with what it has done so far. -/
theorem Progress.left {db : Database} (h : Progress start (end_ - fourHours) filled created db) :
    Left start end_ db := ⟨filled, created, Or.inl h⟩

/-- An idle step makes no progress. -/
theorem Progress.idle {db db' : Database} (h : Progress start barAt filled created db)
    (hidle : Idle db db') : Progress start barAt filled created db' :=
  ⟨h.marks.then_nothing hidle.marks, hidle.cycles.trans h.cycles,
    fun id hid => (h.described id hid).grows hidle.grows⟩

/-- An idle step keeps what was done so far. -/
theorem triple_idle {x : Stateful Failure Database α} (h : Respects Idle x)
    (hkept : ∀ db, Progress start barAt filled created db → kept db) :
    Triple (Progress start barAt filled created) x
      (fun _ => Progress start barAt filled created) kept :=
  Triple.of_respects h (fun _ _ hprogress hidle => hprogress.idle hidle)
    fun _ _ hprogress hidle => hkept _ (hprogress.idle hidle)

/-! ### Fills -/

/-- One more fill of the bar. -/
theorem Progress.fill {db db' : Database} {progress : FillProgress} {fill : Option PaperFill}
    (h : Progress start barAt progress.filled [] db)
    (hmarks : Marks (returned fill barAt) [] db db') (hgrows : Grows Trades db db')
    (hdescribed : ∀ paper ∈ fill, Described db'.events paper.orderId) :
    Progress start barAt (progress.add fill).filled [] db' := by
  have hall := h.marks.trans hmarks
  have hcycles := (hgrows.view_eq fun _ htrade => readCycle_of_isTrade htrade.1).trans h.cycles
  have hold : ∀ id ∈ progress.filled, Described db'.events id :=
    fun id hid => (h.described id hid).grows hgrows
  cases fill with
  | none => exact ⟨by simpa [returned, FillProgress.add] using hall, hcycles, hold⟩
  | some paper =>
    refine ⟨by simpa [returned, FillProgress.add, allAt] using hall, hcycles, ?_⟩
    intro id hid
    rcases List.mem_append.mp hid with hbefore | hnew
    · exact hold id hbefore
    · rw [List.mem_singleton.mp hnew]
      exact hdescribed paper rfl

/-- A prepared context that is bound is idle. -/
theorem bindPrepared_idle (prepared : PreparedContexts) (order : PaperOrder) :
    Respects Idle (bindPrepared prepared order) := by
  refine bindPrepared_respects (fun db db' id context bound h => ?_) prepared order
  exact ⟨(bindEntryContext_marks h).1, (bindEntryContext_grows h).view_eq fun _ hplaced =>
    readCycle_of_isTrade (isTrade_of_isPlacement hplaced.1),
    (bindEntryContext_grows h).mono fun _ _ => trivial⟩

/-- A round of the fills adds the order that it fills. -/
theorem fillRound_progress {prepared : PreparedContexts} (progress : FillProgress)
    (order : PaperOrder) : Triple (Progress start barAt progress.filled [])
      (fillRound barAt bar prepared progress order)
      (fun progress' => Progress start barAt progress'.filled []) fun _ => True := by
  refine Triple.lift_bind (fun _ _ => trivial) fun _ _ => ?_
  split
  · refine Triple.bind (triple_idle (bindPrepared_idle prepared order) fun _ _ => trivial)
      fun _ => ?_
    have hopened : ∀ db fill db', Progress start barAt progress.filled [] db →
        processOpen db order.orderId barAt bar.open_ none = .ok (fill, db') →
        Progress start barAt (progress.add fill).filled [] db' := by
      intro db fill db' hprogress hopened
      refine hprogress.fill (processOpen_marks hopened) (processOpen_grows hopened) ?_
      rintro paper rfl
      exact processOpen_described hopened
    exact Triple.bind (triple_brokerCall (fun _ _ => trivial) hopened) fun fill =>
      Triple.pure fun _ h => h
  · exact Triple.pure fun _ h => h

/-- The stop that a cycle sets is idle. -/
theorem ensureStop_idle (runs : Bool) (account : Ledger) (activeAfter : Option ℤ)
    (candidate : Option ℚ) :
    Respects Idle (ensureStop c barAt enriched runs account activeAfter candidate) :=
  ensureStop_respects c barAt enriched (protects_idle _ _) runs account activeAfter candidate

/-- A stop that fires at a bar adds the order that it fills. -/
theorem stopOut_progress (progress : FillProgress) (account : Ledger) :
    Triple (Progress start barAt progress.filled []) (stopOut barAt bar account)
      (fun fill => Progress start barAt (progress.add fill).filled []) fun _ => True := by
  unfold stopOut
  split
  · refine triple_brokerCall (fun _ _ => trivial) fun db fill db' hprogress hstopped => ?_
    refine hprogress.fill (processIntrabarStop_marks hstopped) (processIntrabarStop_grows hstopped) ?_
    rintro paper rfl
    exact processIntrabarStop_described hstopped
  · exact Triple.pure fun _ h => h

/-- The fills of a bar are those that its result lists. -/
theorem fillBar_progress (prepared : PreparedContexts) : Triple (Progress start barAt [] [])
    (fillBar c chances barAt enriched bar prepared)
    (fun filled => Progress start barAt filled []) fun _ => True := by
  refine Triple.bind (triple_idle (respects_readDatabase _) fun _ _ => trivial) fun account => ?_
  refine Triple.bind (Triple.foldlM (fun progress order _ => fillRound_progress progress order) {})
    fun progress => ?_
  refine Triple.bind (triple_idle (respects_fault _ _) fun _ _ => trivial) fun _ => ?_
  refine Triple.bind (triple_idle ?_ fun _ _ => trivial) fun account => ?_
  · refine respects_bind (respects_readDatabase _) fun account => ?_
    split
    · exact respects_bind (ensureStop_idle _ _ _ _) fun _ => respects_readDatabase _
    · exact respects_pure _
  · exact Triple.bind (stopOut_progress progress account) fun stopFill => Triple.pure fun _ h => h

/-- What is filled is what the transaction of the fills returns. -/
theorem fillTransaction_progress (prepared : PreparedContexts) :
    Triple (Progress start (end_ - fourHours) [] [])
      (fillTransaction c chances end_ (end_ - fourHours) enriched bar prepared)
      (fun filled => Progress start (end_ - fourHours) (filled.getD []) []) (Left start end_) := by
  refine triple_fencedCycle (fun _ hprogress => hprogress.left) ?_
  refine Triple.bind (triple_idle (respects_readDatabase _) fun _ _ => trivial) fun snapshot => ?_
  refine Triple.lift_bind (fun _ _ => trivial) fun _ _ => ?_
  refine Triple.bind (triple_idle (respects_readDatabase _) fun _ _ => trivial) fun completed => ?_
  split
  · exact Triple.pure fun _ h => h
  · exact Triple.bind (fillBar_progress prepared) fun filled => Triple.pure fun _ h => h

/-! ### Orders and the completion -/

/-- The order that a decision leads to is the one that is listed. -/
theorem Progress.submit {db db' : Database} {order : PaperOrder}
    (h : Progress start barAt filled [] db) {P : OrderMetadata → Prop}
    (hmarks : Marks [] [] db db' ∧ (order.orderId, barAt) ∈ rootMarks db.events ∨
      Marks [] [(order.orderId, barAt)] db db') (hcycles : Grows (Places P) db db') :
    Listing start barAt filled [order.orderId] db' := by
  have hsame : view readCycle db'.events = view readCycle start.events :=
    (hcycles.view_eq fun _ hplaced =>
      readCycle_of_isTrade (isTrade_of_isPlacement hplaced.1)).trans h.cycles
  have hdescribed : ∀ id ∈ filled, Described db'.events id :=
    fun id hid => (h.described id hid).grows hcycles
  rcases hmarks with ⟨hnothing, hbefore⟩ | hroot
  · have hroots : rootMarks db.events = rootMarks start.events := by simpa [allAt] using h.marks.roots
    exact ⟨[], ⟨h.marks.then_nothing hnothing, hsame, hdescribed⟩, Or.inr ⟨_, hroots ▸ hbefore⟩⟩
  · refine ⟨[order.orderId], ⟨?_, hsame, hdescribed⟩, Or.inl rfl⟩
    simpa [allAt] using h.marks.trans hroot

/-- A call may end before its listing is recorded. -/
theorem Listing.left {db : Database} {listed : List PaperId}
    (h : Listing start (end_ - fourHours) filled listed db) : Left start end_ db := by
  obtain ⟨created, hprogress, -⟩ := h
  exact hprogress.left

/-- A call may list what it created. -/
theorem Progress.listing {db : Database} (h : Progress start barAt filled created db) :
    Listing start barAt filled created db := ⟨created, h, Or.inl rfl⟩

/-- What a decision leads to is what is listed. -/
theorem carryOut_listing (row : TrendRow) (account : Ledger) (position : Option PositionContext)
    (decision : Decision) : Triple (Progress start (end_ - fourHours) filled [])
      (carryOut c chances (end_ - fourHours) enriched row account position decision)
      (Listing start (end_ - fourHours) filled) (Left start end_) := by
  unfold carryOut
  split
  · rename_i reason quantity _
    split
    · have hsubmits : ∀ db order db', Progress start (end_ - fourHours) filled [] db →
          submitExit c.brokerCosts db (end_ - fourHours) quantity account.snapshot.btcQuantity reason
            none = .ok (order, db') →
          Listing start (end_ - fourHours) filled [order.orderId] db' :=
        fun _ _ _ hprogress hsubmitted =>
          hprogress.submit (submitExit_marks hsubmitted) (submitExit_grows hsubmitted)
      exact Triple.bind (triple_fencedCycle (fun _ h => h.left)
        (triple_brokerCall (fun _ _ => trivial) hsubmits)) fun order => Triple.pure fun _ h => h
    · exact Triple.pure fun _ h => h.listing
  · rename_i reason quantity _
    have hsubmits : ∀ context db order db', Progress start (end_ - fourHours) filled [] db →
        submitEntry c.brokerCosts db (end_ - fourHours) quantity reason (some context) =
          .ok (order, db') →
        Listing start (end_ - fourHours) filled [order.orderId] db' :=
      fun _ _ _ _ hprogress hsubmitted =>
        hprogress.submit (submitEntry_marks hsubmitted) (submitEntry_grows hsubmitted)
    refine Triple.bind (triple_fencedCycle (fun _ h => h.left) (Triple.bind (triple_idle
      (respects_readDatabase _) fun _ _ => trivial) fun context =>
      triple_brokerCall (fun _ _ => trivial) (hsubmits context))) fun order => ?_
    exact Triple.lift_bind (fun _ h => h.left) fun _ _ => Triple.pure fun _ h => h
  · split
    · exact Triple.bind (triple_idle (ensureStop_idle _ _ _ _) fun _ h => h.left) fun _ =>
        Triple.pure fun _ h => h.listing
    · exact Triple.pure fun _ h => h.listing

/-- The completion that lists what a call filled and created finishes its cycle. -/
theorem Progress.complete {db db' : Database} {completion : CycleCompletion} {eventId : EventId}
    {occurredAt : ℤ} (h : Progress start (end_ - fourHours) filled created db)
    (hend : completion.endUtc = end_) (hfilled : completion.filledOrderIds = filled)
    (hcreated : Names start (end_ - fourHours) created completion.createdOrderIds)
    (happend : appendEvent db eventId occurredAt (.paperCycle completion) = .ok db') :
    Finished start end_ filled created db' := by
  have hgrows : Grows (fun _ => True) db db' := grows_of_appendEvent happend trivial
  refine ⟨h.marks.then_nothing (marks_of_appendEvent happend ⟨rfl, rfl⟩), ?_,
    fun id hid => (h.described id hid).grows hgrows⟩
  rw [(appendEvent_appended happend).events, view_append, h.cycles]
  exact ⟨_, rfl, hend, hfilled, hcreated⟩

/-- A completion lists what the call filled and created. -/
theorem recordCompletion_finished {result : CycleResult} {listed : List PaperId}
    (hend : result.endUtc = end_) (hfilled : result.filledOrderIds = filled)
    (hlisted : result.createdOrderIds = listed) :
    Triple (Listing start (end_ - fourHours) filled listed) (recordCompletion chances result)
      (fun _ db => ∃ created, Finished start end_ filled created db) (Left start end_) := by
  subst hlisted
  refine Triple.transaction (fun _ h => h.left) (Triple.lift_bind (fun _ _ => trivial) fun _ _ => ?_)
  refine Triple.get_bind fun db hlisting => ?_
  obtain ⟨created, hprogress, hnames⟩ := hlisting
  refine Triple.lift_bind (fun _ _ => trivial) fun db' happend => ?_
  refine Triple.modify fun _ _ => ?_
  exact ⟨created, hprogress.complete hend hfilled hnames happend⟩

/-! ### The whole call -/

/-- What a call returns when it is processed: the orders that it filled. -/
def Ended (start : Database) (end_ : ℤ) (outcome : Outcome) (db : Database) : Prop :=
  Left start end_ db ∧ (outcome.result.status = .processed →
    ∃ created, Finished start end_ outcome.result.filledOrderIds created db)

/-- A call may end with its cycle finished. -/
theorem Finished.left {db : Database} (h : Finished start end_ filled created db) :
    Left start end_ db := ⟨filled, created, Or.inr h⟩

/-- A call that is not processed. -/
theorem Left.ended {db : Database} (h : Left start end_ db) {outcome : Outcome}
    (hstatus : outcome.result.status ≠ .processed) : Ended start end_ outcome db :=
  ⟨h, fun hprocessed => absurd hprocessed hstatus⟩

/-- A call whose lease is lost ends with what it has done so far. -/
theorem resultAfterLostLease_ended :
    Triple (Left start end_) (resultAfterLostLease end_) (Ended start end_) (Left start end_) := by
  refine Triple.bind (triple_readDatabase _) fun completed => Triple.pure fun db h => h.ended ?_
  intro hprocessed
  cases completed <;> cases hprocessed

/-- A call that returns that its cycle was processed may end like that. -/
theorem alreadyProcessed_ended {db : Database} (h : Left start end_ db) :
    Ended start end_ (alreadyProcessed end_) db :=
  h.ended fun hprocessed => by cases hprocessed

/-- An unsafe cycle ends with nothing filled and nothing created. -/
theorem completeUnsafe_ended : Triple (Progress start (end_ - fourHours) [] [])
    (completeUnsafe chances end_) (Ended start end_) (Left start end_) := by
  refine Triple.bind (triple_idle (respects_readDatabase _) fun _ h => h.left) fun account => ?_
  refine Triple.bind (triple_idle (respects_readDatabase _) fun _ h => h.left) fun snapshot => ?_
  refine Triple.lift_bind (fun _ h => h.left) fun _ _ => ?_
  intro db hprogress
  refine Triple.bind (recordCompletion_finished rfl rfl rfl) (fun _ => ?_) db hprogress.listing
  refine Triple.pure fun db' hfinished => ?_
  obtain ⟨created, hfinished⟩ := hfinished
  exact hfinished.left.ended fun hprocessed => by cases hprocessed

variable [DecidableEq Cell]

/-- The close of a bar ends with the orders that the cycle filled and created. -/
theorem closeBar_ended (row : TrendRow) : Triple (Progress start (end_ - fourHours) filled [])
    (closeBar c chances end_ (end_ - fourHours) enriched bar row filled) (Ended start end_)
    (Left start end_) := by
  have hobserved : ∀ account, Respects Idle
      (observeIfHeld c chances (end_ - fourHours) enriched account) :=
    observeIfHeld_respects c chances (end_ - fourHours) enriched (records_idle.atBar _)
      observations_idle
  have hrisk : ∀ runs row, Respects Idle (riskDecision c.risk runs (end_ - fourHours) row) :=
    fun runs row => riskDecision_respects (records_idle.atBar _) c.risk runs row
  refine Triple.bind (triple_idle (respects_readDatabase _) fun _ h => h.left) fun account => ?_
  refine Triple.bind (triple_idle (hobserved account) fun _ h => h.left) fun _ => ?_
  refine Triple.lift_bind (fun _ h => h.left) fun equity _ => ?_
  refine Triple.bind (triple_idle (hrisk _ _) fun _ h => h.left) fun risk => ?_
  refine Triple.bind (triple_idle (respects_readDatabase _) fun _ h => h.left) fun account' => ?_
  refine Triple.bind (triple_idle (respects_readDatabase _) fun _ h => h.left) fun position => ?_
  refine Triple.bind (carryOut_listing row account' position _) fun created => ?_
  refine Triple.bind (recordCompletion_finished rfl rfl rfl) fun _ => Triple.pure fun db hfinished => ?_
  refine ⟨?_, fun _ => hfinished⟩
  obtain ⟨_, hfinished⟩ := hfinished
  exact hfinished.left

/-- A cycle over its window ends with the orders that it filled and created. -/
theorem processWindow_ended : Triple (Progress start (end_ - fourHours) [] [])
    (processWindow c chances end_ enriched) (Ended start end_) (Left start end_) := by
  have hprepared : Respects Idle (prepareLegacyEntryContexts c chances (end_ - fourHours)) :=
    prepareLegacyEntryContexts_respects c chances (end_ - fourHours) (records_idle.atBar _)
  unfold processWindow
  split
  · exact completeUnsafe_ended
  · rename_i row bar _
    refine Triple.bind (triple_idle hprepared fun _ h => h.left) fun prepared => ?_
    split
    · exact fun db hprogress => resultAfterLostLease_ended db hprogress.left
    · refine Triple.bind (triple_idle (respects_readDatabase _) fun _ h => h.left) fun completed => ?_
      split
      · exact Triple.pure fun _ h => alreadyProcessed_ended h.left
      · refine Triple.bind (fillTransaction_progress prepared) fun filled => ?_
        cases filled with
        | none => exact Triple.pure fun _ h => alreadyProcessed_ended h.left
        | some filled => exact closeBar_ended row

/-- A call that holds the lease ends with the orders that it filled and created. -/
theorem leasedCycle_ended : Triple (Progress start (end_ - fourHours) [] [])
    (leasedCycle c chances end_) (Ended start end_) (Left start end_) := by
  have hattempt : ∀ attempted, Respects Idle (recordAttempt chances end_ attempted) :=
    recordAttempt_respects chances end_ records_idle
  have hload : ∀ feed : Feed Cell, Respects Idle (load feed) := load_respects (records_idle.atBar end_)
  refine Triple.bind (triple_idle (respects_readDatabase _) fun _ h => h.left) fun evidence => ?_
  obtain ⟨completed, attempted⟩ := evidence
  dsimp only
  split
  · exact Triple.pure fun _ h => alreadyProcessed_ended h.left
  · refine Triple.lift_bind (fun _ h => h.left) fun _ _ => ?_
    refine Triple.bind (triple_idle (hattempt attempted) fun _ h => h.left) fun _ => ?_
    refine Triple.lift_bind (fun _ h => h.left) fun _ _ => ?_
    refine Triple.bind (triple_idle (hload _) fun _ h => h.left) fun raw => ?_
    refine Triple.lift_bind (fun _ h => h.left) fun quality _ => ?_
    split
    · exact fun db hprogress => resultAfterLostLease_ended db hprogress.left
    · refine Triple.bind (triple_idle (respects_readDatabase _) fun _ h => h.left) fun completed => ?_
      split
      · exact Triple.pure fun _ h => alreadyProcessed_ended h.left
      · exact processWindow_ended

/-- Wherever a call stops, it has filled and created orders at its bar only, and a completion
lists what the call filled and created. -/
theorem processCompletedCandle_ended (c : ServiceConfig Cell) (chances : Chances Cell)
    (start : Database) (end_ : ℤ) : Triple (Progress start (end_ - fourHours) [] [])
      (processCompletedCandle c chances end_) (Ended start end_) (Left start end_) := by
  refine Triple.lift_bind (fun _ h => h.left) fun _ _ => ?_
  refine Triple.lift_bind (fun _ h => h.left) fun _ _ => ?_
  refine Triple.bind (triple_idle (respects_readDatabase _) fun _ h => h.left) fun evidence => ?_
  obtain ⟨completed, attempted⟩ := evidence
  dsimp only
  split
  · exact Triple.pure fun _ h => alreadyProcessed_ended h.left
  · refine Triple.lift_bind (fun _ h => h.left) fun _ _ => ?_
    split
    · exact Triple.pure fun _ h => h.left.ended fun hprocessed => by cases hprocessed
    · refine Triple.recover leasedCycle_ended fun e rest hrest => ?_
      cases e <;> cases hrest
      exact resultAfterLostLease_ended

end Calls

end AutoBit.Service
