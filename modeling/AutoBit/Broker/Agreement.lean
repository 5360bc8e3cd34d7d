import AutoBit.Broker.ExecutionCap
import AutoBit.Broker.Trigger

/-!
# The writer and the verifier

Whatever is asked of the broker, in whatever order, and whatever other components record in
between: the verifier accepts what the broker has written, unless a fill completes an entry
whose reason is the one that the verifier takes for a cut by the execution cap. From then on
it refuses the account for good.
-/

namespace AutoBit.Broker

open Library Store Strategy

/-- A request to the broker, or an event that another component records. -/
inductive Call where
  | submitEntry (signalAt : ℤ) (quantity : ℚ) (reason : String) (context : Option EntryContext)
  | submitExit (signalAt : ℤ) (quantity ownedQuantity : ℚ) (reason : String)
      (parent : Option PaperId)
  | bindEntryContext (id : PaperId) (context : EntryContext)
  | processOpen (id : PaperId) (candle : ℤ) (openPrice : ℚ) (actual : Option ℚ)
  | processIntrabarStop (candle : ℤ) (openPrice lowPrice : ℚ)
  | setStop (observedAt : ℤ) (stopPrice : ℚ) (activeAfter : Option ℤ) (reason : String)
      (sourceId : Option PaperId)
  | observePosition (id : PaperId) (candleHighs : List (ℤ × ℚ)) (initialStop : ℚ)
  | record (eventId : EventId) (occurredAt : ℤ) (payload : Payload)
      (foreign : isForeign payload = true)

/-- What a call does to the database when it does not raise. -/
def Call.run (costs : CostConfig) (db : Database) : Call → Except Failure Database
  | submitEntry signalAt quantity reason context =>
    Prod.snd <$> Broker.submitEntry costs db signalAt quantity reason context
  | submitExit signalAt quantity ownedQuantity reason parent =>
    Prod.snd <$> Broker.submitExit costs db signalAt quantity ownedQuantity reason parent
  | bindEntryContext id context => Prod.snd <$> Broker.bindEntryContext db id context
  | processOpen id candle openPrice actual =>
    Prod.snd <$> Broker.processOpen db id candle openPrice actual
  | processIntrabarStop candle openPrice lowPrice =>
    Prod.snd <$> Broker.processIntrabarStop db candle openPrice lowPrice
  | setStop observedAt stopPrice activeAfter reason sourceId =>
    Prod.snd <$> Broker.setStop costs db observedAt stopPrice activeAfter reason sourceId
  | observePosition id candleHighs initialStop =>
    Broker.observePosition db id candleHighs initialStop
  | record eventId occurredAt payload _ => appendEvent db eventId occurredAt payload

/-- A call that raises is rolled back. -/
def Call.apply (costs : CostConfig) (db : Database) (call : Call) : Database :=
  match call.run costs db with
  | .ok db' => db'
  | .error _ => db

/-- The databases that calls lead to from an empty store, one after the other, with any
non-negative costs and each call admitted in its database. -/
inductive Run (admits : Database → Call → Prop) : Database → Prop where
  | start : Run admits {}
  | call {db : Database} {costs : CostConfig} {call : Call} : Run admits db →
      0 ≤ costs.feeRate → 0 ≤ costs.slippageRate → admits db call →
      Run admits (call.apply costs db)

/-- The quantity that `process_open` fills an order with. -/
def openQuantity (ledger : Ledger) (order : PaperOrder) (openPrice : ℚ) (actual : Option ℚ) : ℚ :=
  (allowed order (computedFillPrice openPrice order.slippageRate order.side) ledger.snapshot.cash
    (actual.getD order.remainderQuantity)).1

/-- Whether a call does not complete an entry that cannot be told from a cut one. -/
def Call.Distinct (db : Database) : Call → Prop
  | processOpen id _ openPrice actual => ∀ ledger, buildLedger db = .ok ledger →
      ∀ order, findPaperOrder ledger.orders id = some order → order.status = .accepted →
        Distinguishable order (openQuantity ledger order openPrice actual)
  | _ => True

/-- The account of an empty store. -/
def emptyAccount : Account := ⟨{}, [], {}, {}, {}, none, []⟩

/-- An empty database is sound. -/
theorem sound_empty : Sound {} emptyAccount where
  coherent := {
    replay := rfl
    ids := List.nodup_nil
    named := by simp
    stops := rfl
    orders := List.Forall₂.nil
    contexts := by simp [view]
    executions := by simp [view]
    executed := by simp [emptyAccount]
    matched := ⟨by simp [view], by simp [view]⟩
    ancestry := by simp [emptyAccount]
    children := by simp [emptyAccount]
    scan := rfl
    trade := rfl
    held := ⟨rfl, by simp [emptyAccount], fun hne => absurd rfl hne⟩
    source := rfl
    stopSources := by simp [emptyAccount]
    terminals := by simp [emptyAccount]
    triggers := by simp [emptyAccount, triggeredOrders]
    positions := rfl
    filled := by simp [view]
    stored := List.Forall₂.nil
    active := by simp [emptyAccount, activeOrders]
    funded := by simp [emptyAccount, activeOrders]
    openSource := by simp [emptyAccount] }
  settled := ⟨by simp [emptyAccount], by simp [emptyAccount], by simp [emptyAccount]⟩
  verified := ⟨_, rfl⟩

/-- Open stops become active in the order in which they were set. -/
def InOrder (stops : List PaperStop) : Prop :=
  stops.Pairwise fun earlier later => earlier.activeAfterUtc ≤ later.activeAfterUtc

/-- A step of the broker keeps the stops in order. -/
theorem Protection.inOrder {stops stops' : List PaperStop} (h : Protection stops stops')
    (horder : InOrder stops) : InOrder stops' := by
  cases h with
  | kept => exact horder
  | ended => exact List.Pairwise.nil
  | set hlater =>
    refine List.pairwise_append.mpr ⟨horder, List.pairwise_singleton _ _, ?_⟩
    intro active hactive stop hstop
    rw [List.mem_singleton.mp hstop]
    exact hlater active hactive

/-! ## One call -/

section

variable {db db' : Database} {a : Account} (h : Sound db a) {costs : CostConfig}
  (hfee : 0 ≤ costs.feeRate) (hslippage : 0 ≤ costs.slippageRate)
include h hfee hslippage

/-- A call that succeeds and that the verifier can follow leads to another sound database. -/
theorem Sound.run {call : Call} (hdistinct : call.Distinct db) (hok : call.run costs db = .ok db') :
    ∃ a', Sound db' a' ∧ Protection a.stops.open_ a'.stops.open_ := by
  have hsame : (∃ a', Sound db' a' ∧ a'.stops = a.stops) →
      ∃ a', Sound db' a' ∧ Protection a.stops.open_ a'.stops.open_ := by
    rintro ⟨a', hsound, hstops⟩
    exact ⟨a', hsound, hstops ▸ .kept⟩
  cases call with
  | submitEntry signalAt quantity reason context =>
    obtain ⟨⟨order, db₁⟩, hsubmitted, rfl⟩ := Except.map_eq_ok.mp hok
    exact hsame (h.submitEntry hfee hslippage hsubmitted)
  | submitExit signalAt quantity ownedQuantity reason parent =>
    obtain ⟨⟨order, db₁⟩, hsubmitted, rfl⟩ := Except.map_eq_ok.mp hok
    exact hsame (h.submitExit hfee hslippage hsubmitted)
  | bindEntryContext id context =>
    obtain ⟨⟨order, db₁⟩, hbound, rfl⟩ := Except.map_eq_ok.mp hok
    exact hsame (h.bindEntryContext hbound)
  | processOpen id candle openPrice actual =>
    obtain ⟨⟨fill, db₁⟩, hopened, rfl⟩ := Except.map_eq_ok.mp hok
    rcases h.processOpen_cases (fun order hfound haccepted =>
      hdistinct _ h.ledger order hfound haccepted) hopened with
      hsame | ⟨order, -, -, a', hsound, hexecutes⟩
    · exact ⟨a, hsame ▸ h, .kept⟩
    · exact ⟨a', hsound, hexecutes.protection⟩
  | processIntrabarStop candle openPrice lowPrice =>
    obtain ⟨⟨fill, db₁⟩, hprocessed, rfl⟩ := Except.map_eq_ok.mp hok
    obtain ⟨-, ⟨-, hsame, -⟩ | ⟨stop, -, -, -, -, -, a', hsound, hclosed⟩⟩ :=
      h.processIntrabarStop_cases hprocessed
    · exact ⟨a, hsame ▸ h, .kept⟩
    · exact ⟨a', hsound, hclosed.open_ ▸ .ended⟩
  | setStop observedAt stopPrice activeAfter reason sourceId =>
    obtain ⟨⟨stop, db₁⟩, hset, rfl⟩ := Except.map_eq_ok.mp hok
    obtain ⟨-, ⟨hsame, -⟩ | ⟨hsame, -⟩ | ⟨-, a', hsound, hadds⟩⟩ :=
      h.setStop_cases hfee hslippage hset
    · exact ⟨a, hsame ▸ h, .kept⟩
    · exact ⟨a, hsame ▸ h, .kept⟩
    · exact ⟨a', hsound, hadds.protection⟩
  | observePosition id candleHighs initialStop => exact hsame (h.observePosition hok)
  | record eventId occurredAt payload hforeign => exact hsame (h.foreign hforeign hok)

end

/-- Every run whose calls the verifier can follow leads to a sound database. -/
theorem Run.sound {db : Database} (h : Run (fun db call => call.Distinct db) db) :
    ∃ a, Sound db a ∧ InOrder a.stops.open_ := by
  induction h with
  | start => exact ⟨_, sound_empty, List.Pairwise.nil⟩
  | @call db costs call _ hfee hslippage hdistinct ih =>
    obtain ⟨a, hsound, horder⟩ := ih
    unfold Call.apply
    split
    · rename_i db' hok
      obtain ⟨a', hsound', hstops⟩ := hsound.run hfee hslippage hdistinct hok
      exact ⟨a', hsound', hstops.inOrder horder⟩
    · exact ⟨a, hsound, horder⟩

/-- The verifier accepts every database that a run leads to. -/
theorem buildLedger_of_run {db : Database} (h : Run (fun db call => call.Distinct db) db) :
    ∃ ledger, buildLedger db = .ok ledger := by
  obtain ⟨a, hsound, -⟩ := h.sound
  exact ⟨_, hsound.ledger⟩

/-- The database after an entry is accepted with its sizing evidence. -/
def entered (reason : String) : Database :=
  Call.apply {} (Call.apply {} {} (.record (.risk 0) 0
      (.breakerState (.valid 1 { lastRiskAt := some 0 })) rfl))
    (.submitEntry 0 (3849 / 10000) reason (some gapContext))

/-- The opening of the entry at the price of its signal. -/
def openEntry (reason : String) : Call :=
  .processOpen (orderIdentity 0 .buy reason none).orderId fourHours 100 none

/-- An entry that is admitted at the open extends the run. -/
theorem Run.openEntry {admits : Database → Call → Prop} {reason : String}
    (hadmits : ∀ db call, call.Distinct db → admits db call)
    (hopen : admits (entered reason) (openEntry reason)) :
    Run admits ((openEntry reason).apply {} (entered reason)) := by
  have hfee : 0 ≤ ({} : CostConfig).feeRate := by decide +kernel
  have hslippage : 0 ≤ ({} : CostConfig).slippageRate := by decide +kernel
  have hentered : Run admits (entered reason) :=
    .call (.call .start hfee hslippage (hadmits _ _ trivial)) hfee hslippage (hadmits _ _ trivial)
  exact .call hentered hfee hslippage hopen

/-- An entry with an ordinary reason opens completely and is accepted. -/
theorem buildLedger_of_run_entry :
    ∃ ledger, buildLedger ((openEntry "ENTRY").apply {} (entered "ENTRY")) = .ok ledger := by
  refine buildLedger_of_run (Run.openEntry (fun _ _ h => h) ?_)
  intro ledger hledger order horder _ _ hreason
  have hreasons : (buildLedger (entered "ENTRY")).toOption.all (fun ledger =>
      ledger.orders.all fun order => order.reason = "ENTRY") = true := by
    decide +kernel
  rw [hledger] at hreasons
  have hentry := List.all_eq_true.mp hreasons order (findPaperOrder_some horder).1
  rw [of_decide_eq_true hentry] at hreason
  exact absurd hreason (by decide)

/-- The same entry with the reason of a cut makes the verifier refuse the account. -/
theorem not_buildLedger_of_execution_cap :
    ¬∀ db, Run (fun _ _ => True) db → ∃ ledger, buildLedger db = .ok ledger := by
  intro hall
  obtain ⟨ledger, hledger⟩ := hall _ (@Run.openEntry _ "EXECUTION_CAP"
    (fun _ _ _ => trivial) trivial)
  have hrefused : (buildLedger ((openEntry "EXECUTION_CAP").apply {}
      (entered "EXECUTION_CAP"))).isOk = false := by
    decide +kernel
  rw [hledger] at hrefused
  cases hrefused

/-! ## Refusal -/

/-- A log that the verifier refuses, whatever other components record after it. -/
def Refused (log : List StoredEvent) : Prop :=
  ∀ db block, (∀ e ∈ block, isForeign e.payload = true) → db.events = log ++ block →
    ∀ ledger, buildLedger db ≠ .ok ledger

/-- What other components record is no evidence of an order. -/
theorem view_foreign {α : Type} {read : Payload → Option α} {block : List StoredEvent}
    (hforeign : ∀ e ∈ block, isForeign e.payload = true)
    (hread : ∀ payload, isForeign payload = true → read payload = none) : view read block = [] := by
  rw [view, List.filterMap_eq_nil_iff]
  intro e he
  simp [stamp, hread _ (hforeign e he)]

/-- A complete fill of a bound entry whose reason is that of a cut is refused for good. -/
theorem Coherent.refused {log : List StoredEvent} {a : Account} (h : Coherent log a)
    {order : PaperOrder} (horder : order ∈ a.orders)
    {context : EntryContext} (hcontext : order.executionContext = some context)
    (hreason : order.reason = "EXECUTION_CAP") {pre : List StoredEvent}
    (hpre : ExecutionsOf order.orderId pre) {n : ℕ} {fill : PaperFill} {reason : String}
    (hid : fill.orderId = order.orderId) (hquantity : fill.quantity = order.requestedQuantity) :
    Refused (log ++ (pre ++ fillBlock n order fill true reason)) := by
  intro db block hforeign hevents ledger hledger
  obtain ⟨scan, horders, -, hscan, -, -⟩ := buildLedger_inv hledger
  obtain ⟨m, hm, hok, -⟩ := h.metadata horder
  obtain ⟨-, binding, -, hbinding, hvalid⟩ := h.buy_of_context horder hcontext
  have hbound : contextOf db.events order.orderId = some binding := by
    rw [hevents, List.append_assoc]
    exact find_append_of_some hbinding
  -- the metadata of the log is all there is
  have hmetas : view readOrderMetadata db.events = view readOrderMetadata log := by
    rw [hevents, view_append, view_append, view_append, hpre.view_eq_nil (fun _ => rfl),
      fillBlock_other _ _ _ _ _ (fun _ => rfl) (fun _ => rfl) (fun _ => rfl),
      view_foreign hforeign (fun payload hp => by cases payload <;> simp_all
        [isForeign, readOrderMetadata])]
    simp
  have hterminal : terminalReason db.events order.orderId = some "EXECUTION_CAP" := by
    have hlater : transitionsOf block order.orderId = [] := by
      rw [transitionsOf, view_foreign hforeign
        (fun payload hp => by cases payload <;> simp_all [isForeign, readTransition]),
        List.filter_nil]
    have hbefore : transitionsOf pre order.orderId = [] := by
      rw [transitionsOf, hpre.view_eq_nil (fun _ => rfl), List.filter_nil]
    rw [terminalReason, hevents, transitionsOf_append_block, transitionsOf_append_block,
      transitionsOf_append_block, hlater, hbefore, fillBlock_transitions, List.append_nil,
      List.nil_append, List.getLast?_append, ← hreason]
    rfl
  -- the order that the verifier meets
  have hall := mapM_eq_ok.mp horders
  obtain ⟨met, hmet, hmetOk⟩ := forall₂_exists_right hall (by rw [hmetas]; exact hm)
  have hmetId : met.orderId = order.orderId := by
    rw [orderFromMetadata_orderId hmetOk, orderFromMetadata_orderId hok]
  obtain ⟨found, hfound⟩ := findPaperOrder_isSome hmet
  obtain ⟨hfoundMem, hfoundId⟩ := findPaperOrder_some hfound
  obtain ⟨m', hm', hfoundOk⟩ := forall₂_exists_left hall hfoundMem
  have hsame : m' = m := by
    rw [hmetas] at hm'
    exact List.inj_on_of_nodup_map h.metadata_nodup hm' hm (by
      rw [← orderFromMetadata_orderId hfoundOk, hfoundId, hmetId, orderFromMetadata_orderId hok])
  subst hsame
  rw [hmetId] at hfound hfoundId
  obtain ⟨hmetContext, hmetQuantity⟩ : found.executionContext = some context ∧
      found.requestedQuantity = order.requestedQuantity := by
    have hmId := orderFromMetadata_orderId hok
    obtain ⟨_, bound, _, _, _, _, _, _, -, hboundOk, -, -, -, -, -, rfl⟩ :=
      orderFromMetadata_eq_ok.mp hfoundOk
    obtain ⟨_, _, _, _, _, _, _, _, -, -, -, -, -, -, -, heq⟩ := orderFromMetadata_eq_ok.mp hok
    refine ⟨?_, by rw [heq]; rfl⟩
    rw [← hmId, hbound] at hboundOk
    rcases optionMapM_eq_ok.mp hboundOk with ⟨hnone, -⟩ | ⟨_, _, hsome, hboundValid, heqBound⟩
    · cases hnone
    · cases hsome
      rw [hvalid, Except.ok.injEq] at hboundValid
      change bound = some context
      rw [heqBound, hboundValid]
  -- its fill is complete, and yet taken for a cut
  have hraw : (⟨n + 1, fill.fillId, fill.fillTime, fill.raw⟩ : Stamped RawFill) ∈
      view readFill db.events := by
    rw [hevents, view_append, view_append, view_append, fillBlock_fill]
    simp
  obtain ⟨t, t', hround⟩ := foldlM_round hscan hraw
  have hrawId : findPaperOrder ledger.orders fill.raw.orderId = some found := by
    rw [show fill.raw.orderId = order.orderId from hid]
    exact hfound
  simp only [scanFill, hrawId, validateEntryFill, hmetContext, Except.bind_eq_ok] at hround
  obtain ⟨_, hvalidFill, -⟩ := hround
  simp only [validateBoundFill, hfoundId, Except.bind_eq_ok, reject_eq_ok] at hvalidFill
  obtain ⟨_, -, _, -, hcut⟩ := hvalidFill
  apply hcut
  refine ⟨hterminal, ?_⟩
  rintro ⟨hlt, heq⟩
  change fill.quantity = _ at heq
  rw [← heq, hquantity, hmetQuantity] at hlt
  exact lt_irrefl _ hlt

end AutoBit.Broker
