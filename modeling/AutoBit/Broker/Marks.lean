import AutoBit.Broker.Observations

/-!
# What the operations fill and order

Each operation is told apart by its marks in the log: the fills that it appends, and the
market orders without a parent. A fill that is returned is the one that was appended, and an
order that is returned was appended or was there for the same signal.
-/

namespace AutoBit.Broker

open Library Store Strategy

/-- A market order without a parent. -/
def isRoot (metadata : OrderMetadata) : Bool :=
  metadata.orderKind = .market ∧ metadata.parentOrderId = none

/-- The orders that are filled in a log, and when. -/
def fillMarks (log : List StoredEvent) : List (PaperId × ℤ) :=
  (view readFill log).map fun fill => (fill.body.orderId, fill.occurredAtUtc)

/-- The market orders without a parent in a log, and their signals. -/
def rootMarks (log : List StoredEvent) : List (PaperId × ℤ) :=
  ((view readOrderMetadata log).filter fun metadata => isRoot metadata.body).map
    fun metadata => (metadata.body.orderId, metadata.body.signalAtUtc)

/-- A database that has these fills and orders more. -/
structure Marks (fills roots : List (PaperId × ℤ)) (db db' : Database) : Prop where
  fills : fillMarks db'.events = fillMarks db.events ++ fills
  roots : rootMarks db'.events = rootMarks db.events ++ roots

section

variable {fills fills' roots roots' : List (PaperId × ℤ)} {db db' db'' : Database}

/-- The fills of a longer log are those of its parts. -/
theorem fillMarks_append (log block : List StoredEvent) :
    fillMarks (log ++ block) = fillMarks log ++ fillMarks block := by
  rw [fillMarks, view_append, List.map_append]
  rfl

/-- The orders that a longer log places are those of its parts. -/
theorem rootMarks_append (log block : List StoredEvent) :
    rootMarks (log ++ block) = rootMarks log ++ rootMarks block := by
  rw [rootMarks, view_append, List.filter_append, List.map_append]
  rfl

/-- A database that stays as it is gets no marks. -/
theorem Marks.refl (db : Database) : Marks [] [] db db := ⟨by simp, by simp⟩

/-- The marks of two stretches are those of both together. -/
theorem Marks.trans (h : Marks fills roots db db') (h' : Marks fills' roots' db' db'') :
    Marks (fills ++ fills') (roots ++ roots') db db'' :=
  ⟨by rw [h'.fills, h.fills, List.append_assoc], by rw [h'.roots, h.roots, List.append_assoc]⟩

/-- Marks stay the same when nothing is marked after them. -/
theorem Marks.then_nothing (h : Marks fills roots db db') (h' : Marks [] [] db' db'') :
    Marks fills roots db db'' := by
  simpa using h.trans h'

/-- Marks stay the same when nothing is marked before them. -/
theorem Marks.after_nothing (h : Marks [] [] db db') (h' : Marks fills roots db' db'') :
    Marks fills roots db db'' := h.trans h'

instance : Std.Refl (Marks [] []) := ⟨Marks.refl⟩

instance : IsTrans Database (Marks [] []) := ⟨fun _ _ _ => Marks.then_nothing⟩

/-- The marks of one appended event. -/
theorem marks_of_appended {eventId : EventId} {occurredAt : ℤ} {payload : Payload}
    (h : Appended db eventId occurredAt payload db') :
    Marks (fillMarks [⟨0, eventId, occurredAt, payload⟩])
      (rootMarks [⟨0, eventId, occurredAt, payload⟩]) db db' := by
  refine ⟨?_, ?_⟩
  · rw [h.events, fillMarks_append]
    congr 1
    simp only [fillMarks, view, List.filterMap_cons, stamp, Database.nextEvent]
    cases readFill payload <;> rfl
  · rw [h.events, rootMarks_append]
    congr 1
    simp only [rootMarks, view, List.filterMap_cons, stamp, Database.nextEvent]
    cases hread : readOrderMetadata payload with
    | none => rfl
    | some metadata => cases hroot : isRoot metadata <;> simp [hroot]

/-- An event that is neither a fill nor an order. -/
def Unmarked (payload : Payload) : Prop :=
  readFill payload = none ∧ readOrderMetadata payload = none

/-- Growth by unmarked payloads marks nothing. -/
theorem marks_of_grows (h : Grows Unmarked db db') : Marks [] [] db db' := by
  refine ⟨?_, ?_⟩
  · rw [fillMarks, h.view_eq fun _ hkind => hkind.1, List.append_nil]
    rfl
  · rw [rootMarks, h.view_eq fun _ hkind => hkind.2, List.append_nil]
    rfl

/-- A transition of an order marks nothing. -/
theorem marks_of_transition {orderId : PaperId} {key : Key} {status : OrderStatus}
    {occurredAt : ℤ} {reason : Option String} {isNew : Bool}
    (h : transitionOrderStatus db orderId key status occurredAt reason = .ok (isNew, db')) :
    Marks [] [] db db' :=
  marks_of_grows (grows_of_transition h fun _ => ⟨rfl, rfl⟩)

/-- An appended event with an unmarked payload marks nothing. -/
theorem marks_of_appendEvent {eventId : EventId} {occurredAt : ℤ} {payload : Payload}
    (h : appendEvent db eventId occurredAt payload = .ok db') (hkind : Unmarked payload) :
    Marks [] [] db db' :=
  marks_of_grows (grows_of_appendEvent h hkind)

end

/-! ## Orders -/

section Orders

variable {db db' : Database}

/-- The order that a submission comes to is there, or is appended. -/
theorem submitOrder_marks {s : Submission} {order : PaperOrder}
    (h : submitOrder db s = .ok (order, db')) :
    Marks [] [] db db' ∧ (∃ ledger, buildLedger db = .ok ledger ∧
        findPaperOrder ledger.orders s.key.orderId = some order) ∨
      Marks [] (if isRoot s.metadata then [(s.key.orderId, s.key.signalAt)] else [])
        db db' ∧ order.orderId = s.key.orderId := by
  simp only [submitOrder, Except.bind_eq_ok] at h
  obtain ⟨⟨isNew, recorded⟩, hrecorded, h⟩ := h
  dsimp only at h
  rcases recordOrderOnce_cases hrecorded with ⟨rfl, rfl, -⟩ | ⟨rfl, -, -, happended⟩
  · simp only [if_true, Except.bind_eq_ok, Except.pure_eq_ok, Prod.mk.injEq, require_eq_ok] at h
    obtain ⟨ledger, hledger, existing, hfound, rfl, rfl⟩ := h
    exact Or.inl ⟨Marks.refl _, ledger, hledger, hfound⟩
  · simp only [Bool.true_eq_false, if_false, Except.bind_eq_ok, Except.pure_eq_ok,
      Prod.mk.injEq] at h
    obtain ⟨⟨_, submitted⟩, hsubmitted, ⟨_, accepted⟩, haccepted, final, happend, rfl, rfl⟩ := h
    refine Or.inr ⟨?_, rfl⟩
    have hcreated : Marks [] [] db recorded := marks_of_appended happended
    have hmetadata := marks_of_appended (appendEvent_appended happend)
    have hmarks : rootMarks [⟨0, .orderMeta s.key.orderId, s.occurredAt, .paperOrder s.metadata⟩] =
        if isRoot s.metadata then [(s.key.orderId, s.key.signalAt)] else [] := by
      simp only [rootMarks, view, List.filterMap_cons, List.filterMap_nil, stamp, readOrderMetadata,
        Option.map_some]
      split
      · rename_i hroot
        rw [List.filter_cons_of_pos (by simpa using hroot)]
        rfl
      · rename_i hroot
        rw [List.filter_cons_of_neg (by simpa using hroot)]
        rfl
    rw [hmarks] at hmetadata
    exact ((hcreated.after_nothing (marks_of_transition hsubmitted)).after_nothing
      (marks_of_transition haccepted)).after_nothing hmetadata

/-- An order that is no root leaves no mark. -/
theorem submitOrder_unmarked {s : Submission} {order : PaperOrder}
    (h : submitOrder db s = .ok (order, db')) (hparent : s.parent ≠ none) :
    Marks [] [] db db' := by
  rcases submitOrder_marks h with ⟨hmarks, -⟩ | ⟨hmarks, -⟩
  · exact hmarks
  · rwa [if_neg (by simp [isRoot, Submission.metadata, hparent])] at hmarks

/-- A binding of an entry context marks nothing, and returns the order that it names. -/
theorem bindEntryContext_marks {id : PaperId} {context : EntryContext} {order : PaperOrder}
    (h : bindEntryContext db id context = .ok (order, db')) :
    Marks [] [] db db' ∧ order.orderId = id := by
  have horder : ∀ {db : Database} {order : PaperOrder}, orderById db id = .ok order →
      order.orderId = id := by
    intro db order horder
    simp only [orderById, Except.bind_eq_ok, require_eq_ok] at horder
    obtain ⟨_, -, _, -, hfound⟩ := horder
    exact (findPaperOrder_some hfound).2
  simp only [bindEntryContext, Except.bind_eq_ok] at h
  obtain ⟨_, -, found, hfound, h⟩ := h
  split at h
  · simp only [Except.bind_eq_ok, Except.pure_eq_ok, Prod.mk.injEq] at h
    obtain ⟨_, -, rfl, rfl⟩ := h
    exact ⟨Marks.refl _, horder hfound⟩
  · simp only [Except.bind_eq_ok, Except.pure_eq_ok, Prod.mk.injEq] at h
    obtain ⟨_, -, _, -, _, -, bound, happend, again, hagain, rfl, rfl⟩ := h
    exact ⟨marks_of_appendEvent happend ⟨rfl, rfl⟩, horder hagain⟩

/-- An optional entry context marks nothing, and leaves the identity of the order. -/
theorem bindOptional_marks {order bound : PaperOrder} {context : Option EntryContext}
    (h : bindOptional db order context = .ok (bound, db')) :
    Marks [] [] db db' ∧ bound.orderId = order.orderId := by
  cases context with
  | none =>
    cases h
    exact ⟨Marks.refl _, rfl⟩
  | some context => exact bindEntryContext_marks h

/-- An order of an accepted ledger without a parent is a market order in the log. -/
theorem root_of_ledger {ledger : Ledger} (hledger : buildLedger db = .ok ledger)
    {order : PaperOrder} (horder : findPaperOrder ledger.orders order.orderId = some order)
    (hparent : order.parentOrderId = none) :
    (order.orderId, order.signalAtUtc) ∈ rootMarks db.events := by
  obtain ⟨m, hm, hfrom, -⟩ := metadata_of_ledger hledger horder
  obtain ⟨_, _, _, _, _, _, _, _, -, -, hvalid, -, -, -, -, rfl⟩ := orderFromMetadata_eq_ok.mp hfrom
  refine List.mem_map.mpr ⟨m, List.mem_filter.mpr ⟨hm, ?_⟩, rfl⟩
  have hparent : m.body.parentOrderId = none := hparent
  simp only [validateMetadata, Except.bind_eq_ok] at hvalid
  obtain ⟨_, -, _, -, _, -, _, -, _, -, _, -, _, -, _, hkind, -⟩ := hvalid
  cases horderKind : m.body.orderKind with
  | market => simp [isRoot, horderKind, hparent]
  | stop => simp [validateKind, horderKind, hparent, reject] at hkind

/-- The order that an entry or an exit comes to was there for its signal, or is appended. -/
theorem submitRoot_marks {s : Submission} (hmarket : s.orderKind = .market) (hparent : s.parent = none)
    {ledger : Ledger} (hledger : buildLedger db = .ok ledger)
    (hnew : findPaperOrder ledger.orders s.key.orderId = none) {order : PaperOrder}
    (h : submitOrder db s = .ok (order, db')) :
    Marks [] [(order.orderId, s.key.signalAt)] db db' := by
  rcases submitOrder_marks h with ⟨-, found, hfound, hexisting⟩ | ⟨hmarks, hid⟩
  · cases hledger.symm.trans hfound
    cases hnew.symm.trans hexisting
  · rw [if_pos (by simp [isRoot, Submission.metadata, hmarket, hparent])] at hmarks
    rwa [hid]

/-- An entry marks its order, unless the order was there before. -/
theorem submitEntry_marks {costs : CostConfig} {signalAt : ℤ} {quantity : ℚ} {reason : String}
    {context : Option EntryContext} {order : PaperOrder}
    (h : submitEntry costs db signalAt quantity reason context = .ok (order, db')) :
    Marks [] [] db db' ∧ (order.orderId, signalAt) ∈ rootMarks db.events ∨
      Marks [] [(order.orderId, signalAt)] db db' := by
  simp only [submitEntry, Except.bind_eq_ok] at h
  obtain ⟨_, -, _, -, ledger, hledger, h⟩ := h
  split at h
  · rename_i existing hexisting
    simp only [Except.bind_eq_ok, assertSameOrder, reject_eq_ok, not_not] at h
    obtain ⟨_, ⟨-, -, -, hsignal, -, hparent⟩, hbound⟩ := h
    obtain ⟨hmarks, hid⟩ := bindOptional_marks hbound
    rw [← (findPaperOrder_some hexisting).2] at hexisting
    exact Or.inl ⟨hmarks, hid ▸ hsignal ▸ root_of_ledger hledger hexisting hparent⟩
  · rename_i hnew
    simp only [Except.bind_eq_ok] at h
    obtain ⟨_, -, _, -, ⟨submitted, placed⟩, hsubmitted, hbound⟩ := h
    obtain ⟨hmarks, hid⟩ := bindOptional_marks hbound
    have hroot := submitRoot_marks rfl rfl hledger hnew hsubmitted
    rw [hid]
    exact Or.inr (hroot.then_nothing hmarks)

/-- An exit marks its order, unless the order was there before. -/
theorem submitExit_marks {costs : CostConfig} {signalAt : ℤ} {quantity owned : ℚ} {reason : String}
    {order : PaperOrder}
    (h : submitExit costs db signalAt quantity owned reason none = .ok (order, db')) :
    Marks [] [] db db' ∧ (order.orderId, signalAt) ∈ rootMarks db.events ∨
      Marks [] [(order.orderId, signalAt)] db db' := by
  simp only [submitExit, Except.bind_eq_ok] at h
  obtain ⟨_, -, _, -, _, -, ledger, hledger, h⟩ := h
  split at h
  · rename_i existing hexisting
    simp only [Except.bind_eq_ok, assertSameOrder, reject_eq_ok, not_not, Except.pure_eq_ok,
      Prod.mk.injEq] at h
    obtain ⟨_, ⟨-, -, -, hsignal, -, hparent⟩, rfl, rfl⟩ := h
    rw [← (findPaperOrder_some hexisting).2] at hexisting
    exact Or.inl ⟨Marks.refl _, hsignal ▸ root_of_ledger hledger hexisting hparent⟩
  · rename_i hnew
    simp only [Except.bind_eq_ok] at h
    obtain ⟨_, -, _, -, _, -, _, -, _, -, hsubmitted⟩ := h
    exact Or.inr (submitRoot_marks rfl rfl hledger hnew hsubmitted)

end Orders

/-! ## Fills -/

section Fills

variable {db db' : Database} {candle : ℤ}

/-- A recorded fill is marked when it is new. -/
theorem recordFill_marks {order : PaperOrder} {fill : PaperFill} {isNew : Bool}
    (h : recordFill db order candle fill = .ok (isNew, db')) :
    Marks (if isNew then [(fill.orderId, candle)] else []) [] db db' := by
  simp only [recordFill, Except.bind_eq_ok] at h
  obtain ⟨⟨appended, filled⟩, happended, h⟩ := h
  dsimp only at h
  rcases appendFill_cases happended with ⟨rfl, rfl, -⟩ | ⟨rfl, -, -, -, happended⟩
  · simp only [if_true, Except.pure_eq_ok, Prod.mk.injEq] at h
    obtain ⟨rfl, rfl⟩ := h
    exact Marks.refl _
  · simp only [Bool.true_eq_false, if_false, Except.bind_eq_ok, Except.pure_eq_ok,
      Prod.mk.injEq] at h
    obtain ⟨⟨_, moved⟩, hmoved, described, hdescribed, rfl, rfl⟩ := h
    have hfill : Marks [(fill.orderId, candle)] [] db filled := marks_of_appended happended
    exact (hfill.then_nothing (marks_of_transition hmoved)).then_nothing
      (marks_of_appendEvent hdescribed ⟨rfl, rfl⟩)

/-- A remainder that is canceled marks nothing. -/
theorem cancelRemainder_marks {order : PaperOrder} {quantity : ℚ} {capped : Bool}
    (h : cancelRemainder db order candle quantity capped = .ok db') : Marks [] [] db db' := by
  simp only [cancelRemainder, Except.bind_eq_ok] at h
  obtain ⟨⟨_, canceled⟩, hcanceled, h⟩ := h
  have hcanceled := marks_of_transition hcanceled
  dsimp only at h
  split at h
  · cases h
    exact hcanceled
  · simp only [Except.bind_eq_ok, Except.pure_eq_ok] at h
    obtain ⟨_, -, _, -, _, -, ⟨_, placed⟩, hplaced, rfl⟩ := h
    exact hcanceled.then_nothing (submitOrder_unmarked hplaced (by simp [remainderChild]))

/-- A stop that is deactivated is unmarked growth. -/
theorem deactivateStop_marks {stop : PaperStop} {at_ : ℤ} {action : StopAction} {id : PaperId}
    (h : deactivateStop db stop at_ action id = .ok db') : Grows Unmarked db db' :=
  grows_of_appendEvent h ⟨rfl, rfl⟩

/-- Protection that is canceled marks nothing. -/
theorem cancelProtection_marks {order : PaperOrder} {stops : List PaperStop}
    (h : cancelProtection db order candle stops = .ok db') : Marks [] [] db db' := by
  simp only [cancelProtection] at h
  split at h
  · rw [Except.bind_eq_ok] at h
    obtain ⟨snapshot, -, h⟩ := h
    split at h
    · exact marks_of_grows (grows_of_foldlM (fun _ _ _ => deactivateStop_marks) h)
    · cases h
      exact Marks.refl _
  · cases h
    exact Marks.refl _

/-- A capped execution marks nothing. -/
theorem capExecution_marks {order : PaperOrder} {reference price cash quantity : ℚ}
    {result : Database × ℚ × Bool}
    (h : capExecution db order candle reference price cash quantity = .ok result) :
    Marks [] [] db result.1 := by
  unfold capExecution at h
  split at h
  · cases h
    exact Marks.refl _
  · simp only [Except.bind_eq_ok, Except.pure_eq_ok] at h
    obtain ⟨executed, hexecuted, rfl⟩ := h
    exact marks_of_appendEvent hexecuted ⟨rfl, rfl⟩

/-- The fills that an operation returns. -/
def returned (fill : Option PaperFill) (candle : ℤ) : List (PaperId × ℤ) :=
  fill.toList.map fun fill => (fill.orderId, candle)

/-- An order that is processed marks the fill that it returns. -/
theorem processOrder_marks {order : PaperOrder} {reference : ℚ} {actual : Option ℚ}
    {stops : List PaperStop} {fill : Option PaperFill}
    (h : processOrder db order candle reference actual stops = .ok (fill, db')) :
    Marks (returned fill candle) [] db db' := by
  simp only [processOrder, Except.bind_eq_ok] at h
  obtain ⟨_, -, _, -, snapshot, -, ⟨executed, quantity, capped⟩, hexecuted, h⟩ := h
  have hexecuted := capExecution_marks hexecuted
  dsimp only at h
  split at h
  · simp only [Except.bind_eq_ok, Except.pure_eq_ok, Prod.mk.injEq] at h
    obtain ⟨⟨_, ended⟩, hended, rfl, rfl⟩ := h
    exact hexecuted.then_nothing (marks_of_transition hended)
  split at h
  · simp only [Except.bind_eq_ok, Except.pure_eq_ok, Prod.mk.injEq] at h
    obtain ⟨⟨_, ended⟩, hended, rfl, rfl⟩ := h
    exact hexecuted.then_nothing (marks_of_transition hended)
  simp only [Except.bind_eq_ok] at h
  obtain ⟨_, -, ⟨isNew, recorded⟩, hrecorded, h⟩ := h
  have hrecorded := hexecuted.after_nothing (recordFill_marks hrecorded)
  cases isNew with
  | false =>
    simp only [if_true, Except.pure_eq_ok, Prod.mk.injEq] at h
    obtain ⟨rfl, rfl⟩ := h
    exact hrecorded
  | true =>
    simp only [Bool.true_eq_false, if_false] at h
    split at h
    · simp only [Except.bind_eq_ok, Except.pure_eq_ok, Prod.mk.injEq] at h
      obtain ⟨_, rfl, final, hfinal, rfl, rfl⟩ := h
      exact hrecorded.then_nothing (cancelProtection_marks hfinal)
    · simp only [Except.bind_eq_ok, Except.pure_eq_ok, Prod.mk.injEq] at h
      obtain ⟨canceled, hcanceled, final, hfinal, rfl, rfl⟩ := h
      exact (hrecorded.then_nothing (cancelRemainder_marks hcanceled)).then_nothing
        (cancelProtection_marks hfinal)

/-- A fill that `process_open` returns is the one that it appends. -/
theorem processOpen_marks {id : PaperId} {openPrice : ℚ} {actual : Option ℚ}
    {fill : Option PaperFill} (h : processOpen db id candle openPrice actual = .ok (fill, db')) :
    Marks (returned fill candle) [] db db' := by
  simp only [processOpen, Except.bind_eq_ok] at h
  obtain ⟨_, -, _, -, _, -, ledger, -, order, -, h⟩ := h
  split at h
  · simp only [Except.pure_eq_ok, Prod.mk.injEq] at h
    obtain ⟨rfl, rfl⟩ := h
    exact Marks.refl _
  · simp only [Except.bind_eq_ok] at h
    obtain ⟨_, -, _, -, _, -, _, -, hprocessed⟩ := h
    exact processOrder_marks hprocessed

/-- A fill that `process_intrabar_stop` returns is the one that it appends. -/
theorem processIntrabarStop_marks {openPrice lowPrice : ℚ} {fill : Option PaperFill}
    (h : processIntrabarStop db candle openPrice lowPrice = .ok (fill, db')) :
    Marks (returned fill candle) [] db db' := by
  simp only [processIntrabarStop, Except.bind_eq_ok] at h
  obtain ⟨_, -, _, -, _, -, _, -, ledger, -, h⟩ := h
  split at h
  · simp only [Except.pure_eq_ok, Prod.mk.injEq] at h
    obtain ⟨rfl, rfl⟩ := h
    exact Marks.refl _
  split at h
  · simp only [Except.pure_eq_ok, Prod.mk.injEq] at h
    obtain ⟨rfl, rfl⟩ := h
    exact Marks.refl _
  simp only [Except.bind_eq_ok, Except.pure_eq_ok, Prod.mk.injEq] at h
  obtain ⟨_, -, _, -, ⟨order, submitted⟩, hsubmitted, ⟨_, processed⟩, hprocessed, final, hended,
    rfl, rfl⟩ := h
  have hsubmitted := submitOrder_unmarked hsubmitted (by simp [stopSubmission])
  exact (hsubmitted.after_nothing (processOrder_marks hprocessed)).then_nothing
    (marks_of_grows (grows_of_foldlM (fun _ _ _ => deactivateStop_marks) hended))

end Fills

/-! ## The fills of a ledger -/

/-- A log has the metadata of an order. -/
def Described (log : List StoredEvent) (id : PaperId) : Prop :=
  ∃ m ∈ view readOrderMetadata log, m.body.orderId = id

section Described

variable {db db' : Database} {candle : ℤ}

/-- An order that is described stays described when the log grows. -/
theorem Described.grows {kind : Payload → Prop} {id : PaperId} (h : Described db.events id)
    (hgrows : Grows kind db db') : Described db'.events id := by
  obtain ⟨m, hm, hid⟩ := h
  obtain ⟨block, hevents, -⟩ := hgrows
  refine ⟨m, ?_, hid⟩
  rw [hevents, view_append]
  exact List.mem_append_left _ hm

/-- The orders of a ledger are described by its log. -/
theorem described_of_ledger {ledger : Ledger} (hledger : buildLedger db = .ok ledger) {id : PaperId}
    {order : PaperOrder} (horder : findPaperOrder ledger.orders id = some order) :
    Described db.events order.orderId := by
  obtain ⟨m, hm, hfrom, -⟩ := metadata_of_ledger hledger horder
  exact ⟨m, hm, (orderFromMetadata_orderId hfrom).symm⟩

/-- A submitted order is described. -/
theorem submitOrder_described {s : Submission} {order : PaperOrder}
    (h : submitOrder db s = .ok (order, db')) : Described db'.events order.orderId := by
  simp only [submitOrder, Except.bind_eq_ok] at h
  obtain ⟨⟨isNew, recorded⟩, -, h⟩ := h
  dsimp only at h
  split at h
  · simp only [Except.bind_eq_ok, Except.pure_eq_ok, Prod.mk.injEq, require_eq_ok] at h
    obtain ⟨ledger, hledger, existing, hfound, rfl, rfl⟩ := h
    exact described_of_ledger hledger hfound
  · simp only [Except.bind_eq_ok, Except.pure_eq_ok, Prod.mk.injEq] at h
    obtain ⟨_, -, _, -, final, happend, rfl, rfl⟩ := h
    have hmem : ∃ m ∈ view readOrderMetadata final.events, m.body = s.metadata := by
      rw [(appendEvent_appended happend).events, view_append]
      exact ⟨_, List.mem_append_right _ (List.mem_singleton.mpr rfl), rfl⟩
    obtain ⟨m, hm, hbody⟩ := hmem
    exact ⟨m, hm, by rw [hbody]; rfl⟩

/-- The fill that an order returns is a fill of it. -/
theorem processOrder_returned {order : PaperOrder} {reference : ℚ} {actual : Option ℚ}
    {stops : List PaperStop} {fill : PaperFill}
    (h : processOrder db order candle reference actual stops = .ok (some fill, db')) :
    fill.orderId = order.orderId := by
  simp only [processOrder, Except.bind_eq_ok] at h
  obtain ⟨_, -, _, -, snapshot, -, ⟨executed, quantity, capped⟩, -, h⟩ := h
  dsimp only at h
  split at h
  · simp at h
  split at h
  · simp at h
  simp only [Except.bind_eq_ok] at h
  obtain ⟨_, -, ⟨isNew, recorded⟩, -, h⟩ := h
  split at h
  · simp at h
  split at h
  · simp only [Except.bind_eq_ok, Except.pure_eq_ok, Prod.mk.injEq, Option.some.injEq] at h
    obtain ⟨_, -, _, -, rfl, -⟩ := h
    rfl
  · simp only [Except.bind_eq_ok, Except.pure_eq_ok, Prod.mk.injEq, Option.some.injEq] at h
    obtain ⟨_, -, _, -, rfl, -⟩ := h
    rfl

/-- The order of a fill at an open is described. -/
theorem processOpen_described {id : PaperId} {openPrice : ℚ} {actual : Option ℚ} {fill : PaperFill}
    (h : processOpen db id candle openPrice actual = .ok (some fill, db')) :
    Described db'.events fill.orderId := by
  have hgrows := processOpen_grows h
  simp only [processOpen, Except.bind_eq_ok, require_eq_ok] at h
  obtain ⟨_, -, _, -, _, -, ledger, hledger, order, horder, h⟩ := h
  split at h
  · simp at h
  · simp only [Except.bind_eq_ok] at h
    obtain ⟨_, -, _, -, _, -, _, -, hprocessed⟩ := h
    rw [processOrder_returned hprocessed]
    exact (described_of_ledger hledger horder).grows hgrows

/-- The order of a fill within a bar is described. -/
theorem processIntrabarStop_described {openPrice lowPrice : ℚ} {fill : PaperFill}
    (h : processIntrabarStop db candle openPrice lowPrice = .ok (some fill, db')) :
    Described db'.events fill.orderId := by
  simp only [processIntrabarStop, Except.bind_eq_ok] at h
  obtain ⟨_, -, _, -, _, -, _, -, ledger, -, h⟩ := h
  split at h
  · simp at h
  split at h
  · simp at h
  simp only [Except.bind_eq_ok, Except.pure_eq_ok, Prod.mk.injEq] at h
  obtain ⟨_, -, _, -, ⟨order, submitted⟩, hsubmitted, ⟨_, processed⟩, hprocessed, final, hended,
    rfl, rfl⟩ := h
  rw [processOrder_returned hprocessed]
  exact ((submitOrder_described hsubmitted).grows (processOrder_grows hprocessed)).grows
    (grows_of_foldlM (fun _ _ _ => deactivateStop_marks) hended)

/-- The fills of an accepted ledger are the fills in its log of the orders that it knows. -/
theorem fills_of_marks {ledger : Ledger} (hledger : buildLedger db = .ok ledger) :
    (∀ fill ∈ ledger.fills, (fill.orderId, fill.fillTime) ∈ fillMarks db.events) ∧
      ∀ id at_, (id, at_) ∈ fillMarks db.events → Described db.events id →
        ∃ fill ∈ ledger.fills, fill.orderId = id := by
  obtain ⟨scan, -, -, hscan, hfills, -⟩ := buildLedger_inv hledger
  obtain ⟨found, hfound, hsame⟩ := scanFills_found hscan
  rw [hfills, hsame, List.nil_append]
  have hread : ∀ {raw order paper}, paperFillOf db.events raw (some order) = .ok (some paper) →
      paper.orderId = raw.body.orderId ∧ paper.fillTime = raw.occurredAtUtc := by
    intro raw order paper hpaper
    simp only [paperFillOf, Except.bind_eq_ok, Except.pure_eq_ok, Option.some.injEq] at hpaper
    obtain ⟨_, -, _, hread, rfl⟩ := hpaper
    simp only [paperFillFromEvidence, Except.bind_eq_ok, Except.pure_eq_ok] at hread
    obtain ⟨_, -, _, -, _, -, _, -, _, -, rfl⟩ := hread
    exact ⟨rfl, rfl⟩
  constructor
  · intro paper hpaper
    obtain ⟨result, hresult, hmem⟩ := List.mem_flatMap.mp hpaper
    obtain rfl : result = some paper := by simpa using hmem
    obtain ⟨raw, hraw, hpaper⟩ := forall₂_exists_left hfound hresult
    cases horder : findPaperOrder ledger.orders raw.body.orderId with
    | none =>
      rw [horder] at hpaper
      cases hpaper
    | some order =>
      rw [horder] at hpaper
      obtain ⟨hid, htime⟩ := hread hpaper
      rw [hid, htime]
      exact List.mem_map_of_mem (f := fun fill : Stamped RawFill =>
        (fill.body.orderId, fill.occurredAtUtc)) hraw
  · rintro id at_ hmark ⟨m, hm, hmid⟩
    obtain ⟨raw, hraw, hmarked⟩ := List.mem_map.mp hmark
    obtain ⟨rfl, rfl⟩ := Prod.mk.inj hmarked
    obtain ⟨order, horder, hid⟩ := order_of_metadata hledger hm
    obtain ⟨known, hknown⟩ := findPaperOrder_isSome horder
    rw [hid, hmid] at hknown
    obtain ⟨result, hresult, hpaper⟩ := forall₂_exists_right hfound hraw
    rw [hknown] at hpaper
    cases result with
    | none =>
      simp only [paperFillOf, Except.bind_eq_ok, Except.pure_eq_ok] at hpaper
      obtain ⟨_, -, _, -, hnone⟩ := hpaper
      cases hnone
    | some paper =>
      exact ⟨paper, List.mem_flatMap.mpr ⟨_, hresult, by simp⟩, (hread hpaper).1⟩

end Described

end AutoBit.Broker
