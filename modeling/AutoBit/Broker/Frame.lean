import AutoBit.Broker.Coherence

/-!
# What a block of evidence leaves valid

An operation appends a block of evidence about one order at most, which is new or has
been accepted and nothing more. Everything that the verifier checked about the log so far
rests on other orders, on the terms of that order or on what came before, and so it is
checked again with the same result.
-/

namespace AutoBit.Broker

open Library Store Strategy

/-- The three ways in which an order can stand. -/
theorem orderOutcome_cases {key : OrderKey} {m : Stamped OrderMetadata} {bound : Bool}
    {fills : List (Stamped RawFill)} {fillMetadata : EventId → Option (Stamped FillMetadata)}
    {rest : List (Stamped OrderTransition)} {filled : ℚ} {status : OrderStatus}
    (h : orderOutcome key m bound fills fillMetadata rest = .ok (filled, status)) :
    fills = [] ∧ rest = [] ∧ filled = 0 ∧ status = .accepted ∨
    fills = [] ∧ filled = 0 ∧ (status = .insufficientCash ∨ status = .rejected) ∨
    ∃ fill, fills = [fill] ∧ filled = fill.body.quantity ∧
      (status = .completed ∨ status = .canceled) := by
  unfold orderOutcome at h
  split at h
  · simp only [Except.bind_eq_ok, Except.pure_eq_ok, Prod.mk.injEq] at h
    obtain ⟨found, hfound, rfl, rfl⟩ := h
    unfold validateNoFill at hfound
    split at hfound
    · exact Or.inl ⟨rfl, rfl, rfl, (Except.ok.inj hfound).symm⟩
    · rename_i terminal
      simp only [Except.bind_eq_ok, Except.pure_eq_ok] at hfound
      obtain ⟨_, hterminal, _, -, rfl⟩ := hfound
      refine Or.inr (Or.inl ⟨rfl, rfl, ?_⟩)
      unfold validateNoFillTerminal at hterminal
      split at hterminal
      · rename_i hstatus
        exact Or.inl hstatus
      · rename_i hstatus
        exact Or.inr hstatus
      · cases hterminal
    · cases hfound
  · rename_i fill
    rw [Except.bind_eq_ok] at h
    obtain ⟨_, -, h⟩ := h
    split at h <;> simp only [Except.bind_eq_ok, Except.pure_eq_ok, Prod.mk.injEq] at h <;>
      obtain ⟨found, hfound, rfl, rfl⟩ := h <;>
      refine Or.inr (Or.inr ⟨fill, rfl, rfl, ?_⟩)
    · unfold validateCompleted at hfound
      split at hfound
      · simp only [Except.bind_eq_ok, Except.pure_eq_ok] at hfound
        obtain ⟨_, -, _, -, _, -, _, -, rfl⟩ := hfound
        exact Or.inl rfl
      · cases hfound
    · unfold validatePartial at hfound
      split at hfound
      · simp only [Except.bind_eq_ok, Except.pure_eq_ok] at hfound
        obtain ⟨_, -, _, -, _, -, _, -, _, -, rfl⟩ := hfound
        exact Or.inr rfl
      · cases hfound
  · cases h

/-- The only fill of a list is the one that makes it up. -/
theorem onlyFill_eq_some {α : Type} {fills : List α} {fill : α} :
    onlyFill fills = some fill ↔ fills = [fill] := by
  unfold onlyFill
  split
  · simp
  · rename_i hne
    constructor
    · intro h
      cases h
    · intro h
      exact absurd h (hne fill)

/-- A later state of an order: its terms are the same, and so is its sizing evidence
once it has any. -/
def Continues (order order' : PaperOrder) : Prop :=
  ∃ filled remaining status context, order' = { order with
    filledQuantity := filled
    remainderQuantity := remaining
    status
    executionContext := context } ∧
    (order.executionContext = none ∨ context = order.executionContext)

/-- Every order continues itself. -/
theorem Continues.refl (order : PaperOrder) : Continues order order :=
  ⟨_, _, _, _, rfl, Or.inr rfl⟩

/-- A block of evidence about one order at most, which is new or accepted before. -/
structure Frame (block : List StoredEvent) (orders orders' : List PaperOrder)
    (subject : Option PaperId) : Prop where
  silent : ∀ id, some id ≠ subject → Silent block id
  others : ∀ id, some id ≠ subject → findPaperOrder orders' id = findPaperOrder orders id
  accepted : ∀ id order, some id = subject → findPaperOrder orders id = some order →
    order.status = .accepted
  continues : ∀ id order, some id = subject → findPaperOrder orders id = some order →
    ∃ order', findPaperOrder orders' id = some order' ∧ Continues order order'

section

variable {block : List StoredEvent} {orders orders' : List PaperOrder} {subject : Option PaperId}
  (hframe : Frame block orders orders' subject) {id : PaperId} {order : PaperOrder}
  (hfound : findPaperOrder orders id = some order)
include hframe hfound

/-- An order that is no longer open is not what the block is about. -/
theorem Frame.ne_subject (hstatus : order.status ≠ .accepted) : some id ≠ subject := by
  intro hsubject
  exact hstatus (hframe.accepted id order hsubject hfound)

/-- An order that is settled is found as it was. -/
theorem Frame.find_settled (hstatus : order.status ≠ .accepted) :
    findPaperOrder orders' id = some order := by
  rw [hframe.others id (hframe.ne_subject hfound hstatus), hfound]

/-- What an ended order filled is not affected by the fills of the subject. -/
theorem Frame.fills_ne (hstatus : order.status ≠ .accepted) {more : List PaperFill}
    (hmore : ∀ fill ∈ more, some fill.orderId = subject) : ∀ fill ∈ more, fill.orderId ≠ id := by
  intro fill hfill hid
  exact hframe.ne_subject hfound hstatus (by rw [← hid]; exact hmore fill hfill)

/-- An order is found as one that continues it. -/
theorem Frame.find_continues :
    ∃ order', findPaperOrder orders' id = some order' ∧ Continues order order' := by
  by_cases hsubject : some id = subject
  · exact hframe.continues id order hsubject hfound
  · exact ⟨order, by rw [hframe.others id hsubject, hfound], Continues.refl order⟩

end

section

variable {log : List StoredEvent} {a : Account} (h : Coherent log a)
include h

/-- What the fills of an order say about it. -/
theorem Coherent.outcome {order : PaperOrder} (horder : order ∈ a.orders) :
    fillsOf log order.orderId = [] ∧ order.filledQuantity = 0 ∧
      (order.status = .accepted ∨ order.status = .insufficientCash ∨ order.status = .rejected) ∨
    ∃ fill, fillsOf log order.orderId = [fill] ∧ order.filledQuantity = fill.body.quantity ∧
      (order.status = .completed ∨ order.status = .canceled) := by
  obtain ⟨m, -, hm, -⟩ := h.metadata horder
  have hid := orderFromMetadata_orderId hm
  obtain ⟨_, _, key, _, _, _, filled, status, -, -, -, -, -, -, houtcome, rfl⟩ :=
    orderFromMetadata_eq_ok.mp hm
  rw [hid]
  rcases orderOutcome_cases houtcome with ⟨hfills, -, rfl, rfl⟩ | ⟨hfills, rfl, hstatus⟩ |
    ⟨fill, hfills, rfl, hstatus⟩
  · exact Or.inl ⟨hfills, rfl, Or.inl rfl⟩
  · exact Or.inl ⟨hfills, rfl, Or.inr hstatus⟩
  · exact Or.inr ⟨fill, hfills, rfl, hstatus⟩

/-- An order with a fill is no longer open. -/
theorem Coherent.not_accepted_of_fill {order : PaperOrder} (horder : order ∈ a.orders)
    (hfills : fillsOf log order.orderId ≠ []) : order.status ≠ .accepted := by
  rcases h.outcome horder with ⟨hnone, -⟩ | ⟨fill, -, -, hstatus⟩
  · exact absurd hnone hfills
  · rcases hstatus with hstatus | hstatus <;> rw [hstatus] <;> decide

/-- An order with an execution is no longer open. -/
theorem Coherent.not_accepted_of_execution {order : PaperOrder} (horder : order ∈ a.orders)
    {event : Stamped Execution} {binding : Stamped ContextBinding} {context : EntryContext}
    (hok : validateExecution log event order binding context = .ok ()) :
    order.status ≠ .accepted := by
  simp only [validateExecution, Except.bind_eq_ok, reject_eq_ok] at hok
  obtain ⟨_, -, _, -, _, -, _, -, hok⟩ := hok
  split at hok
  · simp only [reject_eq_ok, not_or, not_not] at hok
    rw [hok.2.1]
    decide
  · simp only [Except.bind_eq_ok, require_eq_ok] at hok
    obtain ⟨fill, hfill, -⟩ := hok
    apply h.not_accepted_of_fill horder
    rw [onlyFill_eq_some.mp hfill]
    simp

/-- The order of a fill. -/
theorem Coherent.order_of_fill {fill : Stamped RawFill} (hfill : fill ∈ view readFill log) :
    ∃ order, findPaperOrder a.orders fill.body.orderId = some order ∧
      order.side = fill.body.side ∧ 0 < order.filledQuantity ∧ order.status ≠ .accepted := by
  obtain ⟨order, horder, hid, hside, hpos⟩ := h.filled fill hfill
  refine ⟨order, by rw [← hid]; exact findPaperOrder_of_mem h.nodup horder, hside, hpos, ?_⟩
  apply h.not_accepted_of_fill horder
  exact List.ne_nil_of_mem (List.mem_filter.mpr ⟨hfill, by simpa using hid.symm⟩)

end

/-- A fill of a known order is scanned into a paper fill. -/
theorem scanFill_raw {log : List StoredEvent} {orders : List PaperOrder} {scan scan' : FillScan}
    {raw : Stamped RawFill} (hok : scanFill log orders scan raw = .ok scan')
    (hknown : (findPaperOrder orders raw.body.orderId).isSome = true) : ∃ fill,
      scan'.fills = scan.fills ++ [fill] ∧ fill.raw = raw.body ∧ fill.fillId = raw.eventId ∧
        fill.fillTime = raw.occurredAtUtc := by
  obtain ⟨order, hfound⟩ := Option.isSome_iff_exists.mp hknown
  simp only [scanFill, hfound, paperFillOf, Except.bind_eq_ok, Except.pure_eq_ok] at hok
  obtain ⟨_, -, _, -, _, ⟨metadata, -, fill, hfill, rfl⟩, rfl⟩ := hok
  refine ⟨fill, by simp, ?_⟩
  simp only [paperFillFromEvidence, Except.bind_eq_ok, Except.pure_eq_ok] at hfill
  obtain ⟨_, -, _, -, _, -, _, -, _, -, rfl⟩ := hfill
  exact ⟨rfl, rfl, rfl⟩

/-- Every paper fill stands for its raw fill, in order. -/
theorem scanFills_raws {log : List StoredEvent} {orders : List PaperOrder}
    {raws : List (Stamped RawFill)} {scan scan' : FillScan}
    (hok : raws.foldlM (scanFill log orders) scan = .ok scan')
    (hknown : ∀ raw ∈ raws, (findPaperOrder orders raw.body.orderId).isSome = true) :
    ∃ fills, scan'.fills = scan.fills ++ fills ∧ List.Forall₂ (fun raw fill =>
      fill.raw = raw.body ∧ fill.fillId = raw.eventId ∧ fill.fillTime = raw.occurredAtUtc)
      raws fills := by
  induction raws generalizing scan with
  | nil =>
    cases hok
    exact ⟨[], by simp, List.Forall₂.nil⟩
  | cons raw raws ih =>
    rw [List.foldlM_cons, Except.bind_eq_ok] at hok
    obtain ⟨mid, hraw, hraws⟩ := hok
    obtain ⟨fill, hfill, hsame⟩ := scanFill_raw hraw (hknown raw (by simp))
    obtain ⟨fills, hfills, hall⟩ := ih hraws fun other hother => hknown other (by simp [hother])
    exact ⟨fill :: fills, by rw [hfills, hfill, List.append_assoc]; rfl,
      List.Forall₂.cons hsame hall⟩

/-- The paper fills of a coherent account stand for the fills of its log. -/
theorem Coherent.raws {log : List StoredEvent} {a : Account} (h : Coherent log a) :
    List.Forall₂ (fun raw fill => fill.raw = raw.body ∧ fill.fillId = raw.eventId ∧
      fill.fillTime = raw.occurredAtUtc) (view readFill log) a.scan.fills := by
  obtain ⟨fills, hfills, hall⟩ := scanFills_raws h.scan fun raw hraw => by
    obtain ⟨order, hfound, -⟩ := h.order_of_fill hraw
    rw [hfound]
    rfl
  rw [hfills]
  exact hall

/-- The order of a paper fill. -/
theorem Coherent.order_of_paperFill {log : List StoredEvent} {a : Account} (h : Coherent log a)
    {fill : PaperFill} (hfill : fill ∈ a.scan.fills) :
    ∃ order, findPaperOrder a.orders fill.orderId = some order ∧ order.side = fill.side ∧
      0 < order.filledQuantity ∧ order.status ≠ .accepted := by
  obtain ⟨raw, hraw, hbody, -⟩ := forall₂_exists_left h.raws hfill
  have hfound := h.order_of_fill hraw
  rw [← hbody] at hfound
  exact hfound

/-! ## What is looked up in the log -/

section

variable {log block : List StoredEvent}

/-- What is found in a log is found in a longer one. -/
theorem find_log_append {p : StoredEvent → Bool} {e : StoredEvent} (h : log.find? p = some e) :
    (log ++ block).find? p = some e := by
  rw [List.find?_append, h, Option.some_or]

/-- The metadata of a fill are found in a longer log. -/
theorem fillMetadataOf_append {id : EventId} {m : Stamped FillMetadata}
    (h : fillMetadataOf log id = some m) : fillMetadataOf (log ++ block) id = some m :=
  find_append_of_some h

/-- The metadata of an order are found in a longer log. -/
theorem orderMetadataOf_append_some {id : PaperId} {m : Stamped OrderMetadata}
    (h : orderMetadataOf log id = some m) : orderMetadataOf (log ++ block) id = some m :=
  find_append_of_some h

/-- The metadata that are found are those of the log. -/
theorem mem_of_orderMetadataOf {id : PaperId} {m : Stamped OrderMetadata}
    (h : orderMetadataOf log id = some m) : m ∈ view readOrderMetadata log :=
  List.mem_of_find?_eq_some h

/-- The fills of an order are fills of the log for it. -/
theorem mem_of_fillsOf {id : PaperId} {fill : Stamped RawFill} (h : fill ∈ fillsOf log id) :
    fill ∈ view readFill log ∧ fill.body.orderId = id := by
  obtain ⟨hmem, hid⟩ := List.mem_filter.mp h
  exact ⟨hmem, by simpa using hid⟩

end

/-- The only fill of an order is a fill of the log. -/
theorem mem_of_onlyFill {log : List StoredEvent} {id : PaperId} {fill : Stamped RawFill}
    (h : onlyFill (fillsOf log id) = some fill) : fill ∈ view readFill log := by
  have hmem : fill ∈ fillsOf log id := by
    rw [onlyFill_eq_some.mp h]
    simp
  exact (mem_of_fillsOf hmem).1

/-- The child of a partial exit rests on an order that has ended. -/
theorem Frame.child {log block : List StoredEvent} {orders orders' : List PaperOrder}
    {subject : Option PaperId} (hframe : Frame block orders orders' subject)
    {order order' : PaperOrder} {parentId : PaperId}
    (hok : validateChild log orders order parentId = .ok ()) (hcont : Continues order order') :
    validateChild (log ++ block) orders' order' parentId = .ok () := by
  obtain ⟨filled, remaining, status, context, rfl, -⟩ := hcont
  simp only [validateChild, Except.bind_eq_ok, require_eq_ok, reject_eq_ok, not_or, not_not]
    at hok ⊢
  obtain ⟨parent, hparent, _, hroot, _, hside, _, ⟨hcanceled, hfilled⟩, _, hreason, fill, hfill,
    hrest⟩ := hok
  have hstatus : parent.status ≠ .accepted := by
    rw [hcanceled]
    decide
  refine ⟨parent, hframe.find_settled hparent hstatus, ⟨⟩, hroot, ⟨⟩, hside, ⟨⟩,
    ⟨hcanceled, hfilled⟩, ⟨⟩, hreason, fill, ?_, hrest⟩
  rw [fillsOf_append (hframe.silent _ (hframe.ne_subject hparent hstatus)), hfill]

/-- The fills so far are scanned as before. -/
theorem Coherent.scan_frame {log block : List StoredEvent} {a : Account}
    {orders : List PaperOrder} {subject : Option PaperId} (h : Coherent log a)
    (hframe : Frame block a.orders orders subject) :
    (view readFill log).foldlM (scanFill (log ++ block) orders) {} = .ok a.scan := by
  refine foldlM_mono ?_ h.scan
  intro raw hraw scan scan' hok
  obtain ⟨order, hfound, -, -, hstatus⟩ := h.order_of_fill hraw
  have hsilent := hframe.silent _ (hframe.ne_subject hfound hstatus)
  obtain ⟨-, hid⟩ := findPaperOrder_some hfound
  have hentry : validateEntryFill (log ++ block) raw scan.account (some order) =
      validateEntryFill log raw scan.account (some order) := by
    rw [← hid] at hsilent
    simp only [validateEntryFill, validateBoundFill, contextOf_append hsilent,
      terminalReason_append hsilent]
  simp only [scanFill, hfound, hframe.find_settled hfound hstatus, Except.bind_eq_ok,
    hentry] at hok ⊢
  obtain ⟨_, hvalid, _, hbalance, fill, hfill, hresult⟩ := hok
  refine ⟨⟨⟩, hvalid, ⟨⟩, hbalance, fill, ?_, hresult⟩
  simp only [paperFillOf, Except.bind_eq_ok, require_eq_ok] at hfill ⊢
  obtain ⟨metadata, hmetadata, hrest⟩ := hfill
  exact ⟨metadata, fillMetadataOf_append hmetadata, hrest⟩

/-- The stops that were eligible at a fill of the log are still the same. -/
theorem eligibleVersions_append {scan : StopScan} {known : List (Stamped PaperStop)}
    {terminals : List (Stamped StopTerminal)} {fill : Stamped RawFill}
    (hknown : ∀ stop ∈ known, fill.sequence ≤ stop.sequence)
    (hterminals : ∀ terminal ∈ terminals, fill.sequence ≤ terminal.sequence)
    {open_ : List PaperStop} :
    eligibleVersions ⟨scan.known ++ known, open_, scan.terminals ++ terminals⟩ fill =
      eligibleVersions scan fill := by
  have hended : terminals.filter (·.sequence < fill.sequence) = [] := by
    rw [List.filter_eq_nil_iff]
    intro terminal hterminal
    simpa using hterminals terminal hterminal
  have hset : ∀ p : Stamped PaperStop → Prop, [DecidablePred p] →
      known.filter (fun stop => stop.sequence < fill.sequence ∧ p stop) = [] := by
    intro p _
    rw [List.filter_eq_nil_iff]
    intro stop hstop
    have hle := hknown stop hstop
    simp only [decide_eq_true_eq, not_and]
    omega
  simp only [eligibleVersions, List.filter_append, hended, List.append_nil, hset]

section

variable {log block : List StoredEvent} {a : Account} {s : Projection} {orders : List PaperOrder}
  {subject : Option PaperId} (h : Coherent log a)
  (hreplay : rebuildFromEvents (log ++ block) = .ok s)
include h hreplay

/-- What came before an event of the log is still what came before it. -/
theorem Coherent.before_append {α : Type} {read : Payload → Option α} {x : Stamped α}
    (hx : x ∈ view read log) :
    beforeSequence x.sequence (log ++ block) = beforeSequence x.sequence log :=
  beforeSequence_append (envelopes_of_rebuild hreplay) h.envelopes 
    (view_sequence h.envelopes hx).2.step

/-- The inventory before an event of a log is the same in a longer log. -/
theorem Coherent.inventory_append {α : Type} {read : Payload → Option α} {x : Stamped α}
    (hx : x ∈ view read log) :
    inventoryBeforeSequence x.sequence (log ++ block) = inventoryBeforeSequence x.sequence log := by
  rw [inventoryBeforeSequence, inventoryBeforeSequence, h.before_append hreplay hx]

variable (hframe : Frame block a.orders orders subject)
include hframe

/-! ## The frame of every check -/

/-- A context that was valid is valid in a longer log. -/
theorem Coherent.context_frame {event : Stamped ContextBinding}
    (hevent : event ∈ view readContext log) :
    validateContextEvent (log ++ block) orders event = .ok () := by
  have hok := h.contexts event hevent
  simp only [validateContextEvent, Except.bind_eq_ok, require_eq_ok] at hok ⊢
  obtain ⟨order, hfound, metadata, hmetadata, context, hcontext, hok⟩ := hok
  obtain ⟨order', hfound', filled, remaining, status, context', rfl, hkept⟩ :=
    hframe.find_continues hfound
  have hsame : context' = some context := by
    rcases hkept with hnone | hkept
    · simp [hnone] at hcontext
    · rw [hkept, hcontext]
  refine ⟨_, hfound', metadata, orderMetadataOf_append_some hmetadata, context, hsame, ?_⟩
  simp only [validateEntryContextBinding, Except.bind_eq_ok, reject_eq_ok, require_eq_ok,
    not_not] at hok ⊢
  rw [h.before_append hreplay (mem_of_orderMetadataOf hmetadata)]
  obtain ⟨_, hancestry, previous, hprevious, _, htime, _, ⟨risk, hrisk, hrest⟩, hsize⟩ := hok
  exact ⟨⟨⟩, hancestry, previous, find_log_append hprevious, ⟨⟩, htime, ⟨⟩,
    ⟨risk, find_log_append hrisk, hrest⟩, hsize⟩

/-- An execution that was valid is valid in a longer log. -/
theorem Coherent.execution_frame {event : Stamped Execution}
    (hevent : event ∈ view readExecution log) :
    validateExecutionEvent (log ++ block) orders event = .ok () := by
  have hok := h.executions event hevent
  simp only [validateExecutionEvent, Except.bind_eq_ok, require_eq_ok] at hok ⊢
  obtain ⟨order, hfound, binding, hbinding, context, hcontext, hok⟩ := hok
  have hstatus : order.status ≠ .accepted := 
    h.not_accepted_of_execution (findPaperOrder_some hfound).1 hok
  have hsilent := hframe.silent _ (hframe.ne_subject hfound hstatus)
  obtain ⟨-, hid⟩ := findPaperOrder_some hfound
  refine ⟨order, hframe.find_settled hfound hstatus, binding, ?_, context, hcontext, ?_⟩
  · rw [contextOf_append hsilent, hbinding]
  · rw [← hid] at hsilent
    simpa only [validateExecution, fillsOf_append hsilent, terminalReason_append hsilent,
      transitionsOf_append hsilent, h.before_append hreplay hevent] using hok

/-- A stop order that was valid is valid in a longer log with more stops. -/
theorem Coherent.stopOrder_frame {order : PaperOrder} (horder : order ∈ a.orders)
    {parentId : PaperId} (more : List (Stamped PaperStop))
    (hok : validateStopOrder log a.stops.known order parentId = .ok ()) :
    validateStopOrder (log ++ block) (a.stops.known ++ more) order parentId = .ok () := by
  simp only [validateStopOrder, Except.bind_eq_ok, require_eq_ok, reject_eq_ok, not_not] at hok ⊢
  obtain ⟨_, hkind, stop, hstop, _, hbinding, _, hcompleted, fill, hfill, before, hbefore, _,
    hexact, fillMeta, hfillMeta, hprice⟩ := hok
  have hstatus : order.status ≠ .accepted := by
    rw [hcompleted]
    decide
  have hfound := findPaperOrder_of_mem h.nodup horder
  have hmem : fill ∈ view readFill log := mem_of_onlyFill hfill
  refine ⟨⟨⟩, hkind, stop, ?_, ⟨⟩, hbinding, ⟨⟩, hcompleted, fill, ?_, before, ?_, ⟨⟩, hexact,
    fillMeta, fillMetadataOf_append hfillMeta, hprice⟩
  · rw [List.find?_append, hstop, Option.some_or]
  · rw [fillsOf_append (hframe.silent _ (hframe.ne_subject hfound hstatus)), hfill]
  · rw [h.inventory_append hreplay hmem, hbefore]

/-- The ancestry of an order that continues is still valid. -/
theorem Coherent.ancestry_frame {order order' : PaperOrder} (horder : order ∈ a.orders)
    (hopen : ¬(order.orderKind = .stop ∧ order.status = .accepted))
    (hcont : Continues order order') (hsame : order.status ≠ .accepted → order' = order)
    (more : List (Stamped PaperStop)) :
    validateAncestry (log ++ block) orders (a.stops.known ++ more) order' = .ok () := by
  have hok := h.ancestry order horder hopen
  have hparent : order'.parentOrderId = order.parentOrderId := by
    obtain ⟨_, _, _, _, rfl, -⟩ := hcont
    rfl
  unfold validateAncestry at hok ⊢
  rw [hparent]
  split at hok
  · rfl
  · rename_i parentId _
    split at hok
    · rename_i horderId
      rw [if_pos horderId]
      exact hframe.child hok hcont
    · rename_i horderId
      rw [if_neg horderId]
      split at hok
      · rename_i hstopId
        rw [if_pos hstopId]
        by_cases hstatus : order.status = .accepted
        · simp only [validateStopOrder, Except.bind_eq_ok, reject_eq_ok, not_not] at hok
          obtain ⟨_, hkind, -⟩ := hok
          exact absurd ⟨hkind, hstatus⟩ hopen
        · rw [hsame hstatus]
          exact h.stopOrder_frame hreplay hframe horder more hok
      · cases hok

/-- The open entry at a sequence number of the log is still the same. -/
theorem Coherent.source_frame {α : Type} {read : Payload → Option α} {x : Stamped α}
    (hx : x ∈ view read log) : paperSourceAtSequence x.sequence (log ++ block) orders =
      paperSourceAtSequence x.sequence log a.orders := by
  rw [paperSourceAtSequence, paperSourceAtSequence, h.before_append hreplay hx]
  congr 2
  apply List.filter_congr
  intro fill hfill
  obtain ⟨raw, hraw, rfl⟩ := List.mem_map.mp hfill
  obtain ⟨e, he, hread, hrest⟩ := mem_view.mp hraw
  obtain ⟨order, hfound, -, -, hstatus⟩ := h.order_of_fill
    (mem_view.mpr ⟨e, (List.takeWhile_sublist _).subset he, hread, hrest⟩)
  rw [hfound, hframe.find_settled hfound hstatus]

/-- The source of every stop is still valid, whatever the subject has filled since. -/
theorem Coherent.stopSource_frame {stop : Stamped PaperStop} (hstop : stop ∈ a.stops.known)
    {more : List PaperFill} (hmore : ∀ fill ∈ more, some fill.orderId = subject) :
    validateStopSource (log ++ block) orders (a.scan.fills ++ more) stop = .ok () := by
  have hok := h.stopSources stop hstop
  obtain ⟨set, hset, -, hsequence, -⟩ := (scanned_of_scanStops h.stops).stop_of_known hstop
  simp only [validateStopSource, Except.bind_eq_ok, reject_eq_ok, not_not] at hok ⊢
  rw [hsequence, h.source_frame hreplay hframe hset, ← hsequence]
  obtain ⟨_, ⟨source, hsource, hside, hfilled⟩, current, hcurrent, _, hsame, hboundary⟩ := hok
  have hfound : findPaperOrder a.orders stop.body.sourceId = some source := by simpa using hsource
  have hstatus : source.status ≠ .accepted := by
    rcases h.outcome (findPaperOrder_some hfound).1 with ⟨-, hzero, -⟩ | ⟨fill, -, -, hstatus⟩
    · simp [hzero] at hfilled
    · rcases hstatus with hstatus | hstatus <;> rw [hstatus] <;> decide
  have hnone := hframe.fills_ne hfound hstatus hmore
  refine ⟨⟨⟩, ⟨source, ?_, hside, hfilled⟩, current, hcurrent, ⟨⟩, hsame, ?_⟩
  · rw [hframe.find_settled hfound hstatus]
    rfl
  · split at hboundary
    · rename_i hactive
      rw [if_pos hactive]
      simp only [validateBoundaryStop, Except.bind_eq_ok, require_eq_ok, reject_eq_ok] at hboundary ⊢
      obtain ⟨fill, hfill, raw, hraw, hrest⟩ := hboundary
      have hempty : more.filter (·.orderId = stop.body.sourceId) = [] := by
        rw [List.filter_eq_nil_iff]
        intro fill hfill
        simpa using hnone fill hfill
      refine ⟨fill, ?_, raw, ?_, ?_⟩
      · rw [List.filter_append, hempty, List.append_nil, hfill]
      · rw [fillsOf_append (hframe.silent _ (hframe.ne_subject hfound hstatus)), hraw]
      · simp only [not_or, not_not] at hrest ⊢
        obtain ⟨hreason, hbuy, htime, fillMeta, hfillMeta, hlt⟩ := hrest
        exact ⟨hreason, hbuy, htime, fillMeta, fillMetadataOf_append hfillMeta, hlt⟩
    · rename_i hactive
      rw [if_neg hactive]
      rfl

/-- The end of every stop is still valid, whatever stops were set or ended since. -/
theorem Coherent.terminal_frame {terminal : Stamped StopTerminal}
    (hterminal : terminal ∈ a.stops.terminals) {known : List (Stamped PaperStop)}
    {terminals : List (Stamped StopTerminal)} {open_ : List PaperStop}
    (hknown : ∀ stop ∈ known, log.length < stop.sequence)
    (hterminals : ∀ terminal ∈ terminals, log.length < terminal.sequence) :
    validateTerminal (log ++ block) orders
      ⟨a.stops.known ++ known, open_, a.stops.terminals ++ terminals⟩ terminal = .ok () := by
  have hok := h.terminals terminal hterminal
  rw [validateTerminal_eq_ok] at hok ⊢
  obtain ⟨related, metadata, fill, hrelated, hmetadata, hside, hcompleted, hfill,
    ⟨fillMeta, hfillMeta, hcausal⟩, htime, hflat, hancestry⟩ := hok
  have hview : terminal ∈ view readStopTerminal log := by
    rw [← (scanned_of_scanStops h.stops).terminals]
    exact hterminal
  have hstatus : related.status ≠ .accepted := by
    rw [hcompleted]
    decide
  have hraw : fill ∈ view readFill log := mem_of_onlyFill hfill
  have hle := (view_sequence h.envelopes hraw).2
  refine ⟨related, metadata, fill, hframe.find_settled hrelated hstatus,
    orderMetadataOf_append_some hmetadata, hside, hcompleted, ?_,
    ⟨fillMeta, fillMetadataOf_append hfillMeta, hcausal⟩, htime, ?_, ?_⟩
  · rw [fillsOf_append (hframe.silent _ (hframe.ne_subject hrelated hstatus)), hfill]
  · rw [h.inventory_append hreplay hview, hflat]
  · unfold validateTerminalAncestry at hancestry ⊢
    rw [eligibleVersions_append (fun stop hstop => by have := hknown stop hstop; omega)
      (fun other hother => by have := hterminals other hother; omega)]
    exact hancestry

/-- The position observations so far are still valid, whatever the subject has filled
since. -/
theorem Coherent.positions_frame {more : List PaperFill}
    (hmore : ∀ fill ∈ more, some fill.orderId = subject) :
    (view readPosition log).foldlM
      (scanPosition (log ++ block) orders (a.scan.fills ++ more)) [] = .ok a.positions := by
  refine foldlM_mono ?_ h.positions
  intro event hevent prior next hok
  simp only [scanPosition, Except.bind_eq_ok, require_eq_ok] at hok ⊢
  obtain ⟨fill, hfill, order, horder, source, hsource, hrest⟩ := hok
  have hmem : fill ∈ a.scan.fills :=
    (List.mem_filter.mp (List.mem_reverse.mp (List.mem_of_find?_eq_some hfill))).1
  have hid : fill.orderId = event.body.orderId := by simpa using List.find?_some hfill
  obtain ⟨settled, hfound, -, -, hstatus⟩ := h.order_of_paperFill hmem
  rw [hid] at hfound
  have hnone := hframe.fills_ne hfound hstatus hmore
  refine ⟨fill, ?_, order, ?_, source, ?_, ?_⟩
  · have hempty : (more.filter (·.side = .buy)).reverse.find?
        (·.orderId = event.body.orderId) = none := by
      rw [List.find?_eq_none]
      intro other hother
      simpa using hnone other (List.mem_filter.mp (List.mem_reverse.mp hother)).1
    rw [List.filter_append, List.reverse_append, List.find?_append, hempty, Option.none_or, hfill]
  · rw [hframe.find_settled hfound hstatus, ← hfound, horder]
  · rw [h.source_frame hreplay hframe hevent, hsource]
  · have hinitial : expectedInitialStop (log ++ block) event.sequence order fill =
        expectedInitialStop log event.sequence order fill := by
      simp only [expectedInitialStop, initialStopBefore, h.before_append hreplay hevent]
    rw [hinitial]
    exact hrest

end

end AutoBit.Broker
