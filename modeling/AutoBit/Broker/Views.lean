import AutoBit.Broker.Ledger
import AutoBit.Store.Log

/-!
# Views of a growing log

A view of a longer log continues the view of its beginning, and an appended block that
does not mention an order leaves the evidence of that order as it was. The balances that
the broker folds up are those of the replay.
-/

namespace AutoBit.Broker

open Library Store

/-! ## Appending -/

/-- A view of a longer log is made of the views of its parts. -/
theorem view_append {α : Type} (read : Payload → Option α) (log block : List StoredEvent) :
    view read (log ++ block) = view read log ++ view read block :=
  List.filterMap_append

/-- A view shows what it reads of the events of the log, with their stamps. -/
theorem mem_view {α : Type} {read : Payload → Option α} {log : List StoredEvent} {x : Stamped α} :
    x ∈ view read log ↔ ∃ e ∈ log, read e.payload = some x.body ∧ e.sequence = x.sequence ∧
      e.eventId = x.eventId ∧ e.occurredAtUtc = x.occurredAtUtc := by
  simp only [view, List.mem_filterMap, stamp, Option.map_eq_some_iff]
  constructor
  · rintro ⟨e, he, body, hread, rfl⟩
    exact ⟨e, he, hread, rfl, rfl, rfl⟩
  · rintro ⟨e, he, hread, hsequence, hid, htime⟩
    exact ⟨e, he, x.body, hread, by rw [hsequence, hid, htime]⟩

/-- Evidence has a sequence number between one and the length of its log. -/
theorem view_sequence {α : Type} {read : Payload → Option α} {log : List StoredEvent}
    {s : Projection} (h : Envelopes log s) {x : Stamped α} (hx : x ∈ view read log) :
    1 ≤ x.sequence ∧ x.sequence ≤ log.length := by
  obtain ⟨e, he, -, hsequence, -⟩ := mem_view.mp hx
  rw [← hsequence]
  exact h.sequence_le he

/-- The order that an event is evidence of. -/
def mentions (e : StoredEvent) : Option PaperId :=
  match e.payload with
  | .orderCreated order => some order.orderId
  | .orderStatus transition => some transition.orderId
  | .fill fill => some fill.orderId
  | .paperOrder metadata => some metadata.orderId
  | .paperEntryContext binding => some binding.orderId
  | .paperExecution execution => some execution.orderId
  | _ => none

/-- A block of events that is no evidence of an order. -/
def Silent (block : List StoredEvent) (id : PaperId) : Prop := ∀ e ∈ block, mentions e ≠ some id

/-- The views whose evidence belongs to an order. -/
structure OrderView {α : Type} (read : Payload → Option α) (key : α → PaperId) : Prop where
  mentions_eq : ∀ e a, read e.payload = some a → mentions e = some (key a)

/-- Creations are a view of the orders that they name. -/
theorem orderView_created : OrderView readCreated (·.orderId) := by
  constructor
  intro e a h
  cases hp : e.payload <;> simp_all [readCreated, mentions]

/-- Transitions are a view of the orders that they name. -/
theorem orderView_transition : OrderView readTransition (·.orderId) := by
  constructor
  intro e a h
  cases hp : e.payload <;> simp_all [readTransition, mentions]

/-- Fills are a view of the orders that they name. -/
theorem orderView_fill : OrderView readFill (·.orderId) := by
  constructor
  intro e a h
  cases hp : e.payload <;> simp_all [readFill, mentions]

/-- Entry contexts are a view of the orders that they name. -/
theorem orderView_context : OrderView readContext (·.orderId) := by
  constructor
  intro e a h
  cases hp : e.payload <;> simp_all [readContext, mentions]

/-- Executions are a view of the orders that they name. -/
theorem orderView_execution : OrderView readExecution (·.orderId) := by
  constructor
  intro e a h
  cases hp : e.payload <;> simp_all [readExecution, mentions]

section

variable {α : Type} {read : Payload → Option α} {key : α → PaperId} {log block : List StoredEvent}
  {id : PaperId}

/-- A silent block has no evidence of the order in any view. -/
theorem OrderView.ne_of_silent (hview : OrderView read key) (hsilent : Silent block id)
    {x : Stamped α} (hx : x ∈ view read block) : key x.body ≠ id := by
  obtain ⟨e, he, hread, -⟩ := mem_view.mp hx
  intro heq
  exact hsilent e he (by rw [hview.mentions_eq e _ hread, heq])

/-- A silent block adds nothing to the view of an order. -/
theorem OrderView.filter_append (hview : OrderView read key) (hsilent : Silent block id) :
    (view read (log ++ block)).filter (fun x => key x.body = id) =
      (view read log).filter fun x => key x.body = id := by
  have hnil : (view read block).filter (fun x => key x.body = id) = [] := by
    rw [List.filter_eq_nil_iff]
    intro x hx
    simpa using hview.ne_of_silent hsilent hx
  rw [view_append, List.filter_append, hnil, List.append_nil]

/-- A silent block changes nothing that is found of an order. -/
theorem OrderView.find_append (hview : OrderView read key) (hsilent : Silent block id) :
    (view read (log ++ block)).find? (fun x => key x.body = id) =
      (view read log).find? fun x => key x.body = id := by
  have hnone : (view read block).find? (fun x => key x.body = id) = none := by
    rw [List.find?_eq_none]
    intro x hx
    simpa using hview.ne_of_silent hsilent hx
  rw [view_append, List.find?_append, hnone, Option.or_none]

/-- What is found in a log is found in every longer log. -/
theorem find_append_of_some {p : Stamped α → Bool} {x : Stamped α}
    (h : (view read log).find? p = some x) : (view read (log ++ block)).find? p = some x := by
  rw [view_append, List.find?_append, h, Option.some_or]

variable (hsilent : Silent block id)
include hsilent

/-- A silent block leaves the creation of an order. -/
theorem creationOf_append : creationOf (log ++ block) id = creationOf log id :=
  orderView_created.find_append hsilent

/-- A silent block leaves the transitions of an order. -/
theorem transitionsOf_append : transitionsOf (log ++ block) id = transitionsOf log id :=
  orderView_transition.filter_append hsilent

/-- A silent block leaves the fills of an order. -/
theorem fillsOf_append : fillsOf (log ++ block) id = fillsOf log id :=
  orderView_fill.filter_append hsilent

/-- A silent block leaves the entry context of an order. -/
theorem contextOf_append : contextOf (log ++ block) id = contextOf log id :=
  orderView_context.find_append hsilent

/-- A silent block leaves the execution of an order. -/
theorem executionOf_append : executionOf (log ++ block) id = executionOf log id :=
  orderView_execution.find_append hsilent

/-- A silent block leaves the terminal reason of an order. -/
theorem terminalReason_append : terminalReason (log ++ block) id = terminalReason log id := by
  rw [terminalReason, terminalReason, transitionsOf_append hsilent]

end

/-! ## Before a sequence number -/

/-- With counting sequence numbers, breaking off the loop is taking a prefix. -/
theorem takeWhile_sequence {log : List StoredEvent} (start k : ℕ)
    (h : log.map (·.sequence) = List.range' (start + 1) log.length) :
    log.takeWhile (·.sequence < k) = log.take (k - 1 - start) := by
  induction log generalizing start with
  | nil => simp
  | cons e log ih =>
    rw [List.map_cons, List.length_cons, List.range'_succ, List.cons.injEq] at h
    have hrest := ih (start + 1) h.2
    by_cases hlt : start + 1 < k
    · obtain ⟨n, hn⟩ : ∃ n, k - 1 - start = n + 1 := ⟨k - 1 - start - 1, by omega⟩
      rw [List.takeWhile_cons_of_pos (by simp [h.1, hlt]), hrest, hn, List.take_succ_cons]
      congr 2
      omega
    · rw [List.takeWhile_cons_of_neg (by simp [h.1, hlt])]
      have hzero : k - 1 - start = 0 := by omega
      simp [hzero]

/-- What comes before a sequence number is the beginning of the log. -/
theorem beforeSequence_eq_take {log : List StoredEvent} {s : Projection} (h : Envelopes log s)
    (k : ℕ) : beforeSequence k log = log.take (k - 1) := by
  have hsequences : log.map (·.sequence) = List.range' (0 + 1) log.length := by
    simpa using h.sequences
  have htake := takeWhile_sequence 0 k hsequences
  simpa [beforeSequence] using htake

/-- Appending a block does not change what came before an event of the log. -/
theorem beforeSequence_append {log block : List StoredEvent} {s : Projection}
    (h : Envelopes (log ++ block) s) {s₀ : Projection} (h₀ : Envelopes log s₀) {k : ℕ}
    (hk : k ≤ log.length + 1) : beforeSequence k (log ++ block) = beforeSequence k log := by
  rw [beforeSequence_eq_take h, beforeSequence_eq_take h₀, List.take_append_of_le_length (by omega)]

/-- Before the event at a place of an appended block comes the log and the block up to it. -/
theorem beforeSequence_block {log block : List StoredEvent} {s : Projection}
    (h : Envelopes (log ++ block) s) (j : ℕ) :
    beforeSequence (log.length + j + 1) (log ++ block) = log ++ block.take j := by
  rw [beforeSequence_eq_take h, List.take_append]
  simp [List.take_of_length_le]

/-! ## Balances -/

/-- The balances after a payload are those of the fill that it carries, if any. -/
theorem replayPayload_account {s t : Projection} {e : StoredEvent}
    (h : replayPayload s e = .ok t) : (t.cash, t.btcQuantity) =
      ((readFill e.payload).map (applyFill (s.cash, s.btcQuantity))).getD
        (s.cash, s.btcQuantity) := by
  unfold replayPayload at h
  split at h
  · rename_i order hpayload
    simp only [replayOrderCreated, Except.bind_eq_ok, Except.pure_eq_ok] at h
    obtain ⟨_, -, _, -, _, -, _, -, _, -, rfl⟩ := h
    simp [hpayload, readFill]
  · rename_i fill hpayload
    simp only [replayFill, Except.bind_eq_ok, Except.pure_eq_ok] at h
    obtain ⟨_, -, _, -, _, -, balanced, hbalance, _, -, rfl⟩ := h
    unfold replayBalance at hbalance
    split at hbalance <;> rename_i hside <;>
      simp only [Except.bind_eq_ok, Except.pure_eq_ok] at hbalance
    · obtain ⟨_, -, rfl⟩ := hbalance
      simp [hpayload, readFill, applyFill, hside]
    · obtain ⟨_, -, _, -, rfl⟩ := hbalance
      simp [hpayload, readFill, applyFill, hside]
  · rename_i transition hpayload
    simp only [replayOrderStatus, Except.bind_eq_ok] at h
    obtain ⟨_, -, h⟩ := h
    split at h
    · cases h
    · simp only [Except.bind_eq_ok, Except.pure_eq_ok] at h
      obtain ⟨_, -, rfl⟩ := h
      simp [hpayload, readFill]
  · rename_i hpayload
    cases h
    simp [hpayload, readFill]
  · rename_i hpayload
    cases h
    simp [hpayload, readFill]
  · rename_i hpayload
    simp only [Except.bind_eq_ok, Except.pure_eq_ok] at h
    obtain ⟨_, -, _, -, _, -, rfl⟩ := h
    simp [hpayload, readFill]
  · cases h
    cases hpayload : e.payload <;> simp_all [readFill]

/-- The balances folded from the fills are those of the replay. -/
theorem balance_eq {log : List StoredEvent} {s : Projection} (h : rebuildFromEvents log = .ok s) :
    balance log = (s.cash, s.btcQuantity) := by
  induction log using List.reverseRecOn generalizing s with
  | nil =>
    cases h
    rfl
  | append_singleton log e ih =>
    obtain ⟨t, ht, he⟩ := rebuild_snoc.mp h
    obtain ⟨-, -, -, u, hu, rfl⟩ := replayEvent_eq_ok.mp he
    have haccount := replayPayload_account hu
    have hlog := ih ht
    simp only [balance, view_append, List.map_append, List.foldl_append] at hlog ⊢
    rw [hlog, haccount]
    cases hread : readFill e.payload <;> simp [view, stamp, hread]

/-- The inventory folded from the fills is the BTC of the replay. -/
theorem inventory_eq {log : List StoredEvent} {s : Projection}
    (h : rebuildFromEvents log = .ok s) :
    ((view readFill log).map (·.body)).foldlM inventoryStep 0 = .ok s.btcQuantity := by
  induction log using List.reverseRecOn generalizing s with
  | nil =>
    cases h
    rfl
  | append_singleton log e ih =>
    obtain ⟨t, ht, he⟩ := rebuild_snoc.mp h
    obtain ⟨-, -, -, u, hu, rfl⟩ := replayEvent_eq_ok.mp he
    have haccount := replayPayload_account hu
    have hnonneg : 0 ≤ u.btcQuantity := (envelopes_of_rebuild h).btc
    rw [view_append, List.map_append, foldlM_append_eq_ok]
    refine ⟨_, ih ht, ?_⟩
    cases hread : readFill e.payload with
    | none =>
      simp only [hread, Option.map_none, Option.getD_none, Prod.mk.injEq] at haccount
      simp [view, stamp, hread, haccount.2]
    | some fill =>
      simp only [hread, Option.map_some, Option.getD_some] at haccount
      have hbtc : (applyFill (t.cash, t.btcQuantity) fill).2 = u.btcQuantity := by rw [← haccount]
      cases hside : fill.side <;> simp only [applyFill, hside] at hbtc <;>
        simp [view, stamp, hread, inventoryStep, hside, hbtc, reject, not_lt.mpr hnonneg,
          pure, Except.pure, bind, Except.bind]

/-- The replay of a prefix. -/
theorem rebuild_take {log : List StoredEvent} {s : Projection}
    (h : rebuildFromEvents log = .ok s) (k : ℕ) : ∃ t, rebuildFromEvents (log.take k) = .ok t := by
  rw [← List.take_append_drop k log] at h
  obtain ⟨t, ht, -⟩ := rebuild_append.mp h
  exact ⟨t, ht⟩

/-- The inventory before a sequence number is the balance of what comes before it. -/
theorem inventoryBeforeSequence_eq {log : List StoredEvent} {s : Projection}
    (h : rebuildFromEvents log = .ok s) (k : ℕ) :
    inventoryBeforeSequence k log = .ok (balance (beforeSequence k log)).2 := by
  obtain ⟨t, ht⟩ := rebuild_take h (k - 1)
  rw [inventoryBeforeSequence, beforeSequence_eq_take (envelopes_of_rebuild h), inventory_eq ht,
    balance_eq ht]

/-! ## Created orders -/

/-- The orders of a replay are the created ones. -/
theorem created_orderIds {log : List StoredEvent} {s : Projection}
    (h : rebuildFromEvents log = .ok s) :
    (view readCreated log).map (·.body.orderId) = s.orders.map (·.orderId) := by
  induction log using List.reverseRecOn generalizing s with
  | nil =>
    cases h
    rfl
  | append_singleton log e ih =>
    obtain ⟨t, ht, he⟩ := rebuild_snoc.mp h
    obtain ⟨-, -, -, u, hu, rfl⟩ := replayEvent_eq_ok.mp he
    rw [view_append, List.map_append, ih ht, replayPayload_orderIds hu]
    congr 1
    cases hpayload : e.payload <;> simp [view, stamp, readCreated, hpayload]

/-- A transition follows the creation of its order. -/
theorem transition_created {log : List StoredEvent} {s : Projection}
    (h : rebuildFromEvents log = .ok s) {t : Stamped OrderTransition}
    (ht : t ∈ view readTransition log) : ∃ c ∈ view readCreated log,
      c.body.orderId = t.body.orderId ∧ c.sequence < t.sequence := by
  induction log using List.reverseRecOn generalizing s with
  | nil => cases ht
  | append_singleton log e ih =>
    obtain ⟨r, hr, he⟩ := rebuild_snoc.mp h
    obtain ⟨hsequence, -, -, u, hu, rfl⟩ := replayEvent_eq_ok.mp he
    rw [view_append, List.mem_append] at ht
    rcases ht with hlog | hnew
    · obtain ⟨c, hc, hid, hlt⟩ := ih hr hlog
      exact ⟨c, by rw [view_append]; exact List.mem_append_left _ hc, hid, hlt⟩
    · obtain ⟨e', he', hread, hseq, -⟩ := mem_view.mp hnew
      obtain rfl : e' = e := by simpa using he'
      cases hpayload : e'.payload <;> simp only [hpayload, readTransition, reduceCtorEq] at hread
      rename_i transition
      cases hread
      simp only [replayPayload, hpayload] at hu
      obtain ⟨existing, hfound, -, -⟩ := replayOrderStatus_eq_ok hu
      obtain ⟨hmem, hid⟩ := findOrder_some hfound
      have hcreated : t.body.orderId ∈ (view readCreated log).map (·.body.orderId) := by
        rw [created_orderIds hr, ← hid]
        exact List.mem_map_of_mem hmem
      obtain ⟨c, hc, hcid⟩ := List.mem_map.mp hcreated
      refine ⟨c, by rw [view_append]; exact List.mem_append_left _ hc, hcid, ?_⟩
      have hle := (view_sequence (envelopes_of_rebuild hr) hc).2
      have hlast := (envelopes_of_rebuild hr).lastSequence
      omega

/-- Distinct event identities are distinct in every view. -/
theorem view_ids_nodup {α : Type} (read : Payload → Option α) {log : List StoredEvent}
    (hids : (log.map (·.eventId)).Nodup) : ((view read log).map (·.eventId)).Nodup := by
  refine hids.sublist ?_
  clear hids
  induction log with
  | nil => exact List.Sublist.slnil
  | cons e log ih =>
    cases hread : read e.payload with
    | none => simpa [view, stamp, hread] using ih.cons e.eventId
    | some body => simpa [view, stamp, hread] using ih.cons_cons e.eventId

/-- Evidence whose event identities are distinct functions of a key has distinct keys. -/
theorem nodup_of_ids {α κ : Type} {read : Payload → Option α} (key : α → κ)
    (name : κ → EventId) {log : List StoredEvent} (hids : (log.map (·.eventId)).Nodup)
    (hnamed : ∀ x ∈ view read log, x.eventId = name (key x.body)) :
    ((view read log).map (key ·.body)).Nodup := by
  have hview := view_ids_nodup read hids
  rw [List.map_congr_left hnamed] at hview
  exact List.Nodup.of_map name (by simpa [List.map_map, Function.comp_def] using hview)

end AutoBit.Broker
