import AutoBit.Store.Session

/-!
# The mutations over the tables refine the operations

The broker and the service are modelled over a database of typed events and orders, whose
operations change it as a whole. The mutations change the tables by one statement after
another. Tables that hold a database are left holding what the operation makes of it, so the
tables of every session hold a database that the operations reach.
-/

namespace AutoBit.Store.Sql

open Library

/-- What the operation of a mutation makes of a database. -/
def Mutation.apply (db : Database) : Mutation → Except Failure Database
  | .appendEvent eventId occurredAt payload => Store.appendEvent db eventId occurredAt payload
  | .recordOrderOnce key side quantity orderId occurredAt status =>
    Prod.snd <$> Store.recordOrderOnce db key side quantity orderId occurredAt status
  | .appendFill fill occurredAt fillId => Prod.snd <$> Store.appendFill db fill occurredAt fillId
  | .transitionOrderStatus orderId key status occurredAt reason =>
    Prod.snd <$> Store.transitionOrderStatus db orderId key status occurredAt reason

/-- Two lists of the same elements with the same distinct keys in the same order are the same. -/
theorem eq_of_perm_of_map {α κ : Type} {key : α → κ} {xs ys : List α} (hperm : xs.Perm ys)
    (hkeys : xs.map key = ys.map key) (hnodup : (xs.map key).Nodup) : xs = ys := by
  induction xs generalizing ys with
  | nil => exact hperm.nil_eq
  | cons x xs ih =>
    cases ys with
    | nil => exact absurd hperm.length_eq (by simp)
    | cons y ys =>
      have hall : ((y :: ys).map key).Nodup := hkeys ▸ hnodup
      have hfirst : key x = key y := (List.cons.inj hkeys).1
      have hsame : x = y :=
        List.inj_on_of_nodup_map hall (hperm.subset List.mem_cons_self) List.mem_cons_self hfirst
      subst hsame
      rw [ih hperm.cons_inv (List.cons.inj hkeys).2 (List.nodup_cons.mp hnodup).2]

section

variable {δ : Type} {hash : EventHash δ} {t t' : Tables δ} {db : Database}

/-! ## The statements -/

/-- An event is selected from the tables. -/
theorem selectEvent_eq_ok {eventId : EventId} {found : Option EventRow} :
    execute (selectEvent eventId) t = (.ok found, t') ↔
      t.events.find? (·.eventId = eventId) = found ∧ t = t' := by
  have hrun : execute (selectEvent eventId) t =
      (.ok (t.events.find? (·.eventId = eventId)), t) := rfl
  rw [hrun, Prod.mk.injEq, Except.ok.injEq]

/-- An order is selected from the tables. -/
theorem selectOrder_eq_ok {orderId : PaperId} {found : Option StoredOrder} :
    execute (selectOrder orderId) t = (.ok found, t') ↔
      findOrder t.orders orderId = found ∧ t = t' := by
  have hrun : execute (selectOrder orderId) t = (.ok (findOrder t.orders orderId), t) := rfl
  rw [hrun, Prod.mk.injEq, Except.ok.injEq]

/-- An order is selected from the tables by its key. -/
theorem selectOrderByKey_eq_ok {key : Key} {found : Option StoredOrder} :
    execute (selectOrderByKey key) t = (.ok found, t') ↔
      t.orders.find? (·.idempotencyKey = key) = found ∧ t = t' := by
  have hrun : execute (selectOrderByKey key) t =
      (.ok (t.orders.find? (·.idempotencyKey = key)), t) := rfl
  rw [hrun, Prod.mk.injEq, Except.ok.injEq]

/-- An insertion passes exactly when the identifier is new, and takes the next number. -/
theorem insertEvent_eq_ok {eventId : EventId} {occurredAt sequence : ℤ} {payload : Payload} :
    execute (insertEvent eventId occurredAt payload) t = (.ok sequence, t') ↔
      (∀ row ∈ t.events, row.eventId ≠ eventId) ∧ t.eventsTail.getD 0 + 1 = sequence ∧
        { t with
          events := t.events ++ [⟨sequence, eventId, .canonical occurredAt, .canonical payload⟩]
          eventsTail := some sequence } = t' := by
  simp only [insertEvent, execute_bind_eq_ok, execute_get, execute_lift, execute_modify,
    execute_pure, Prod.mk.injEq, Except.ok.injEq, reject_eq_ok, not_exists, not_and]
  constructor
  · rintro ⟨_, _, ⟨rfl, rfl⟩, _, _, ⟨hfresh, rfl⟩, _, _, ⟨-, rfl⟩, rfl, rfl⟩
    exact ⟨hfresh, rfl, rfl⟩
  · rintro ⟨hfresh, rfl, rfl⟩
    exact ⟨_, _, ⟨rfl, rfl⟩, (), _, ⟨hfresh, rfl⟩, (), _, ⟨trivial, rfl⟩, rfl, rfl⟩

/-- An insertion of an order adds its row. -/
theorem insertOrder_eq_ok {order : StoredOrder} {u : Unit}
    (h : execute (insertOrder order) t = (.ok u, t')) :
    { t with orders := t.orders ++ [order] } = t' := by
  simp only [insertOrder, execute_bind_eq_ok, execute_get, execute_lift, execute_modify,
    Prod.mk.injEq, Except.ok.injEq] at h
  obtain ⟨_, _, ⟨rfl, rfl⟩, _, _, ⟨-, rfl⟩, -, hafter⟩ := h
  exact hafter

/-- A timestamp passes when it is not before the last one. -/
theorem validateTimestampOrder_eq_ok {occurredAt : ℤ} {u : Unit}
    (h : execute (validateTimestampOrder occurredAt) t = (.ok u, t')) :
    t' = t ∧ ∀ row ∈ t.events.getLast?, ∃ latest,
      row.occurredAtUtc = .canonical latest ∧ latest ≤ occurredAt := by
  rw [validateTimestampOrder, execute_bind_eq_ok] at h
  obtain ⟨_, _, hget, h⟩ := h
  rw [execute_get] at hget
  obtain ⟨⟨⟩, rfl⟩ := Prod.mk.inj hget
  split at h
  · next hnone =>
    rw [execute_pure] at h
    rw [hnone]
    exact ⟨(Prod.mk.inj h).2.symm, fun row hrow => absurd hrow (Option.not_mem_none row)⟩
  · next row hrow =>
    simp only [execute_bind_eq_ok, execute_lift, Prod.mk.injEq, Encoded.read_eq_ok, reject_eq_ok,
      not_lt] at h
    obtain ⟨latest, _, ⟨hlatest, rfl⟩, hordered, rfl⟩ := h
    rw [hrow]
    refine ⟨rfl, ?_⟩
    rintro _ ⟨⟩
    exact ⟨latest, hlatest, hordered⟩

/-- A snapshot that is inserted leaves the events and the orders alone. -/
theorem insertSnapshot_keeps {r : Rebuild δ} {createdAt : ℤ} {u : Unit}
    (h : execute (insertSnapshot r createdAt) t = (.ok u, t')) :
    t'.events = t.events ∧ t'.orders = t.orders := by
  simp only [insertSnapshot, execute_bind_eq_ok, execute_get, execute_lift, execute_modify,
    Prod.mk.injEq, Except.ok.injEq] at h
  obtain ⟨_, _, ⟨rfl, rfl⟩, _, _, ⟨-, rfl⟩, -, rfl⟩ := h
  exact ⟨rfl, rfl⟩

/-- A replay leaves the tables alone. -/
theorem rebuildFromEvents_keeps {r : Rebuild δ}
    (h : execute (rebuildFromEvents hash) t = (.ok r, t')) : t' = t := by
  simp only [rebuildFromEvents, execute_bind_eq_ok, execute_get, execute_lift, Prod.mk.injEq] at h
  obtain ⟨_, _, ⟨-, rfl⟩, -, rfl⟩ := h
  rfl

/-- The end of a mutation, which replays what it wrote and inserts the snapshot, leaves the
events and the orders alone. -/
theorem recorded_keeps {r : Rebuild δ} {createdAt : ℤ} {u : Unit} {after : Tables δ}
    (hrebuild : execute (rebuildFromEvents hash) t = (.ok r, after))
    (hsnapshot : execute (insertSnapshot r createdAt) after = (.ok u, t')) :
    t'.events = t.events ∧ t'.orders = t.orders := by
  obtain rfl := rebuildFromEvents_keeps hrebuild
  exact insertSnapshot_keeps hsnapshot

/-- The order update of a fill over the tables is that over their orders. -/
theorem fillOrder_eq_ok {fill : RawFill} {occurredAt : ℤ} {u : Unit}
    (h : execute (fillOrder fill occurredAt) t = (.ok u, t')) :
    ∃ orders, Store.fillOrder t.orders occurredAt fill = .ok orders ∧
      orders.map (·.orderId) = t.orders.map (·.orderId) ∧ { t with orders } = t' := by
  simp only [fillOrder, execute_bind_eq_ok, selectOrder_eq_ok] at h
  obtain ⟨order, _, ⟨horder, rfl⟩, h⟩ := h
  simp only [Store.fillOrder, horder]
  cases order with
  | none =>
    obtain ⟨-, rfl⟩ := Prod.mk.inj h
    exact ⟨t.orders, rfl, rfl, rfl⟩
  | some order =>
    simp only [execute_bind_eq_ok, execute_lift, Prod.mk.injEq, reject_eq_ok, updateOrder,
      execute_modify] at h
    obtain ⟨_, _, ⟨hside, rfl⟩, _, _, ⟨hactive, rfl⟩, _, _, ⟨htotal, rfl⟩, -, rfl⟩ := h
    simp only [Except.bind_eq_ok, reject_eq_ok, Except.pure_eq_ok]
    exact ⟨_, ⟨(), hside, (), hactive, (), htotal, rfl⟩, replaceOrder_ids _ _, rfl⟩

variable [DecidableEq δ]

/-- A verification passes exactly the verified tables. -/
theorem replayAndVerify_eq_ok {snapshot : PaperSnapshot} :
    execute (replayAndVerify hash) t = (.ok snapshot, t') ↔
      verifyTables hash t = .ok snapshot ∧ t = t' := by
  simp only [replayAndVerify, execute_bind_eq_ok, execute_get, execute_lift, Prod.mk.injEq,
    Except.ok.injEq]
  constructor
  · rintro ⟨_, _, ⟨rfl, rfl⟩, hverified, rfl⟩
    exact ⟨hverified, rfl⟩
  · rintro ⟨hverified, rfl⟩
    exact ⟨_, _, ⟨rfl, rfl⟩, hverified, rfl⟩

/-- A mutation that succeeds has verified what it leaves. -/
theorem mutationTransaction_eq_ok {α : Type} {body : StoreM δ α} {result : α}
    (h : execute (mutationTransaction hash body) t = (.ok result, t')) :
    execute body t = (.ok result, t') ∧ VerifiedTables hash t' := by
  have hbody := execute_transaction_eq_ok.mp h
  simp only [execute_bind_eq_ok, execute_pure, Prod.mk.injEq, Except.ok.injEq,
    replayAndVerify_eq_ok] at hbody
  obtain ⟨_, _, hresult, snapshot, _, ⟨hverified, rfl⟩, rfl, rfl⟩ := hbody
  exact ⟨hresult, snapshot, hverified⟩

/-! ## What the tables hold -/

/-- Verified tables that hold a verified database. -/
structure Represents (hash : EventHash δ) (t : Tables δ) (db : Database) : Prop where
  events : t.events = db.events.map StoredEvent.row
  orders : t.orders = db.orders
  verified : VerifiedTables hash t
  database : Verified db

/-- The replay of the tables is that of the database. -/
theorem Represents.replayed {r : Rebuild δ} (h : Represents hash t db)
    (hr : Replayed hash t.events r) : r.evidence = db.events := by
  have hrows := hr.rows_eq
  rw [h.events] at hrows
  exact (List.map_injective_iff.mpr row_injective hrows).symm

/-- The next sequence number of the tables is that of the database. -/
theorem Represents.tail (h : Represents hash t db) : t.eventsTail.getD 0 = db.events.length := by
  obtain ⟨snapshot, hverified⟩ := h.verified
  obtain ⟨r, hr, htail, -⟩ := verifyTables_eq_ok hverified
  rw [htail, (envelopes_of_rebuild hr.replay).lastSequence, h.replayed hr]

/-- The snapshot of the tables is that of the database. -/
theorem Represents.snapshot {snapshot : PaperSnapshot} (h : Represents hash t db)
    (hverified : verifyTables hash t = .ok snapshot) : Store.replayAndVerify db = .ok snapshot := by
  obtain ⟨r, hr, -, -, rfl, -⟩ := verifyTables_eq_ok hverified
  obtain ⟨s, hs, horders⟩ := h.database.rebuild
  have hreplay := hr.replay
  rw [h.replayed hr, hs] at hreplay
  obtain rfl := Except.ok.inj hreplay
  rw [h.replayed hr]
  exact Store.replayAndVerify_eq_ok.mpr ⟨_, hs, horders, rfl⟩

/-- The statements find the events of the database. -/
theorem Represents.find (h : Represents hash t db) (eventId : EventId) :
    t.events.find? (·.eventId = eventId) = (findEvent db.events eventId).map StoredEvent.row := by
  rw [h.events, List.find?_map]
  rfl

/-- An identifier that is new in the tables is new in the database. -/
theorem Represents.fresh {eventId : EventId} (h : Represents hash t db)
    (hfresh : ∀ row ∈ t.events, row.eventId ≠ eventId) : findEvent db.events eventId = none := by
  rw [h.events, List.forall_mem_map] at hfresh
  exact List.find?_eq_none.mpr fun event hevent => by simpa [StoredEvent.row] using hfresh event hevent

/-- A timestamp that is not before the last one of the tables is not before that of the database. -/
theorem Represents.ordered {occurredAt : ℤ} (h : Represents hash t db)
    (hordered : ∀ row ∈ t.events.getLast?, ∃ latest,
      row.occurredAtUtc = .canonical latest ∧ latest ≤ occurredAt) :
    ∀ last ∈ db.events.getLast?, last.occurredAtUtc ≤ occurredAt := by
  intro last hlast
  rw [h.events, List.getLast?_map] at hordered
  obtain ⟨latest, hlatest, hle⟩ := hordered last.row (Option.mem_map_of_mem _ hlast)
  rwa [← Encoded.canonical.inj hlatest] at hle

/-- Verified tables with one more event hold a verified database, when their orders begin with
the identities of the orders before. -/
theorem Represents.appended {eventId : EventId} {occurredAt : ℤ} {payload : Payload}
    {added : List PaperId} (h : Represents hash t db)
    (hevents : t'.events = t.events ++ [(db.nextEvent eventId occurredAt payload).row])
    (hids : t'.orders.map (·.orderId) = db.orders.map (·.orderId) ++ added)
    (hverified : VerifiedTables hash t') :
    Represents hash t' ⟨db.events ++ [db.nextEvent eventId occurredAt payload], t'.orders⟩ := by
  have hrows : t'.events =
      (db.events ++ [db.nextEvent eventId occurredAt payload]).map StoredEvent.row := by
    rw [hevents, h.events, List.map_append, List.map_singleton]
  refine ⟨hrows, rfl, hverified, ?_⟩
  obtain ⟨snapshot, hsnapshot⟩ := hverified
  obtain ⟨r, hr, -, hperm, -⟩ := verifyTables_eq_ok hsnapshot
  have hevidence : r.evidence = db.events ++ [db.nextEvent eventId occurredAt payload] := by
    have hsame := hr.rows_eq
    rw [hrows] at hsame
    exact (List.map_injective_iff.mpr row_injective hsame).symm
  have hreplay := hr.replay
  rw [hevidence] at hreplay
  obtain ⟨s, hs, horders⟩ := h.database.rebuild
  obtain ⟨s', hs', hevent⟩ := rebuild_snoc.mp hreplay
  obtain rfl : s' = s := Except.ok.inj (hs'.symm.trans hs)
  obtain ⟨-, -, -, u, hu, hprojection⟩ := replayEvent_eq_ok.mp hevent
  obtain ⟨created, hone, hcreated⟩ : ∃ created : List PaperId, created.length ≤ 1 ∧
      u.orders.map (·.orderId) = s'.orders.map (·.orderId) ++ created := by
    refine ⟨_, ?_, replayPayload_orderIds hu⟩
    split <;> simp
  have hreplayed : r.projection.orders.map (·.orderId) = db.orders.map (·.orderId) ++ created := by
    rw [hprojection, horders]
    exact hcreated
  -- the orders and the replayed ones have the same identities in the same order
  have hkeys : t'.orders.map (·.orderId) = r.projection.orders.map (·.orderId) := by
    have hsame := hperm.map (·.orderId)
    rw [hids, hreplayed, List.perm_append_left_iff] at hsame
    rw [hids, hreplayed]
    rcases created with _ | ⟨first, _ | ⟨second, rest⟩⟩
    · rw [List.perm_nil.mp hsame]
    · rw [List.perm_singleton.mp hsame]
    · simp at hone
  have hsame : t'.orders = r.projection.orders :=
    eq_of_perm_of_map hperm hkeys (hkeys ▸ orders_nodup hr.replay)
  exact ⟨_, Store.replayAndVerify_eq_ok.mpr ⟨r.projection, hreplay, hsame, rfl⟩⟩

/-! ## The mutations -/

/-- The row that an insertion adds is that of the next event. -/
theorem Represents.row (h : Represents hash t db) (eventId : EventId) (occurredAt : ℤ)
    (payload : Payload) :
    (⟨t.eventsTail.getD 0 + 1, eventId, .canonical occurredAt, .canonical payload⟩ : EventRow) =
      (db.nextEvent eventId occurredAt payload).row := by
  rw [h.tail]
  simp [StoredEvent.row, Database.nextEvent]

/-- `append_event` over the tables does what it does to the database that they hold. -/
theorem appendEvent_refines {eventId : EventId} {occurredAt sequence : ℤ} {payload : Payload}
    (h : Represents hash t db)
    (hrun : execute (appendEvent hash eventId occurredAt payload) t = (.ok sequence, t')) :
    ∃ db', Store.appendEvent db eventId occurredAt payload = .ok db' ∧ Represents hash t' db' := by
  simp only [appendEvent, execute_bind_eq_ok, execute_lift, Prod.mk.injEq, reject_eq_ok] at hrun
  obtain ⟨_, _, ⟨hid, rfl⟩, _, _, ⟨htype, rfl⟩, _, _, ⟨hknown, rfl⟩, hrun⟩ := hrun
  obtain ⟨hbody, hverified⟩ := mutationTransaction_eq_ok hrun
  simp only [execute_bind_eq_ok, replayAndVerify_eq_ok, selectEvent_eq_ok, execute_lift,
    insertEvent_eq_ok, execute_pure, Prod.mk.injEq] at hbody
  obtain ⟨snapshot, _, ⟨hsnapshot, rfl⟩, _, _, ⟨-, rfl⟩, _, _, ⟨-, rfl⟩, _, _, htime, _, _,
    ⟨hfresh, rfl, rfl⟩, _, _, hrebuild, _, after, hrecorded, -, rfl⟩ := hbody
  obtain ⟨rfl, hordered⟩ := validateTimestampOrder_eq_ok htime
  obtain ⟨hevents, horders⟩ := recorded_keeps hrebuild hrecorded
  have hsame : after.orders = db.orders := horders.trans h.orders
  have hids : after.orders.map (·.orderId) = db.orders.map (·.orderId) ++ [] := by
    rw [hsame, List.append_nil]
  have hafter := h.appended (hevents.trans (by rw [h.row])) hids hverified
  rw [hsame] at hafter
  have hnone := h.fresh hfresh
  refine ⟨_, ?_, hafter⟩
  simp only [Store.appendEvent, Except.bind_eq_ok, reject_eq_ok, Store.validateTimestampOrder_eq_ok,
    Store.insertEvent_eq_ok, commit_eq_ok]
  exact ⟨(), hid, (), htype, (), hknown, snapshot, h.snapshot hsnapshot, (), by simp [hnone], (),
    h.ordered hordered, _, ⟨hnone, rfl⟩, hafter.database, rfl⟩

/-- `record_order_once` over the tables does what it does to the database that they hold. -/
theorem recordOrderOnce_refines {key : Key} {side : Side} {quantity : ℚ} {orderId : PaperId}
    {occurredAt : ℤ} {status : OrderStatus} {isNew : Bool} (h : Represents hash t db)
    (hrun : execute (recordOrderOnce hash key side quantity orderId occurredAt status) t =
      (.ok isNew, t')) :
    ∃ db', Store.recordOrderOnce db key side quantity orderId occurredAt status =
      .ok (isNew, db') ∧ Represents hash t' db' := by
  simp only [recordOrderOnce, execute_bind_eq_ok, execute_lift, Prod.mk.injEq, reject_eq_ok] at hrun
  obtain ⟨_, _, ⟨hkey, rfl⟩, _, _, ⟨hid, rfl⟩, _, _, ⟨hquantity, rfl⟩, _, _, ⟨hstatus, rfl⟩,
    hrun⟩ := hrun
  obtain ⟨hbody, hverified⟩ := mutationTransaction_eq_ok hrun
  simp only [execute_bind_eq_ok, replayAndVerify_eq_ok, selectOrderByKey_eq_ok] at hbody
  obtain ⟨snapshot, _, ⟨hsnapshot, rfl⟩, existing, _, ⟨hexisting, rfl⟩, hbody⟩ := hbody
  rw [h.orders] at hexisting
  simp only [Store.recordOrderOnce, Except.bind_eq_ok, reject_eq_ok, hexisting]
  cases existing with
  | some existing =>
    simp only [execute_bind_eq_ok, selectEvent_eq_ok, h.find] at hbody
    obtain ⟨created, _, ⟨hcreated, rfl⟩, hbody⟩ := hbody
    split at hbody
    · next hsame =>
      obtain ⟨hresult, rfl⟩ := Prod.mk.inj hbody
      obtain ⟨horder, hside, hclose, row, hrow, htime, hpayload⟩ := hsame
      rw [← hcreated, Option.mem_def, Option.map_eq_some_iff] at hrow
      obtain ⟨event, hevent, rfl⟩ := hrow
      refine ⟨db, ⟨(), hkey, (), hid, (), hquantity, (), hstatus, snapshot, h.snapshot hsnapshot, ?_⟩,
        h⟩
      dsimp only
      rw [if_pos ⟨horder, hside, hclose, event, hevent, Encoded.canonical.inj htime,
        Encoded.canonical.inj hpayload⟩, ← Except.ok.inj hresult]
      rfl
    · cases congrArg Prod.fst hbody
  | none =>
    simp only [execute_bind_eq_ok, selectOrder_eq_ok, execute_lift, insertEvent_eq_ok, execute_pure,
      Prod.mk.injEq, reject_eq_ok] at hbody
    obtain ⟨_, _, ⟨rfl, rfl⟩, _, _, ⟨hnew, rfl⟩, _, _, ⟨hinventory, rfl⟩, _, _, htime, _, _,
      ⟨hfresh, rfl, rfl⟩, _, _, hinsert, _, _, hrebuild, _, after, hrecorded, hresult, rfl⟩ := hbody
    obtain ⟨rfl, hordered⟩ := validateTimestampOrder_eq_ok htime
    obtain rfl := insertOrder_eq_ok hinsert
    obtain ⟨hevents, horders⟩ := recorded_keeps hrebuild hrecorded
    have hsame : after.orders = db.orders ++ [⟨orderId, key, side, quantity, 0, status, occurredAt⟩] :=
      horders.trans (by rw [h.orders])
    have hids : after.orders.map (·.orderId) = db.orders.map (·.orderId) ++ [orderId] := by
      rw [hsame, List.map_append, List.map_singleton]
    have hafter := h.appended (hevents.trans (by rw [h.row])) hids hverified
    rw [hsame] at hafter
    have hnone := h.fresh hfresh
    refine ⟨_, ⟨(), hkey, (), hid, (), hquantity, (), hstatus, snapshot, h.snapshot hsnapshot, ?_⟩,
      hafter⟩
    rw [h.orders] at hnew
    simp only [Except.bind_eq_ok, reject_eq_ok, Store.validateTimestampOrder_eq_ok,
      Store.insertEvent_eq_ok, commit_eq_ok, Except.pure_eq_ok, Prod.mk.injEq]
    exact ⟨(), hnew, (), hinventory, (), h.ordered hordered, _, ⟨hnone, rfl⟩, _,
      ⟨hafter.database, rfl⟩, Except.ok.inj hresult, rfl⟩

/-- `append_fill` over the tables does what it does to the database that they hold. -/
theorem appendFill_refines {fill : RawFill} {occurredAt : ℤ} {fillId : EventId} {isNew : Bool}
    (h : Represents hash t db)
    (hrun : execute (appendFill hash fill occurredAt fillId) t = (.ok isNew, t')) :
    ∃ db', Store.appendFill db fill occurredAt fillId = .ok (isNew, db') ∧
      Represents hash t' db' := by
  simp only [appendFill, execute_bind_eq_ok, execute_lift, Prod.mk.injEq, reject_eq_ok] at hrun
  obtain ⟨_, _, ⟨hid, rfl⟩, _, _, ⟨hquantity, rfl⟩, _, _, ⟨hprice, rfl⟩, _, _, ⟨hfee, rfl⟩, _, _,
    ⟨hfillId, rfl⟩, hrun⟩ := hrun
  obtain ⟨hbody, hverified⟩ := mutationTransaction_eq_ok hrun
  simp only [execute_bind_eq_ok, replayAndVerify_eq_ok, selectEvent_eq_ok] at hbody
  obtain ⟨snapshot, _, ⟨hsnapshot, rfl⟩, existing, _, ⟨hexisting, rfl⟩, hbody⟩ := hbody
  simp only [Store.appendFill, Except.bind_eq_ok, reject_eq_ok]
  cases hfound : findEvent db.events fillId with
  | some event =>
    rw [h.find, hfound, Option.map_some] at hexisting
    subst hexisting
    dsimp only at hbody
    split at hbody
    · next hsame =>
      obtain ⟨hresult, rfl⟩ := Prod.mk.inj hbody
      refine ⟨db, ⟨(), hid, (), hquantity, (), hprice, (), hfee, (), hfillId, snapshot,
        h.snapshot hsnapshot, ?_⟩, h⟩
      dsimp only
      rw [if_pos ⟨Encoded.canonical.inj hsame.1, Encoded.canonical.inj hsame.2⟩,
        ← Except.ok.inj hresult]
      rfl
    · cases congrArg Prod.fst hbody
  | none =>
    rw [h.find, hfound, Option.map_none] at hexisting
    subst hexisting
    simp only [execute_bind_eq_ok, execute_lift, insertEvent_eq_ok, execute_pure,
      Prod.mk.injEq] at hbody
    obtain ⟨_, _, htime, _, _, ⟨hbalance, rfl⟩, _, _, hfill, _, _, ⟨hfresh, rfl, rfl⟩, _, _,
      hrebuild, _, after, hrecorded, hresult, rfl⟩ := hbody
    obtain ⟨rfl, hordered⟩ := validateTimestampOrder_eq_ok htime
    obtain ⟨orders, hfilled, hids, rfl⟩ := fillOrder_eq_ok hfill
    obtain ⟨hevents, horders⟩ := recorded_keeps hrebuild hrecorded
    rw [h.orders] at hfilled hids
    have hids : after.orders.map (·.orderId) = db.orders.map (·.orderId) ++ [] := by
      rw [horders, List.append_nil]
      exact hids
    have hafter := h.appended (hevents.trans (by rw [h.row])) hids hverified
    rw [horders] at hafter
    refine ⟨_, ⟨(), hid, (), hquantity, (), hprice, (), hfee, (), hfillId, snapshot,
      h.snapshot hsnapshot, ?_⟩, hafter⟩
    simp only [Except.bind_eq_ok, Store.validateTimestampOrder_eq_ok, Store.insertEvent_eq_ok,
      commit_eq_ok, Except.pure_eq_ok, Prod.mk.injEq]
    exact ⟨(), h.ordered hordered, (), hbalance, orders, hfilled, _, ⟨hfound, rfl⟩, _,
      ⟨hafter.database, rfl⟩, Except.ok.inj hresult, rfl⟩

/-- `transition_order_status` over the tables does what it does to the database that they
hold. -/
theorem transitionOrderStatus_refines {orderId : PaperId} {key : Key} {status : OrderStatus}
    {occurredAt : ℤ} {reason : Option String} {isNew : Bool} (h : Represents hash t db)
    (hrun : execute (transitionOrderStatus hash orderId key status occurredAt reason) t =
      (.ok isNew, t')) :
    ∃ db', Store.transitionOrderStatus db orderId key status occurredAt reason =
      .ok (isNew, db') ∧ Represents hash t' db' := by
  simp only [transitionOrderStatus, execute_bind_eq_ok, execute_lift, Prod.mk.injEq,
    reject_eq_ok] at hrun
  obtain ⟨_, _, ⟨hid, rfl⟩, _, _, ⟨hkey, rfl⟩, _, _, ⟨hreason, rfl⟩, hrun⟩ := hrun
  obtain ⟨hbody, hverified⟩ := mutationTransaction_eq_ok hrun
  simp only [execute_bind_eq_ok, replayAndVerify_eq_ok, selectEvent_eq_ok] at hbody
  obtain ⟨snapshot, _, ⟨hsnapshot, rfl⟩, existing, _, ⟨hexisting, rfl⟩, hbody⟩ := hbody
  simp only [Store.transitionOrderStatus, Except.bind_eq_ok, reject_eq_ok]
  cases hfound : findEvent db.events (.orderStatus key) with
  | some event =>
    rw [h.find, hfound, Option.map_some] at hexisting
    subst hexisting
    dsimp only at hbody
    split at hbody
    · next hsame =>
      obtain ⟨hresult, rfl⟩ := Prod.mk.inj hbody
      refine ⟨db, ⟨(), hid, (), hkey, (), hreason, snapshot, h.snapshot hsnapshot, ?_⟩, h⟩
      dsimp only
      rw [if_pos ⟨Encoded.canonical.inj hsame.1, Encoded.canonical.inj hsame.2⟩,
        ← Except.ok.inj hresult]
      rfl
    · cases congrArg Prod.fst hbody
  | none =>
    rw [h.find, hfound, Option.map_none] at hexisting
    subst hexisting
    simp only [execute_bind_eq_ok, selectOrder_eq_ok] at hbody
    obtain ⟨order, _, ⟨horder, rfl⟩, hbody⟩ := hbody
    rw [h.orders] at horder
    simp only [horder]
    cases order with
    | none => cases congrArg Prod.fst hbody
    | some order =>
      simp only [execute_bind_eq_ok, execute_lift, insertEvent_eq_ok, updateOrder, execute_modify,
        execute_pure, Prod.mk.injEq, reject_eq_ok] at hbody
      obtain ⟨_, _, ⟨hlegal, rfl⟩, _, _, htime, _, _, ⟨hfresh, rfl, rfl⟩, _, _, ⟨-, rfl⟩, _, _,
        hrebuild, _, after, hrecorded, hresult, rfl⟩ := hbody
      obtain ⟨rfl, hordered⟩ := validateTimestampOrder_eq_ok htime
      obtain ⟨hevents, horders⟩ := recorded_keeps hrebuild hrecorded
      have hids : after.orders.map (·.orderId) = db.orders.map (·.orderId) ++ [] := by
        rw [horders, List.append_nil, ← h.orders]
        exact replaceOrder_ids _ _
      have hafter := h.appended (hevents.trans (by rw [h.row])) hids hverified
      rw [horders, h.orders] at hafter
      refine ⟨_, ⟨(), hid, (), hkey, (), hreason, snapshot, h.snapshot hsnapshot, ?_⟩, hafter⟩
      simp only [Except.bind_eq_ok, reject_eq_ok, Store.validateTimestampOrder_eq_ok,
        Store.insertEvent_eq_ok, commit_eq_ok, Except.pure_eq_ok, Prod.mk.injEq]
      exact ⟨(), hlegal, (), h.ordered hordered, _, ⟨hfound, rfl⟩, _, ⟨hafter.database, rfl⟩,
        Except.ok.inj hresult, rfl⟩

/-- Every mutation over the tables does what its operation does to the database that they
hold. -/
theorem Mutation.refines {m : Mutation} {u : Unit} (h : Represents hash t db)
    (hrun : execute (m.run hash) t = (.ok u, t')) :
    ∃ db', m.apply db = .ok db' ∧ Represents hash t' db' := by
  cases m with
  | appendEvent eventId occurredAt payload =>
    obtain ⟨_, _, hrun, ⟨⟩⟩ := execute_bind_eq_ok.mp hrun
    exact appendEvent_refines h hrun
  | recordOrderOnce key side quantity orderId occurredAt status =>
    obtain ⟨_, _, hrun, ⟨⟩⟩ := execute_bind_eq_ok.mp hrun
    obtain ⟨db', hok, hafter⟩ := recordOrderOnce_refines h hrun
    exact ⟨db', Except.map_eq_ok.mpr ⟨_, hok, rfl⟩, hafter⟩
  | appendFill fill occurredAt fillId =>
    obtain ⟨_, _, hrun, ⟨⟩⟩ := execute_bind_eq_ok.mp hrun
    obtain ⟨db', hok, hafter⟩ := appendFill_refines h hrun
    exact ⟨db', Except.map_eq_ok.mpr ⟨_, hok, rfl⟩, hafter⟩
  | transitionOrderStatus orderId key status occurredAt reason =>
    obtain ⟨_, _, hrun, ⟨⟩⟩ := execute_bind_eq_ok.mp hrun
    obtain ⟨db', hok, hafter⟩ := transitionOrderStatus_refines h hrun
    exact ⟨db', Except.map_eq_ok.mpr ⟨_, hok, rfl⟩, hafter⟩

/-! ## Sessions -/

/-- One operation on a database. -/
def Operates (db db' : Database) : Prop := ∃ m : Mutation, m.apply db = .ok db'

/-- The databases that the operations reach. -/
def Reached (db : Database) : Prop := Relation.ReflTransGen Operates {} db

/-- A new database holds nothing. -/
theorem represents_createSchema (hash : EventHash δ) : Represents hash (createSchema hash) {} :=
  ⟨rfl, rfl, verified_createSchema hash,
    ⟨_, Store.replayAndVerify_eq_ok.mpr ⟨{}, rfl, rfl, rfl⟩⟩⟩

/-- Every state of the tables of a session holds a database that the operations reach. -/
def Session.Represents (hash : EventHash δ) (s : Session δ) : Prop :=
  ∀ t ∈ s.tables :: s.saved, ∃ db, Reached db ∧ Sql.Represents hash t db

/-- A mutation that succeeds is one operation more, and one that fails changes nothing. -/
theorem Session.Represents.mutate {s : Session δ} (h : s.Represents hash) (m : Mutation) :
    Session.Represents hash { s with tables := (execute (m.run hash) s.tables).2 } := by
  intro t ht
  rcases List.mem_cons.mp ht with rfl | hsaved
  · obtain ⟨db, hreached, hdb⟩ := h s.tables List.mem_cons_self
    rcases hresult : execute (m.run hash) s.tables with ⟨failure | ⟨⟩, after⟩
    · obtain rfl := m.atomic hash _ _ _ hresult
      exact ⟨db, hreached, hdb⟩
    · obtain ⟨db', hok, hafter⟩ := Mutation.refines hdb hresult
      exact ⟨db', hreached.tail ⟨m, hok⟩, hafter⟩
  · exact h t (List.mem_cons_of_mem _ hsaved)

/-- A step of a session keeps its tables holding databases that the operations reach. -/
theorem Session.Represents.step {s s' : Session δ} (h : s.Represents hash)
    (hstep : Session.Step hash s s') : s'.Represents hash := by
  cases hstep with
  | mutate _ m => exact h.mutate m
  | begin_ =>
    intro t ht
    exact h t (by simpa using ht)
  | commit t entry outer hverified =>
    intro other hother
    refine h other ?_
    rcases List.mem_cons.mp hother with rfl | houter
    · exact List.mem_cons_self
    · exact List.mem_cons_of_mem _ (List.mem_cons_of_mem _ houter)
  | rollback t entry outer =>
    intro other hother
    exact h other (List.mem_cons_of_mem _ hother)
  | crash =>
    intro t ht
    obtain rfl := List.mem_singleton.mp ht
    exact h _ s.durable_mem

/-- Whatever the mutations and the transactions of a session, its tables and the ones that its
open transactions fall back to hold databases that the operations reach. -/
theorem Session.Run.represents {s : Session δ}
    (hrun : Session.Run hash ⟨createSchema hash, []⟩ s) : s.Represents hash := by
  induction hrun with
  | refl =>
    intro t ht
    obtain rfl := List.mem_singleton.mp ht
    exact ⟨{}, .refl, represents_createSchema hash⟩
  | step _ hstep ih => exact ih.step hstep

end

end AutoBit.Store.Sql
