import AutoBit.Store.Lifecycle
import AutoBit.Store.Transactions

/-!
# Sessions of mutations

A session runs mutations in nested transactions, which commit, roll back or are cut off by a
crash. Every state of its tables is verified and extends the ones that its open
transactions would fall back to, so the durable log only grows.
-/

namespace AutoBit.Store.Sql

open Library

section

variable {δ : Type}

/-- One state of the tables has all events of another, at its beginning. -/
def Extends (t t' : Tables δ) : Prop := t.events <+: t'.events

instance : Std.Refl (Extends (δ := δ)) := ⟨fun t => List.prefix_refl t.events⟩

instance : IsTrans (Tables δ) Extends := ⟨fun _ _ _ h h' => h.trans h'⟩

/-- Selecting an event extends the tables by nothing. -/
theorem extends_selectEvent (eventId : EventId) :
    Respects Extends (selectEvent eventId : StoreM δ (Option EventRow)) :=
  respects_bind respects_get fun _ => respects_pure _

/-- Selecting an order extends the tables by nothing. -/
theorem extends_selectOrder (orderId : PaperId) :
    Respects Extends (selectOrder orderId : StoreM δ (Option StoredOrder)) :=
  respects_bind respects_get fun _ => respects_pure _

/-- Selecting an order by its key extends the tables by nothing. -/
theorem extends_selectOrderByKey (key : Key) :
    Respects Extends (selectOrderByKey key : StoreM δ (Option StoredOrder)) :=
  respects_bind respects_get fun _ => respects_pure _

/-- The insertion of an event extends the log. -/
theorem extends_insertEvent (eventId : EventId) (occurredAt : ℤ) (payload : Payload) :
    Respects Extends (insertEvent eventId occurredAt payload : StoreM δ ℤ) := by
  refine respects_bind respects_get fun t => ?_
  refine respects_bind (respects_lift _) fun _ => ?_
  refine respects_bind (respects_modify fun t => ?_) fun _ => respects_pure _
  exact List.prefix_append _ _

/-- An inserted order extends the tables. -/
theorem extends_insertOrder (order : StoredOrder) :
    Respects Extends (insertOrder order : StoreM δ Unit) := by
  refine respects_bind respects_get fun t => ?_
  refine respects_bind (respects_lift _) fun _ => ?_
  exact respects_modify fun t => List.prefix_refl _

/-- An updated order extends the tables. -/
theorem extends_updateOrder (order : StoredOrder) :
    Respects Extends (updateOrder order : StoreM δ Unit) :=
  respects_modify fun _ => List.prefix_refl _

/-- A filled order extends the tables. -/
theorem extends_fillOrder (fill : RawFill) (occurredAt : ℤ) :
    Respects Extends (fillOrder fill occurredAt : StoreM δ Unit) := by
  refine respects_bind (extends_selectOrder fill.orderId) fun order => ?_
  split
  · exact respects_pure _
  · refine respects_bind (respects_lift _) fun _ => respects_bind (respects_lift _) fun _ => ?_
    exact respects_bind (respects_lift _) fun _ => extends_updateOrder _

/-- The check of a timestamp extends the tables by nothing. -/
theorem extends_validateTimestampOrder (occurredAt : ℤ) :
    Respects Extends (validateTimestampOrder occurredAt : StoreM δ Unit) := by
  refine respects_bind respects_get fun t => ?_
  split
  · exact respects_pure _
  · exact respects_bind (respects_lift _) fun _ => respects_lift _

variable (hash : EventHash δ)

/-- A replay extends the tables by nothing. -/
theorem extends_rebuildFromEvents : Respects Extends (rebuildFromEvents hash) :=
  respects_bind respects_get fun _ => respects_lift _

/-- An inserted snapshot extends the tables. -/
theorem extends_insertSnapshot (r : Rebuild δ) (createdAt : ℤ) :
    Respects Extends (insertSnapshot r createdAt) := by
  refine respects_bind respects_get fun t => ?_
  refine respects_bind (respects_lift _) fun _ => ?_
  exact respects_modify fun t => List.prefix_refl _

variable [DecidableEq δ]

/-- A verification extends the tables by nothing. -/
theorem extends_replayAndVerify : Respects Extends (replayAndVerify hash) :=
  respects_bind respects_get fun _ => respects_lift _

/-- A mutation extends the tables when its body does. -/
theorem extends_mutationTransaction {α : Type} {body : StoreM δ α}
    (h : Respects Extends body) : Respects Extends (mutationTransaction hash body) :=
  respects_transaction (respects_bind h fun _ =>
    respects_bind (extends_replayAndVerify hash) fun _ => respects_pure _)

/-- Every mutation extends the log, or leaves it as it is. -/
theorem Mutation.extends (m : Mutation) : Respects Extends (m.run hash) := by
  cases m with
  | appendEvent eventId occurredAt payload =>
    refine respects_bind ?_ fun _ => respects_pure _
    refine respects_bind (respects_lift _) fun _ => respects_bind (respects_lift _) fun _ =>
      respects_bind (respects_lift _) fun _ => extends_mutationTransaction hash ?_
    refine respects_bind (extends_replayAndVerify hash) fun _ => ?_
    refine respects_bind (extends_selectEvent eventId) fun _ => ?_
    refine respects_bind (respects_lift _) fun _ => ?_
    refine respects_bind (extends_validateTimestampOrder occurredAt) fun _ => ?_
    refine respects_bind (extends_insertEvent eventId occurredAt payload) fun _ => ?_
    refine respects_bind (extends_rebuildFromEvents hash) fun replay => ?_
    exact respects_bind (extends_insertSnapshot replay occurredAt) fun _ => respects_pure _
  | recordOrderOnce key side quantity orderId occurredAt status =>
    refine respects_bind ?_ fun _ => respects_pure _
    refine respects_bind (respects_lift _) fun _ => respects_bind (respects_lift _) fun _ =>
      respects_bind (respects_lift _) fun _ => respects_bind (respects_lift _) fun _ =>
      extends_mutationTransaction hash ?_
    refine respects_bind (extends_replayAndVerify hash) fun current => ?_
    refine respects_bind (extends_selectOrderByKey key) fun existing => ?_
    split
    · refine respects_bind (extends_selectEvent _) fun createdEvent => ?_
      split
      · exact respects_pure _
      · exact respects_lift _
    · refine respects_bind (extends_selectOrder orderId) fun sameId => ?_
      refine respects_bind (respects_lift _) fun _ => respects_bind (respects_lift _) fun _ => ?_
      refine respects_bind (extends_validateTimestampOrder occurredAt) fun _ => ?_
      refine respects_bind (extends_insertEvent _ occurredAt _) fun _ => ?_
      refine respects_bind (extends_insertOrder _) fun _ => ?_
      refine respects_bind (extends_rebuildFromEvents hash) fun replay => ?_
      exact respects_bind (extends_insertSnapshot replay occurredAt) fun _ => respects_pure _
  | appendFill fill occurredAt fillId =>
    refine respects_bind ?_ fun _ => respects_pure _
    refine respects_bind (respects_lift _) fun _ => respects_bind (respects_lift _) fun _ =>
      respects_bind (respects_lift _) fun _ => respects_bind (respects_lift _) fun _ =>
      respects_bind (respects_lift _) fun _ => extends_mutationTransaction hash ?_
    refine respects_bind (extends_replayAndVerify hash) fun current => ?_
    refine respects_bind (extends_selectEvent fillId) fun existing => ?_
    split
    · split
      · exact respects_pure _
      · exact respects_lift _
    · refine respects_bind (extends_validateTimestampOrder occurredAt) fun _ => ?_
      refine respects_bind (respects_lift _) fun _ => ?_
      refine respects_bind (extends_fillOrder fill occurredAt) fun _ => ?_
      refine respects_bind (extends_insertEvent _ occurredAt _) fun _ => ?_
      refine respects_bind (extends_rebuildFromEvents hash) fun replay => ?_
      exact respects_bind (extends_insertSnapshot replay occurredAt) fun _ => respects_pure _
  | transitionOrderStatus orderId key status occurredAt reason =>
    refine respects_bind ?_ fun _ => respects_pure _
    refine respects_bind (respects_lift _) fun _ => respects_bind (respects_lift _) fun _ =>
      respects_bind (respects_lift _) fun _ => extends_mutationTransaction hash ?_
    refine respects_bind (extends_replayAndVerify hash) fun current => ?_
    refine respects_bind (extends_selectEvent _) fun existing => ?_
    split
    · split
      · exact respects_pure _
      · exact respects_lift _
    · refine respects_bind (extends_selectOrder orderId) fun order => ?_
      split
      · exact respects_lift _
      · refine respects_bind (respects_lift _) fun _ => ?_
        refine respects_bind (extends_validateTimestampOrder occurredAt) fun _ => ?_
        refine respects_bind (extends_insertEvent _ occurredAt _) fun _ => ?_
        refine respects_bind (extends_updateOrder _) fun _ => ?_
        refine respects_bind (extends_rebuildFromEvents hash) fun replay => ?_
        exact respects_bind (extends_insertSnapshot replay occurredAt) fun _ => respects_pure _

/-- A call that raises leaves the events, the orders and the snapshots as they were. -/
theorem Mutation.atomic (m : Mutation) : Atomic (m.run hash) := by
  cases m with
  | appendEvent eventId occurredAt payload =>
    refine atomic_bind_pure ?_
    exact atomic_lift_bind fun _ => atomic_lift_bind fun _ => atomic_lift_bind fun _ =>
      atomic_transaction _
  | recordOrderOnce key side quantity orderId occurredAt status =>
    refine atomic_bind_pure ?_
    exact atomic_lift_bind fun _ => atomic_lift_bind fun _ => atomic_lift_bind fun _ =>
      atomic_lift_bind fun _ => atomic_transaction _
  | appendFill fill occurredAt fillId =>
    refine atomic_bind_pure ?_
    exact atomic_lift_bind fun _ => atomic_lift_bind fun _ => atomic_lift_bind fun _ =>
      atomic_lift_bind fun _ => atomic_lift_bind fun _ => atomic_transaction _
  | transitionOrderStatus orderId key status occurredAt reason =>
    refine atomic_bind_pure ?_
    exact atomic_lift_bind fun _ => atomic_lift_bind fun _ => atomic_lift_bind fun _ =>
      atomic_transaction _

/-- Tables that `_replay_and_verify` accepts. -/
def VerifiedTables (t : Tables δ) : Prop := ∃ snapshot, verifyTables hash t = .ok snapshot

/-- A mutation leaves verified tables: it verifies them before it commits. -/
theorem verified_mutationTransaction {α : Type} (body : StoreM δ α) :
    Respects (fun t t' => VerifiedTables hash t → VerifiedTables hash t')
      (mutationTransaction hash body) := by
  intro t ht
  rcases hresult : execute (mutationTransaction hash body) t with ⟨failure | result, t'⟩
  · rw [execute_transaction_error hresult]
    exact ht
  · have hbody := execute_transaction_eq_ok.mp hresult
    rw [execute_bind_eq_ok] at hbody
    obtain ⟨a, u, -, hverify⟩ := hbody
    rw [execute_bind_eq_ok] at hverify
    obtain ⟨snapshot, v, hreplay, hreturn⟩ := hverify
    rw [execute_pure] at hreturn
    obtain ⟨-, rfl⟩ := Prod.mk.inj hreturn
    rw [replayAndVerify, execute_bind_eq_ok] at hreplay
    obtain ⟨tables, w, hget, hlift⟩ := hreplay
    rw [execute_get] at hget
    obtain ⟨htables, rfl⟩ := Prod.mk.inj hget
    cases htables
    obtain ⟨hverified, rfl⟩ := Prod.mk.inj hlift
    exact ⟨snapshot, hverified⟩

/-- Every mutation keeps the tables verified. -/
theorem Mutation.verified (m : Mutation) :
    Respects (fun t t' => VerifiedTables hash t → VerifiedTables hash t') (m.run hash) := by
  have : Std.Refl fun t t' => VerifiedTables hash t → VerifiedTables hash t' := ⟨fun _ h => h⟩
  have : IsTrans (Tables δ) fun t t' => VerifiedTables hash t → VerifiedTables hash t' :=
    ⟨fun _ _ _ h h' ht => h' (h ht)⟩
  cases m with
  | appendEvent eventId occurredAt payload =>
    refine respects_bind ?_ fun _ => respects_pure _
    exact respects_bind (respects_lift _) fun _ => respects_bind (respects_lift _) fun _ =>
      respects_bind (respects_lift _) fun _ => verified_mutationTransaction hash _
  | recordOrderOnce key side quantity orderId occurredAt status =>
    refine respects_bind ?_ fun _ => respects_pure _
    exact respects_bind (respects_lift _) fun _ => respects_bind (respects_lift _) fun _ =>
      respects_bind (respects_lift _) fun _ => respects_bind (respects_lift _) fun _ =>
      verified_mutationTransaction hash _
  | appendFill fill occurredAt fillId =>
    refine respects_bind ?_ fun _ => respects_pure _
    exact respects_bind (respects_lift _) fun _ => respects_bind (respects_lift _) fun _ =>
      respects_bind (respects_lift _) fun _ => respects_bind (respects_lift _) fun _ =>
      respects_bind (respects_lift _) fun _ => verified_mutationTransaction hash _
  | transitionOrderStatus orderId key status occurredAt reason =>
    refine respects_bind ?_ fun _ => respects_pure _
    exact respects_bind (respects_lift _) fun _ => respects_bind (respects_lift _) fun _ =>
      respects_bind (respects_lift _) fun _ => verified_mutationTransaction hash _

/-- The tables that a connection sees, and the states its open transactions fall back to,
innermost first. -/
structure Session (δ : Type) where
  tables : Tables δ
  saved : List (Tables δ)

/-- The tables that are committed. -/
def Session.durable (s : Session δ) : Tables δ := s.saved.getLast?.getD s.tables

/-- What can happen next in a session. -/
inductive Session.Step : Session δ → Session δ → Prop where
  | mutate (s : Session δ) (m : Mutation) :
      Step s { s with tables := (execute (m.run hash) s.tables).2 }
  | begin_ (s : Session δ) : Step s { s with saved := s.tables :: s.saved }
  | commit (t entry : Tables δ) (outer : List (Tables δ)) (hverified : VerifiedTables hash t) :
      Step ⟨t, entry :: outer⟩ ⟨t, outer⟩
  | rollback (t entry : Tables δ) (outer : List (Tables δ)) :
      Step ⟨t, entry :: outer⟩ ⟨entry, outer⟩
  | crash (s : Session δ) : Step s ⟨s.durable, []⟩

/-- The sessions that a new database leads to. -/
inductive Session.Run (start : Session δ) : Session δ → Prop where
  | refl : Run start start
  | step {s s' : Session δ} (hrun : Run start s) (hstep : Session.Step hash s s') : Run start s'

/-- Every state of the tables is verified and extends the ones to fall back to. -/
structure Session.Sound (s : Session δ) : Prop where
  verified : ∀ t ∈ s.tables :: s.saved, VerifiedTables hash t
  chain : (s.tables :: s.saved).Pairwise fun later earlier => Extends earlier later

omit [DecidableEq δ] in
/-- What is committed is one of the states of the session. -/
theorem Session.durable_mem (s : Session δ) : s.durable ∈ s.tables :: s.saved := by
  unfold durable
  cases hlast : s.saved.getLast? with
  | none => simp
  | some t => exact List.mem_cons_of_mem _ (List.mem_of_getLast? hlast)

variable {hash}

/-- A step keeps a session sound, and what is committed stays. -/
theorem Session.Sound.step {s s' : Session δ} (h : s.Sound hash) (hstep : Session.Step hash s s') :
    s'.Sound hash ∧ Extends s.durable s'.durable := by
  cases hstep with
  | mutate _ m =>
    have hextends := Mutation.extends hash m s.tables
    have hverified := Mutation.verified hash m s.tables (h.verified _ (by simp))
    have hchain := List.pairwise_cons.mp h.chain
    refine ⟨⟨?_, ?_⟩, ?_⟩
    · intro t ht
      rcases List.mem_cons.mp ht with rfl | hsaved
      · exact hverified
      · exact h.verified t (List.mem_cons_of_mem _ hsaved)
    · exact List.pairwise_cons.mpr ⟨fun t ht => (hchain.1 t ht).trans hextends, hchain.2⟩
    · unfold durable
      cases hlast : s.saved.getLast? with
      | none => exact hextends
      | some t => exact List.prefix_refl _
  | begin_ =>
    refine ⟨⟨?_, ?_⟩, ?_⟩
    · intro t ht
      rcases List.mem_cons.mp ht with rfl | hsaved
      · exact h.verified _ (by simp)
      · exact h.verified t hsaved
    · refine List.pairwise_cons.mpr ⟨fun t ht => ?_, h.chain⟩
      rcases List.mem_cons.mp ht with rfl | hsaved
      · exact List.prefix_refl _
      · exact (List.pairwise_cons.mp h.chain).1 t hsaved
    · have hsame : Session.durable { s with saved := s.tables :: s.saved } = s.durable := by
        unfold durable
        cases hsaved : s.saved with
        | nil => rfl
        | cons t outer => rw [List.getLast?_cons_cons]
      rw [hsame]
      exact List.prefix_refl _
  | commit t entry outer hverified =>
    have hchain := List.pairwise_cons.mp h.chain
    refine ⟨⟨?_, ?_⟩, ?_⟩
    · intro u hu
      rcases List.mem_cons.mp hu with rfl | hsaved
      · exact h.verified _ (by simp)
      · exact h.verified u (by simp [hsaved])
    · exact List.pairwise_cons.mpr ⟨fun u hu => hchain.1 u (by simp [hu]),
        (List.pairwise_cons.mp hchain.2).2⟩
    · cases houter : outer with
      | nil => exact hchain.1 entry (by simp)
      | cons u outer' =>
        have hsame : Session.durable ⟨t, entry :: u :: outer'⟩ =
            Session.durable ⟨t, u :: outer'⟩ := by
          unfold durable
          rw [List.getLast?_cons_cons]
        rw [hsame]
        exact List.prefix_refl _
  | rollback t entry outer =>
    refine ⟨⟨fun u hu => h.verified u (List.mem_cons_of_mem _ hu), h.chain.of_cons⟩, ?_⟩
    have hsame : Session.durable ⟨t, entry :: outer⟩ = Session.durable ⟨entry, outer⟩ := by
      unfold durable
      rw [List.getLast?_cons]
      rfl
    rw [hsame]
    exact List.prefix_refl _
  | crash =>
    refine ⟨⟨?_, List.pairwise_singleton _ _⟩, List.prefix_refl _⟩
    intro t ht
    obtain rfl := List.mem_singleton.mp ht
    exact h.verified _ s.durable_mem

/-- Every session keeps sound, and only adds to what is committed. -/
theorem Session.Run.sound {s s' : Session δ} (h : s.Sound hash) (hrun : Session.Run hash s s') :
    s'.Sound hash ∧ Extends s.durable s'.durable := by
  induction hrun with
  | refl => exact ⟨h, List.prefix_refl _⟩
  | step _ hstep ih =>
    obtain ⟨hsound, hextends⟩ := ih
    obtain ⟨hsound', hextends'⟩ := hsound.step hstep
    exact ⟨hsound', hextends.trans hextends'⟩

/-! ## The projection and the lifecycle -/

/-- The orders table of verified tables holds the replayed orders, with their lifecycle. -/
theorem VerifiedTables.projection {t : Tables δ} (h : VerifiedTables hash t) :
    ∃ r, rebuildRows hash t = .ok r ∧ t.orders.Perm r.projection.orders ∧
      ∀ order ∈ t.orders, order.Lifecycle := by
  obtain ⟨snapshot, hverified⟩ := h
  simp only [verifyTables, Except.bind_eq_ok] at hverified
  obtain ⟨r, hrebuild, -⟩ := hverified
  refine ⟨r, hrebuild, ?_⟩
  simp only [rebuildRows, Except.bind_eq_ok, Except.pure_eq_ok] at hrebuild
  obtain ⟨r', hrows, _, -, _, horders, rfl⟩ := hrebuild
  have hreplay := (replayed_of_rows hrows).replay
  have hperm := verifyOrderProjection_perm (orders_nodup hreplay) horders
  exact ⟨hperm, fun order horder => lifecycle_of_rebuild hreplay order (hperm.mem_iff.mp horder)⟩

/-- Different events have different rows. -/
theorem row_injective : Function.Injective StoredEvent.row := by
  rintro ⟨sequence, id, at_, payload⟩ ⟨sequence', id', at', payload'⟩ h
  simp only [StoredEvent.row, EventRow.mk.injEq, Encoded.canonical.injEq] at h
  obtain ⟨hsequence, rfl, rfl, rfl⟩ := h
  rw [StoredEvent.mk.injEq]
  exact ⟨by omega, rfl, rfl, rfl⟩

/-- An order in a terminal status is settled in all tables that extend its own. -/
theorem VerifiedTables.settled {t t' : Tables δ} (h : VerifiedTables hash t)
    (h' : VerifiedTables hash t') (hextends : Extends t t') {order : StoredOrder}
    (horder : order ∈ t.orders) (hterminal : order.status.isActive = false) :
    ∃ after ∈ t'.orders, order.Settled after := by
  obtain ⟨snapshot, hverified⟩ := h
  obtain ⟨snapshot', hverified'⟩ := h'
  obtain ⟨r, hr, -, hperm, -⟩ := verifyTables_eq_ok hverified
  obtain ⟨r', hr', -, hperm', -⟩ := verifyTables_eq_ok hverified'
  obtain ⟨more, hmore⟩ : r.evidence <+: r'.evidence := by
    have hbefore : r.evidence.map StoredEvent.row <+: r'.evidence.map StoredEvent.row := by
      rw [← hr.rows_eq, ← hr'.rows_eq]
      exact hextends
    have htake := List.prefix_iff_eq_take.mp hbefore
    rw [← List.map_take] at htake
    rw [List.map_injective_iff.mpr row_injective htake]
    exact List.take_prefix _ _
  have hreplay' := hr'.replay
  rw [← hmore] at hreplay'
  obtain ⟨after, hafter, hsettled⟩ :=
    settled_of_append hr.replay hreplay' (hperm.mem_iff.mp horder) hterminal
  exact ⟨after, hperm'.mem_iff.mpr hafter, hsettled⟩

/-- A new database is verified. -/
theorem verified_createSchema (hash : EventHash δ) : VerifiedTables hash (createSchema hash) := by
  refine ⟨snapshotFromComponents {} [], ?_⟩
  have hrebuild : rebuildRows hash (createSchema hash) = .ok (Rebuild.initial hash) := rfl
  simp only [verifyTables, hrebuild, Except.bind_eq_ok, reject_eq_ok, Except.forM_eq_ok]
  refine ⟨_, rfl, ⟨⟩, ?_, ⟨⟩, ?_, rfl⟩
  · simp [createSchema, Rebuild.initial]
  · simp [createSchema, Rebuild.initial, verifySnapshotRow, Encoded.read]

/-- A new session is sound. -/
theorem sound_createSchema (hash : EventHash δ) :
    Session.Sound hash ⟨createSchema hash, []⟩ := by
  refine ⟨fun t ht => ?_, List.pairwise_singleton _ _⟩
  obtain rfl := List.mem_singleton.mp ht
  exact verified_createSchema hash

end

/-- In every state of every session the orders table holds what the events replay to, and
every order keeps its lifecycle. A mutation that raises changes nothing, and an order in a
terminal status stays as it is but for the confirmation of a completed one, in every
mutation and through everything that is committed. -/
theorem projection_equals_replay {δ : Type} [DecidableEq δ] (hash : EventHash δ) {s : Session δ}
    (hrun : Session.Run hash ⟨createSchema hash, []⟩ s) :
    (∀ t ∈ s.tables :: s.saved, ∃ r, rebuildRows hash t = .ok r ∧
      t.orders.Perm r.projection.orders ∧ ∀ order ∈ t.orders, order.Lifecycle) ∧
    (∀ m : Mutation, (∀ e t', execute (m.run hash) s.tables = (.error e, t') → t' = s.tables) ∧
      ∀ order ∈ s.tables.orders, order.status.isActive = false →
        ∃ after ∈ (execute (m.run hash) s.tables).2.orders, order.Settled after) ∧
    (∀ s', Session.Run hash s s' → ∀ order ∈ s.durable.orders, order.status.isActive = false →
      ∃ after ∈ s'.durable.orders, order.Settled after) := by
  obtain ⟨hsound, -⟩ := hrun.sound (sound_createSchema hash)
  refine ⟨fun t ht => (hsound.verified t ht).projection, fun m => ⟨?_, ?_⟩, ?_⟩
  · intro e t' herror
    exact Mutation.atomic hash m s.tables e t' herror
  · intro order horder hterminal
    have hverified := hsound.verified s.tables (by simp)
    have hverified' := Mutation.verified hash m s.tables hverified
    exact hverified.settled hverified' (Mutation.extends hash m s.tables) horder hterminal
  · intro s' hrun' order horder hterminal
    obtain ⟨hsound', hextends⟩ := hrun'.sound hsound
    exact (hsound.verified _ s.durable_mem).settled (hsound'.verified _ s'.durable_mem) hextends
      horder hterminal

/-- A purchase of one bitcoin, and its fill. -/
def purchase : List Mutation :=
  [.recordOrderOnce (.external "entry") .buy 1 (.external "order") 0 .created,
    .appendFill ⟨.external "order", .buy, 1, 10, 0⟩ 0 (.external "fill")]

/-- The session over some mutations, without transactions around them. -/
def Session.after {δ : Type} [DecidableEq δ] (hash : EventHash δ) (s : Session δ)
    (mutations : List Mutation) : Session δ :=
  mutations.foldl (fun s m => { s with tables := (execute (m.run hash) s.tables).2 }) s

/-- Mutations are a run of the session. -/
theorem Session.run_after {δ : Type} [DecidableEq δ] (hash : EventHash δ) (s : Session δ)
    (mutations : List Mutation) : Session.Run hash s (s.after hash mutations) := by
  induction mutations using List.reverseRecOn with
  | nil => exact .refl
  | append_singleton mutations m ih =>
    rw [Session.after, List.foldl_append]
    exact .step ih (.mutate _ m)

/-- The session that has purchased. -/
def purchased : Session (List StoredEvent) :=
  Session.after logHash ⟨createSchema logHash, []⟩ purchase

/-- The purchased order is completed, and its confirmation succeeds. -/
def purchasedOrder : StoredOrder :=
  ⟨.external "order", .external "entry", .buy, 1, 1, .completed, 0⟩

/-- The completed order of a purchase is settled whatever the session does next. -/
theorem projection_equals_replay_purchase : purchasedOrder.Lifecycle ∧
    ∃ after ∈ (purchased.after logHash
      [.transitionOrderStatus (.external "order") (.external "confirm") .completed 1
        none]).durable.orders, purchasedOrder.Settled after := by
  have hrun : Session.Run logHash ⟨createSchema logHash, []⟩ purchased :=
    Session.run_after logHash _ purchase
  obtain ⟨hall, -, hsettled⟩ := projection_equals_replay logHash hrun
  have horder : purchasedOrder ∈ purchased.tables.orders := by decide +kernel
  obtain ⟨r, -, -, hlifecycle⟩ := hall purchased.tables (by simp)
  exact ⟨hlifecycle _ horder, hsettled _ (Session.run_after logHash purchased _) _ horder
    (by decide)⟩

/-- An order in a terminal status does change: the confirmation of a completed order moves
the time of its last update. -/
theorem not_terminal_unchanged : ¬∀ s s' : Session (List StoredEvent),
    Session.Run logHash ⟨createSchema logHash, []⟩ s → Session.Run logHash s s' →
      ∀ order ∈ s.durable.orders, order.status.isActive = false → order ∈ s'.durable.orders := by
  intro hclaim
  have horder : purchasedOrder ∈ purchased.durable.orders := by decide +kernel
  have hsame := hclaim purchased _ (Session.run_after logHash _ purchase)
    (Session.run_after logHash purchased [.transitionOrderStatus (.external "order")
      (.external "confirm") .completed 1 none]) purchasedOrder horder (by decide)
  have hchanged : purchasedOrder ∉ (purchased.after logHash
      [.transitionOrderStatus (.external "order") (.external "confirm") .completed 1
        none]).durable.orders := by decide +kernel
  exact hchanged hsame

end AutoBit.Store.Sql
