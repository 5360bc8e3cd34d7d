import AutoBit.Library.HashChain
import AutoBit.Store.Log

/-!
# The tables of the database and their verification

The events, orders and snapshots as they lie in the file. Reading them replays the events
and chains their digests; every prefix of the log has a snapshot that holds the digest of
the prefix, and the autoincrement counter remembers the last sequence number. A digest is
the SHA-256 of the canonical JSON of an envelope.
-/

namespace AutoBit.Store

open Library

/-- A text column: the canonical text of a value, or another text. -/
inductive Encoded (α : Type) where
  | canonical (value : α)
  | other (text : String)
  deriving DecidableEq, Repr

/-- The value of a column whose text must be canonical. -/
def Encoded.read {α : Type} (column : Encoded α) (e : Failure) : Except Failure α :=
  match column with
  | .canonical value => .ok value
  | .other _ => .error e

/-- A column is read exactly when its text is canonical. -/
@[simp] theorem Encoded.read_eq_ok {α : Type} {column : Encoded α} {e : Failure} {value : α} :
    column.read e = .ok value ↔ column = .canonical value := by
  cases column <;> simp [Encoded.read]

/-- A row of `events`. -/
structure EventRow where
  sequence : ℤ
  eventId : EventId
  occurredAtUtc : Encoded ℤ
  payloadJson : Encoded Payload
  deriving DecidableEq, Repr

/-- The envelope of an event, whose canonical JSON is hashed. -/
structure Envelope (δ : Type) where
  eventId : EventId
  occurredAtUtc : ℤ
  payload : Payload
  previousDigest : δ
  sequence : ℕ
  deriving DecidableEq, Repr

/-- `sha256(_canonical_json_value(envelope))` and `_EMPTY_EVENT_DIGEST`. -/
structure EventHash (δ : Type) where
  empty : δ
  digest : Envelope δ → δ

/-- The digest of an event after the digest of the events before it. -/
def EventHash.step {δ : Type} (hash : EventHash δ) (previous : δ) (e : StoredEvent) : δ :=
  hash.digest ⟨e.eventId, e.occurredAtUtc, e.payload, previous, e.sequence⟩

/-- `_snapshot_mapping`, without the market and the initial equity, which are constant. -/
structure SnapshotMapping (δ : Type) where
  averageEntryPrice : Option ℚ
  breakerState : Option BreakerPayload
  btcCostBasis : ℚ
  btcQuantity : ℚ
  cash : ℚ
  equity : ℚ
  eventDigest : δ
  healthState : Option Health.Mapping
  lastPrice : Option ℚ
  lastSequence : ℕ
  pendingOrders : List StoredOrder
  positionState : PositionState
  deriving DecidableEq, Repr

/-- A row of `snapshots`. -/
structure SnapshotRow (δ : Type) where
  sequence : ℤ
  stateJson : Encoded (SnapshotMapping δ)
  createdAtUtc : Encoded ℤ
  deriving DecidableEq, Repr

/-- The tables, with the events and snapshots in the order of their sequence numbers, and
the counter that `sqlite_sequence` keeps for the events. -/
structure Tables (δ : Type) where
  events : List EventRow
  orders : List StoredOrder
  snapshots : List (SnapshotRow δ)
  eventsTail : Option ℤ
  deriving DecidableEq, Repr

section

variable {δ : Type} (hash : EventHash δ)

/-- The mapping of the state after some events. -/
def snapshotMapping (s : Projection) (digest : δ) : SnapshotMapping δ :=
  let state := snapshotFromComponents s []
  { averageEntryPrice := state.averageEntryPrice
    breakerState := state.breakerState
    btcCostBasis := state.btcCostBasis
    btcQuantity := state.btcQuantity
    cash := state.cash
    equity := state.equity
    eventDigest := digest
    healthState := state.healthState
    lastPrice := state.lastPrice
    lastSequence := state.lastSequence
    pendingOrders := state.pendingOrders
    positionState := state.positionState }

/-- The accumulators of `_rebuild_from_events` over the rows, whose projection holds the
ledger. -/
structure Rebuild (δ : Type) where
  projection : Projection
  evidence : List StoredEvent
  digest : δ
  snapshotMappings : List (SnapshotMapping δ)
  snapshotTimestamps : List ℤ

/-- The accumulators before the first row; the epoch is the instant zero. -/
def Rebuild.initial : Rebuild δ where
  projection := {}
  evidence := []
  digest := hash.empty
  snapshotMappings := [snapshotMapping {} hash.empty]
  snapshotTimestamps := [0]

/-- One round of the loop of `_rebuild_from_events` over the rows. -/
def replayRow (r : Rebuild δ) (row : EventRow) : Except Failure (Rebuild δ) := do
  reject (row.sequence ≠ r.projection.lastSequence + 1)
    (.corruption "event sequence history is inconsistent")
  reject (row.eventId.isNonempty = false) (.corruption "invalid event id")
  let occurredAt ← row.occurredAtUtc.read (.corruption "stored timestamp is not canonical")
  let payload ← row.payloadJson.read (.corruption "event JSON is not canonical")
  reject (isNonemptyText payload.eventType = false) (.corruption "invalid event type")
  let event : StoredEvent := ⟨row.sequence.toNat, row.eventId, occurredAt, payload⟩
  let projection ← replayEvent r.projection event
  let digest := hash.step r.digest event
  return {
    projection
    evidence := r.evidence ++ [event]
    digest
    snapshotMappings := r.snapshotMappings ++ [snapshotMapping projection digest]
    snapshotTimestamps := r.snapshotTimestamps ++ [occurredAt] }

/-- `_verify_order_projection`. -/
def verifyOrderProjection (projected replayed : List StoredOrder) : Except Failure Unit := do
  reject (¬(projected.map (·.orderId)).Nodup ∨ ¬(projected.map (·.idempotencyKey)).Nodup)
    (.corruption "duplicate identity in order projection")
  reject (∃ order ∈ projected, order.requestedQuantity < order.filledQuantity)
    (.corruption "filled quantity exceeds requested projection")
  reject (∃ order ∈ projected, order.orderId ∉ replayed.map (·.orderId))
    (.corruption "order projection does not match event replay")
  reject (∃ expected ∈ replayed, findOrder projected expected.orderId ≠ some expected)
    (.corruption "order projection does not match event replay")

/-- `_rebuild_from_events`. -/
def rebuildRows (t : Tables δ) : Except Failure (Rebuild δ) := do
  let r ← t.events.foldlM (replayRow hash) (Rebuild.initial hash)
  reject (t.eventsTail.getD 0 ≠ r.projection.lastSequence)
    (.corruption "event tail was deleted from immutable history")
  verifyOrderProjection t.orders r.projection.orders
  return r

variable [DecidableEq δ]

/-- The comparison of one snapshot row with the replay. -/
def verifySnapshotRow (row : SnapshotRow δ) (expected : SnapshotMapping δ × ℤ) :
    Except Failure Unit := do
  let persisted ← row.stateJson.read (.corruption "snapshot JSON is not canonical")
  reject (persisted ≠ expected.1) (.corruption "snapshot does not match event replay")
  let createdAt ← row.createdAtUtc.read (.corruption "stored timestamp is not canonical")
  reject (createdAt ≠ expected.2) (.corruption "snapshot timestamp does not match event replay")

/-- `_replay_and_verify` on the tables. -/
def verifyTables (t : Tables δ) : Except Failure PaperSnapshot := do
  let r ← rebuildRows hash t
  reject (t.snapshots.map (·.sequence) ≠ (List.range r.snapshotMappings.length).map (↑))
    (.corruption "snapshot sequence history is inconsistent")
  forM (t.snapshots.zip (r.snapshotMappings.zip r.snapshotTimestamps)) fun pair =>
    verifySnapshotRow pair.1 pair.2
  return snapshotFromComponents r.projection r.evidence

end

/-! ## What the tables of a verified database determine -/

section

variable {δ : Type} {hash : EventHash δ}

/-- The row of an event. -/
def StoredEvent.row (e : StoredEvent) : EventRow :=
  ⟨e.sequence, e.eventId, .canonical e.occurredAtUtc, .canonical e.payload⟩

/-- What the loop over the rows has accumulated: the rows are those of the evidence, which
replays, and each prefix has its digest. -/
structure Replayed (hash : EventHash δ) (rows : List EventRow) (r : Rebuild δ) : Prop where
  rows_eq : rows = r.evidence.map StoredEvent.row
  replay : rebuildFromEvents r.evidence = .ok r.projection
  digest : r.digest = chainDigest hash.step hash.empty r.evidence
  mappings : r.snapshotMappings.length = r.evidence.length + 1
  timestamps : r.snapshotTimestamps.length = r.evidence.length + 1
  last : r.snapshotMappings.getLast? = some (snapshotMapping r.projection r.digest)

/-- One more row adds one event. -/
theorem replayRow_eq_ok {r r' : Rebuild δ} {row : EventRow} :
    replayRow hash r row = .ok r' ↔ ∃ e : StoredEvent,
      (row = e.row ∧ e.eventId.isNonempty = true ∧ isNonemptyText e.payload.eventType = true ∧
        replayEvent r.projection e = .ok r'.projection) ∧
      r'.evidence = r.evidence ++ [e] ∧ r'.digest = hash.step r.digest e ∧
      r'.snapshotMappings = r.snapshotMappings ++ [snapshotMapping r'.projection r'.digest] ∧
      r'.snapshotTimestamps = r.snapshotTimestamps ++ [e.occurredAtUtc] := by
  obtain ⟨sequence, eventId, occurredAtUtc, payloadJson⟩ := row
  simp only [replayRow, Except.bind_eq_ok, reject_eq_ok, not_not, Encoded.read_eq_ok,
    Except.pure_eq_ok, StoredEvent.row, EventRow.mk.injEq, Bool.not_eq_false]
  constructor
  · rintro ⟨_, hsequence, _, hid, occurredAt, rfl, payload, rfl, _, htype, projection, hreplay, rfl⟩
    have hnat : sequence = (sequence.toNat : ℤ) := by omega
    exact ⟨_, ⟨⟨hnat, rfl, rfl, rfl⟩, hid, htype, hreplay⟩, rfl, rfl, rfl, rfl⟩
  · rintro ⟨e, ⟨⟨rfl, rfl, rfl, rfl⟩, hid, htype, hreplay⟩, hevidence, hdigest, hmappings,
      htimestamps⟩
    have hsequence := (replayEvent_eq_ok.mp hreplay).1
    refine ⟨(), by exact_mod_cast hsequence, (), hid, _, rfl, _, rfl, (), htype, r'.projection,
      by simpa using hreplay, ?_⟩
    obtain ⟨projection', evidence', digest', mappings', timestamps'⟩ := r'
    simp only at hevidence hdigest hmappings htimestamps
    subst hevidence hdigest hmappings htimestamps
    simp

/-- The loop over the rows accumulates what it should. -/
theorem replayed_of_rows {rows : List EventRow} {r : Rebuild δ}
    (h : rows.foldlM (replayRow hash) (Rebuild.initial hash) = .ok r) : Replayed hash rows r := by
  induction rows using List.reverseRecOn generalizing r with
  | nil =>
    cases h
    exact ⟨rfl, rfl, rfl, rfl, rfl, rfl⟩
  | append_singleton rows row ih =>
    obtain ⟨t, ht, hrow⟩ := foldlM_snoc_eq_ok.mp h
    have hrows := ih ht
    obtain ⟨e, ⟨rfl, -, -, hreplay⟩, hevidence, hdigest, hmappings, htimestamps⟩ :=
      replayRow_eq_ok.mp hrow
    refine ⟨?_, ?_, ?_, ?_, ?_, ?_⟩
    · rw [hrows.rows_eq, hevidence, List.map_append, List.map_singleton]
    · rw [hevidence, rebuild_snoc]
      exact ⟨t.projection, hrows.replay, hreplay⟩
    · rw [hdigest, hevidence, chainDigest_snoc, hrows.digest]
    · rw [hmappings, hevidence, List.length_append, List.length_append, hrows.mappings]
      rfl
    · rw [htimestamps, hevidence, List.length_append, List.length_append, hrows.timestamps]
      rfl
    · rw [hmappings, List.getLast?_concat]

/-- A verified projection holds the replayed orders and no others. -/
theorem verifyOrderProjection_perm {projected replayed : List StoredOrder}
    (hreplayed : (replayed.map (·.orderId)).Nodup) {u : Unit}
    (h : verifyOrderProjection projected replayed = .ok u) : projected.Perm replayed := by
  simp only [verifyOrderProjection, Except.bind_eq_ok, reject_eq_ok, not_or, not_not, not_exists,
    not_and] at h
  obtain ⟨_, ⟨hids, -⟩, _, -, _, hknown, hall⟩ := h
  rw [List.perm_ext_iff_of_nodup hids.of_map hreplayed.of_map]
  intro order
  constructor
  · intro horder
    obtain ⟨expected, hexpected, hid⟩ := List.mem_map.mp (hknown order horder)
    have hfound := findOrder_some (hall expected hexpected)
    have hsame : expected = order := List.inj_on_of_nodup_map hids hfound.1 horder hid
    exact hsame ▸ hexpected
  · intro horder
    exact (findOrder_some (hall order horder)).1

/-- A verified row of `snapshots` holds the mapping and the time it should. -/
theorem verifySnapshotRow_eq_ok [DecidableEq δ] {row : SnapshotRow δ}
    {expected : SnapshotMapping δ × ℤ} {u : Unit} :
    verifySnapshotRow row expected = .ok u ↔
      row.stateJson = .canonical expected.1 ∧ row.createdAtUtc = .canonical expected.2 := by
  simp only [verifySnapshotRow, Except.bind_eq_ok, reject_eq_ok, not_not, Encoded.read_eq_ok]
  constructor
  · rintro ⟨persisted, hstate, _, rfl, createdAt, hcreated, rfl⟩
    exact ⟨hstate, hcreated⟩
  · rintro ⟨hstate, hcreated⟩
    exact ⟨_, hstate, (), rfl, _, hcreated, rfl⟩

/-- A verified database has the rows of its replay. -/
theorem verifyTables_eq_ok [DecidableEq δ] {t : Tables δ} {snapshot : PaperSnapshot}
    (h : verifyTables hash t = .ok snapshot) : ∃ r, Replayed hash t.events r ∧
      t.eventsTail.getD 0 = r.projection.lastSequence ∧ t.orders.Perm r.projection.orders ∧
      snapshot = snapshotFromComponents r.projection r.evidence ∧
      t.snapshots.length = r.evidence.length + 1 ∧
      t.snapshots.getLast?.map (·.stateJson) =
        some (.canonical (snapshotMapping r.projection r.digest)) := by
  simp only [verifyTables, rebuildRows, Except.bind_eq_ok, reject_eq_ok, not_not,
    Except.pure_eq_ok, Except.forM_eq_ok] at h
  obtain ⟨r, ⟨r', hrows, _, htail, _, horders, rfl⟩, _, hsequences, _, hsnapshots, rfl⟩ := h
  have hreplayed := replayed_of_rows hrows
  have hlength : t.snapshots.length = r'.snapshotMappings.length := by
    simpa using congrArg List.length hsequences
  refine ⟨r', hreplayed, htail,
    verifyOrderProjection_perm (orders_nodup hreplayed.replay) horders, rfl,
    hlength.trans hreplayed.mappings, ?_⟩
  have hmappings := hreplayed.mappings
  have htimestamps := hreplayed.timestamps
  have hlast := hreplayed.last
  obtain ⟨row, hrow⟩ : ∃ row, t.snapshots[r'.evidence.length]? = some row :=
    ⟨_, List.getElem?_eq_getElem (by omega)⟩
  obtain ⟨timestamp, htimestamp⟩ :
      ∃ timestamp, r'.snapshotTimestamps[r'.evidence.length]? = some timestamp :=
    ⟨_, List.getElem?_eq_getElem (by omega)⟩
  have hmapping : r'.snapshotMappings[r'.evidence.length]? =
      some (snapshotMapping r'.projection r'.digest) := by
    rw [List.getLast?_eq_getElem?, hmappings] at hlast
    exact hlast
  have hzip : (row, snapshotMapping r'.projection r'.digest, timestamp) ∈
      t.snapshots.zip (r'.snapshotMappings.zip r'.snapshotTimestamps) := by
    refine List.mem_iff_getElem?.mpr ⟨r'.evidence.length, ?_⟩
    exact List.getElem?_zip_eq_some.mpr
      ⟨hrow, List.getElem?_zip_eq_some.mpr ⟨hmapping, htimestamp⟩⟩
  have hverified := verifySnapshotRow_eq_ok.mp (hsnapshots _ hzip)
  rw [List.getLast?_eq_getElem?, hlength, hmappings]
  simp only [Nat.add_sub_cancel, hrow, Option.map_some]
  exact congrArg some hverified.1

end

/-- A digest that spells its chain out. -/
def logHash : EventHash (List StoredEvent) where
  empty := []
  digest e := e.previousDigest ++ [⟨e.sequence, e.eventId, e.occurredAtUtc, e.payload⟩]

end AutoBit.Store
