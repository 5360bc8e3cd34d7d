import AutoBit.Store.Lifecycle
import AutoBit.Store.Tables

/-!
# The columns of the database file

SQLite converts what is stored in a column when it can: a column of the type TEXT holds texts
and blobs, and a column of the type REAL numbers and whatever does not read as a number. The
verification reads the columns of each row itself. It asks for canonical texts wherever it
reads events and snapshots, but takes `float` of the quantities of an order. The typed tables
are the files whose columns are all canonical.
-/

namespace AutoBit.Store

open Library

/-! ## The columns -/

/-- A column of the type TEXT. -/
inductive TextColumn (τ : Type) where
  | text (value : τ)
  | blob (bytes : List UInt8)
  deriving DecidableEq, Repr

/-- A column of the type REAL. A float that is not finite is `none`. -/
inductive NumberColumn where
  | real (value : Option ℚ)
  | text (value : String)
  | blob (bytes : List UInt8)
  deriving DecidableEq, Repr

/-- A text that spells a value: as its canonical writer does, in another way that its reader
understands, or in none. -/
inductive Spelling (α : Type) where
  | canonical (value : α)
  | readable (text : String)
  | unreadable (text : String)
  deriving DecidableEq, Repr

/-- A row of `events`. -/
structure EventColumns (ρ : Type) where
  sequence : ℤ
  eventId : TextColumn EventId
  eventType : TextColumn String
  occurredAtUtc : TextColumn (Spelling ℤ)
  payloadJson : TextColumn (Spelling ρ)
  deriving DecidableEq, Repr

/-- A row of `orders`. -/
structure OrderColumns where
  orderId : TextColumn PaperId
  idempotencyKey : TextColumn Key
  side : TextColumn String
  requestedQuantity : NumberColumn
  filledQuantity : NumberColumn
  status : TextColumn String
  updatedAtUtc : TextColumn (Spelling ℤ)
  deriving DecidableEq, Repr

/-- A row of `snapshots`. -/
structure SnapshotColumns (σ : Type) where
  sequence : ℤ
  stateJson : TextColumn (Spelling σ)
  createdAtUtc : TextColumn (Spelling ℤ)
  deriving DecidableEq, Repr

/-- The tables of a database file, whose payloads and snapshots are JSON objects. -/
structure DatabaseFile (ρ σ : Type) where
  events : List (EventColumns ρ)
  orders : List OrderColumns
  snapshots : List (SnapshotColumns σ)
  eventsTail : Option ℤ
  deriving DecidableEq, Repr

/-- An event as its row spells it. -/
structure RawEvent (ρ : Type) where
  sequence : ℕ
  eventId : EventId
  eventType : String
  occurredAtUtc : ℤ
  payload : ρ
  deriving DecidableEq, Repr

/-- What a verification takes from the JSON objects, from `sha256` and from `float`: the digest
of the canonical envelope of an event and the digest before it, the JSON object of a snapshot,
the fields of a payload, and the float of a text or of bytes, which is `none` for a `ValueError`. -/
structure FileReader (ρ σ δ : Type) where
  empty : δ
  digest : δ → RawEvent ρ → δ
  snapshot : SnapshotMapping δ → σ
  payload : String → ρ → Except Failure Payload
  floatText : String → Option (Option ℚ)
  floatBytes : List UInt8 → Option (Option ℚ)

/-! ## Reading the columns -/

/-- `_stored_nonempty_text`. -/
def storedNonemptyText {τ : Type} (isNonempty : τ → Bool) (column : TextColumn τ)
    (message : String) : Except Failure τ :=
  match column with
  | .text value => do
    reject (isNonempty value = false) (.corruption message)
    return value
  | .blob _ => .error (.corruption message)

/-- The text of a side. -/
def Side.text : Side → String
  | .buy => "BUY"
  | .sell => "SELL"

/-- `_stored_side`. -/
def storedSide (column : TextColumn String) : Except Failure Side :=
  if column = .text "BUY" then .ok .buy
  else if column = .text "SELL" then .ok .sell
  else .error (.corruption "invalid side in stored evidence")

/-- The value of an order status. -/
def OrderStatus.text : OrderStatus → String
  | .created => "CREATED"
  | .submitted => "SUBMITTED"
  | .accepted => "ACCEPTED"
  | .partial_ => "PARTIAL"
  | .completed => "COMPLETED"
  | .canceled => "CANCELED"
  | .expired => "EXPIRED"
  | .insufficientCash => "INSUFFICIENT_CASH"
  | .rejected => "REJECTED"

/-- The members of `OrderStatus`. -/
def orderStatuses : List OrderStatus :=
  [.created, .submitted, .accepted, .partial_, .completed, .canceled, .expired, .insufficientCash,
    .rejected]

/-- `_stored_order_status`. -/
def storedOrderStatus (column : TextColumn String) : Except Failure OrderStatus :=
  require (orderStatuses.find? fun status => column = .text status.text)
    (.corruption "invalid order status in stored evidence")

/-- `_parse_stored_timestamp`. -/
def parseStoredTimestamp : TextColumn (Spelling ℤ) → Except Failure ℤ
  | .text (.canonical instant) => .ok instant
  | .text (.readable _) => .error (.corruption "stored timestamp is not canonical")
  | .text (.unreadable _) => .error (.corruption "stored timestamp is not strict UTC")
  | .blob _ => .error (.corruption "stored timestamp is not text")

/-- A JSON object from the text of its column, which must be canonical. -/
def storedObject {ρ : Type} (column : TextColumn (Spelling ρ)) (invalid noncanonical : String) :
    Except Failure ρ :=
  match column with
  | .text (.canonical value) => .ok value
  | .text (.readable _) => .error (.corruption noncanonical)
  | .text (.unreadable _) | .blob _ => .error (.corruption invalid)

section Verification

variable {ρ σ δ : Type} (reader : FileReader ρ σ δ)

/-- `float` of a column. -/
def NumberColumn.float : NumberColumn → Option (Option ℚ)
  | .real value => some value
  | .text value => reader.floatText value
  | .blob bytes => reader.floatBytes bytes

/-- `_finite_number`. -/
def finiteNumber (column : NumberColumn) (message : String) : Except Failure ℚ := do
  let number ← require (column.float reader) (.corruption message)
  require number (.corruption message)

/-- `_stored_positive_number`. -/
def storedPositiveNumber (column : NumberColumn) (message : String) : Except Failure ℚ := do
  let number ← finiteNumber reader column message
  reject (number ≤ 0) (.corruption message)
  return number

/-- `_stored_nonnegative_number`. -/
def storedNonnegativeNumber (column : NumberColumn) (message : String) : Except Failure ℚ := do
  let number ← finiteNumber reader column message
  reject (number < 0) (.corruption message)
  return number

/-! ## The verification -/

/-- The accumulators of `_rebuild_from_events`, with the events as their rows spell them. -/
structure FileReplay (ρ δ : Type) where
  projection : Projection
  raw : List (RawEvent ρ)
  evidence : List StoredEvent
  digest : δ
  snapshotMappings : List (SnapshotMapping δ)
  snapshotTimestamps : List ℤ

/-- The accumulators before the first row. -/
def FileReplay.initial : FileReplay ρ δ where
  projection := {}
  raw := []
  evidence := []
  digest := reader.empty
  snapshotMappings := [snapshotMapping {} reader.empty]
  snapshotTimestamps := [0]

/-- One round of the loop of `_rebuild_from_events` over the rows. -/
def replayColumns (r : FileReplay ρ δ) (row : EventColumns ρ) :
    Except Failure (FileReplay ρ δ) := do
  reject (row.sequence ≠ r.projection.lastSequence + 1)
    (.corruption "event sequence history is inconsistent")
  let eventId ← storedNonemptyText EventId.isNonempty row.eventId "invalid event id"
  let eventType ← storedNonemptyText isNonemptyText row.eventType "invalid event type"
  let occurredAt ← parseStoredTimestamp row.occurredAtUtc
  reject (∃ previous ∈ r.projection.previousTimestamp, occurredAt < previous)
    (.corruption "event timestamp reversal")
  let object ← storedObject row.payloadJson "invalid event JSON" "event JSON is not canonical"
  let payload ← reader.payload eventType object
  let event : StoredEvent := ⟨row.sequence.toNat, eventId, occurredAt, payload⟩
  let projection ← replayEvent r.projection event
  let raw : RawEvent ρ := ⟨row.sequence.toNat, eventId, eventType, occurredAt, object⟩
  let digest := reader.digest r.digest raw
  return {
    projection
    raw := r.raw ++ [raw]
    evidence := r.evidence ++ [event]
    digest
    snapshotMappings := r.snapshotMappings ++ [snapshotMapping projection digest]
    snapshotTimestamps := r.snapshotTimestamps ++ [occurredAt] }

/-- One round of the loop of `_verify_order_projection` over the rows. -/
def projectColumns (projected : List StoredOrder) (row : OrderColumns) :
    Except Failure (List StoredOrder) := do
  let orderId ← storedNonemptyText PaperId.isNonempty row.orderId "invalid projected order id"
  let key ← storedNonemptyText Key.isNonempty row.idempotencyKey
    "invalid projected idempotency key"
  reject (orderId ∈ projected.map (·.orderId) ∨ key ∈ projected.map (·.idempotencyKey))
    (.corruption "duplicate identity in order projection")
  let side ← storedSide row.side
  let requested ← storedPositiveNumber reader row.requestedQuantity
    "invalid requested quantity in order projection"
  let filled ← storedNonnegativeNumber reader row.filledQuantity
    "invalid filled quantity in order projection"
  reject (requested < filled) (.corruption "filled quantity exceeds requested projection")
  let status ← storedOrderStatus row.status
  let updatedAt ← parseStoredTimestamp row.updatedAtUtc
  return projected ++ [⟨orderId, key, side, requested, filled, status, updatedAt⟩]

/-- `_verify_order_projection`. -/
def verifyOrderColumns (rows : List OrderColumns) (replayed : List StoredOrder) :
    Except Failure Unit := do
  let projected ← rows.foldlM (projectColumns reader) []
  reject (∃ order ∈ projected, order.orderId ∉ replayed.map (·.orderId))
    (.corruption "order projection does not match event replay")
  reject (∃ expected ∈ replayed, findOrder projected expected.orderId ≠ some expected)
    (.corruption "order projection does not match event replay")

/-- `_rebuild_from_events`. -/
def rebuildColumns (file : DatabaseFile ρ σ) : Except Failure (FileReplay ρ δ) := do
  let r ← file.events.foldlM (replayColumns reader) (FileReplay.initial reader)
  reject (file.eventsTail.getD 0 ≠ r.projection.lastSequence)
    (.corruption "event tail was deleted from immutable history")
  verifyOrderColumns reader file.orders r.projection.orders
  return r

variable [DecidableEq σ]

/-- The comparison of one snapshot row with the replay. -/
def verifySnapshotColumns (row : SnapshotColumns σ) (expected : SnapshotMapping δ × ℤ) :
    Except Failure Unit := do
  let persisted ← storedObject row.stateJson
    s!"invalid snapshot JSON at sequence {row.sequence}"
    s!"snapshot JSON is not canonical at sequence {row.sequence}"
  reject (persisted ≠ reader.snapshot expected.1)
    (.corruption s!"snapshot does not match event replay at sequence {row.sequence}")
  let createdAt ← parseStoredTimestamp row.createdAtUtc
  reject (createdAt ≠ expected.2)
    (.corruption s!"snapshot timestamp does not match event replay at sequence {row.sequence}")

/-- `_replay_and_verify` on the tables of a file. -/
def verifyFile (file : DatabaseFile ρ σ) : Except Failure PaperSnapshot := do
  let r ← rebuildColumns reader file
  reject (file.snapshots.map (·.sequence) ≠ (List.range r.snapshotMappings.length).map (↑))
    (.corruption "snapshot sequence history is inconsistent")
  forM (file.snapshots.zip (r.snapshotMappings.zip r.snapshotTimestamps)) fun pair =>
    verifySnapshotColumns reader pair.1 pair.2
  return snapshotFromComponents r.projection r.evidence

end Verification



/-! ## What the columns hold -/

section Columns

variable {ρ σ δ : Type} {reader : FileReader ρ σ δ}

/-- A text column is accepted exactly when it holds a text that is not empty. -/
@[simp] theorem storedNonemptyText_eq_ok {τ : Type} {isNonempty : τ → Bool}
    {column : TextColumn τ} {message : String} {value : τ} :
    storedNonemptyText isNonempty column message = .ok value ↔
      column = .text value ∧ isNonempty value = true := by
  cases column with
  | text other =>
    simp only [storedNonemptyText, Except.bind_eq_ok, reject_eq_ok, Except.pure_eq_ok,
      TextColumn.text.injEq, Bool.not_eq_false]
    constructor
    · rintro ⟨_, hnonempty, rfl⟩
      exact ⟨rfl, hnonempty⟩
    · rintro ⟨rfl, hnonempty⟩
      exact ⟨(), hnonempty, rfl⟩
  | blob bytes => simp [storedNonemptyText]

/-- A side is read from its own text. -/
@[simp] theorem storedSide_eq_ok {column : TextColumn String} {side : Side} :
    storedSide column = .ok side ↔ column = .text side.text := by
  unfold storedSide
  split
  · next hbuy => cases side <;> simp [hbuy, Side.text]
  · next hbuy =>
    split
    · next hsell => cases side <;> simp [hsell, Side.text]
    · next hsell => cases side <;> simp [hbuy, hsell, Side.text]

/-- Different statuses have different texts. -/
theorem OrderStatus.text_injective : Function.Injective OrderStatus.text := by
  intro status other h
  cases status <;> cases other <;> first | rfl | exact absurd h (by decide)

/-- A status is read from its own text. -/
@[simp] theorem storedOrderStatus_eq_ok {column : TextColumn String} {status : OrderStatus} :
    storedOrderStatus column = .ok status ↔ column = .text status.text := by
  rw [storedOrderStatus, require_eq_ok]
  constructor
  · intro hfound
    simpa using List.find?_some hfound
  · rintro rfl
    have hmem : status ∈ orderStatuses := by cases status <;> decide
    cases hfound : orderStatuses.find? fun other => TextColumn.text status.text = .text other.text with
    | none => exact absurd (List.find?_eq_none.mp hfound status hmem) (by simp)
    | some other =>
      have hsame : TextColumn.text status.text = .text other.text := by
        simpa using List.find?_some hfound
      rw [OrderStatus.text_injective (TextColumn.text.inj hsame)]

/-- A timestamp column is accepted exactly when it holds the canonical text of an instant. -/
@[simp] theorem parseStoredTimestamp_eq_ok {column : TextColumn (Spelling ℤ)} {instant : ℤ} :
    parseStoredTimestamp column = .ok instant ↔ column = .text (.canonical instant) := by
  rcases column with (_ | _ | _) | _ <;> simp [parseStoredTimestamp]

/-- An object column is accepted exactly when it holds the canonical text of an object. -/
@[simp] theorem storedObject_eq_ok {column : TextColumn (Spelling ρ)}
    {invalid noncanonical : String} {value : ρ} :
    storedObject column invalid noncanonical = .ok value ↔ column = .text (.canonical value) := by
  rcases column with (_ | _ | _) | _ <;> simp [storedObject]

variable (reader) in
/-- A column of quantities with the float of what it holds, when there is one. -/
def NumberColumn.converted (column : NumberColumn) : NumberColumn :=
  (column.float reader).elim column .real

/-- A column has a finite float exactly when its conversion holds the float. -/
theorem converted_eq_real {column : NumberColumn} {number : ℚ} :
    column.converted reader = .real (some number) ↔ column.float reader = some (some number) := by
  unfold NumberColumn.converted
  cases hfloat : column.float reader with
  | none =>
    cases column with
    | real value => simp [NumberColumn.float] at hfloat
    | text value => simp
    | blob bytes => simp
  | some value => simp

/-- A number column is accepted as positive exactly when float makes a positive number of it. -/
@[simp] theorem storedPositiveNumber_eq_ok {column : NumberColumn} {message : String}
    {number : ℚ} : storedPositiveNumber reader column message = .ok number ↔
      column.converted reader = .real (some number) ∧ 0 < number := by
  simp only [storedPositiveNumber, finiteNumber, Except.bind_eq_ok, require_eq_ok, reject_eq_ok,
    Except.pure_eq_ok, not_le, converted_eq_real]
  constructor
  · rintro ⟨_, ⟨_, hfloat, rfl⟩, _, hpositive, rfl⟩
    exact ⟨hfloat, hpositive⟩
  · rintro ⟨hfloat, hpositive⟩
    exact ⟨number, ⟨_, hfloat, rfl⟩, (), hpositive, rfl⟩

/-- A number column is accepted exactly when float makes a number of it that is not negative. -/
@[simp] theorem storedNonnegativeNumber_eq_ok {column : NumberColumn} {message : String}
    {number : ℚ} : storedNonnegativeNumber reader column message = .ok number ↔
      column.converted reader = .real (some number) ∧ 0 ≤ number := by
  simp only [storedNonnegativeNumber, finiteNumber, Except.bind_eq_ok, require_eq_ok,
    reject_eq_ok, Except.pure_eq_ok, not_lt, converted_eq_real]
  constructor
  · rintro ⟨_, ⟨_, hfloat, rfl⟩, _, hnonneg, rfl⟩
    exact ⟨hfloat, hnonneg⟩
  · rintro ⟨hfloat, hnonneg⟩
    exact ⟨number, ⟨_, hfloat, rfl⟩, (), hnonneg, rfl⟩

variable (reader) in
/-- A row of `orders` with the floats of its quantities. -/
def OrderColumns.converted (row : OrderColumns) : OrderColumns :=
  { row with
    requestedQuantity := row.requestedQuantity.converted reader
    filledQuantity := row.filledQuantity.converted reader }

/-- The row of an order whose quantities are stored as numbers. -/
def StoredOrder.columns (order : StoredOrder) : OrderColumns where
  orderId := .text order.orderId
  idempotencyKey := .text order.idempotencyKey
  side := .text order.side.text
  requestedQuantity := .real (some order.requestedQuantity)
  filledQuantity := .real (some order.filledQuantity)
  status := .text order.status.text
  updatedAtUtc := .text (.canonical order.updatedAtUtc)

/-- The columns of an order are numbers already. -/
@[simp] theorem converted_columns (order : StoredOrder) :
    order.columns.converted reader = order.columns := rfl

/-- Different orders have different columns. -/
theorem StoredOrder.columns_injective : Function.Injective StoredOrder.columns := by
  rintro ⟨id, key, side, requested, filled, status, at_⟩
    ⟨id', key', side', requested', filled', status', at'⟩ h
  simp only [columns, OrderColumns.mk.injEq, TextColumn.text.injEq, NumberColumn.real.injEq,
    Option.some.injEq, Spelling.canonical.injEq] at h
  obtain ⟨rfl, rfl, hside, rfl, rfl, hstatus, rfl⟩ := h
  obtain rfl := OrderStatus.text_injective hstatus
  cases side <;> cases side' <;> first | rfl | exact absurd hside (by decide)

/-- What the columns of an order are checked for. -/
structure StoredOrder.Sound (order : StoredOrder) : Prop where
  orderId : order.orderId.isNonempty = true
  key : order.idempotencyKey.isNonempty = true
  requested : 0 < order.requestedQuantity
  filled : 0 ≤ order.filledQuantity

/-- One more row adds one order, which is new. -/
theorem projectColumns_eq_ok {projected projected' : List StoredOrder} {row : OrderColumns} :
    projectColumns reader projected row = .ok projected' ↔ ∃ order : StoredOrder,
      row.converted reader = order.columns ∧ order.Sound ∧
        order.filledQuantity ≤ order.requestedQuantity ∧
        order.orderId ∉ projected.map (·.orderId) ∧
        order.idempotencyKey ∉ projected.map (·.idempotencyKey) ∧
        projected ++ [order] = projected' := by
  simp only [projectColumns, Except.bind_eq_ok, storedNonemptyText_eq_ok, reject_eq_ok, not_or,
    storedSide_eq_ok, storedPositiveNumber_eq_ok, storedNonnegativeNumber_eq_ok, not_lt,
    storedOrderStatus_eq_ok, parseStoredTimestamp_eq_ok, Except.pure_eq_ok]
  constructor
  · rintro ⟨id, ⟨hid, hidText⟩, key, ⟨hkey, hkeyText⟩, _, ⟨hidNew, hkeyNew⟩, side, hside, requested,
      ⟨hrequested, hpositive⟩, filled, ⟨hfilled, hnonneg⟩, _, hle, status, hstatus, at_, hat, rfl⟩
    refine ⟨⟨id, key, side, requested, filled, status, at_⟩, ?_,
      ⟨hidText, hkeyText, hpositive, hnonneg⟩, hle, hidNew, hkeyNew, rfl⟩
    rw [OrderColumns.converted, hrequested, hfilled, hid, hkey, hside, hstatus, hat]
    rfl
  · rintro ⟨order, hrow, hsound, hle, hidNew, hkeyNew, rfl⟩
    simp only [OrderColumns.converted, StoredOrder.columns, OrderColumns.mk.injEq] at hrow
    obtain ⟨hid, hkey, hside, hrequested, hfilled, hstatus, hat⟩ := hrow
    exact ⟨_, ⟨hid, hsound.orderId⟩, _, ⟨hkey, hsound.key⟩, (), ⟨hidNew, hkeyNew⟩, _, hside, _,
      ⟨hrequested, hsound.requested⟩, _, ⟨hfilled, hsound.filled⟩, (), hle, _, hstatus, _, hat, rfl⟩

/-- The rows of `orders` are read one by one. -/
theorem projectRows_eq_ok {rows : List OrderColumns} {projected : List StoredOrder} :
    rows.foldlM (projectColumns reader) [] = .ok projected ↔
      rows.map (·.converted reader) = projected.map (·.columns) ∧
        (∀ order ∈ projected, order.Sound ∧ order.filledQuantity ≤ order.requestedQuantity) ∧
        (projected.map (·.orderId)).Nodup ∧ (projected.map (·.idempotencyKey)).Nodup := by
  induction rows using List.reverseRecOn generalizing projected with
  | nil =>
    constructor
    · rintro ⟨⟩
      simp
    · rintro ⟨hnone, -⟩
      rw [List.map_nil, eq_comm, List.map_eq_nil_iff] at hnone
      rw [hnone]
      rfl
  | append_singleton rows row ih =>
    simp only [foldlM_snoc_eq_ok, ih, projectColumns_eq_ok, List.map_append, List.map_singleton]
    constructor
    · rintro ⟨before, ⟨hrows, hsound, hids, hkeys⟩, order, hrow, hone, hle, hid, hkey, rfl⟩
      refine ⟨by rw [hrows, hrow, List.map_append, List.map_singleton], ?_, ?_, ?_⟩
      · intro other hother
        rcases List.mem_append.mp hother with hbefore | hlast
        · exact hsound other hbefore
        · obtain rfl := List.mem_singleton.mp hlast
          exact ⟨hone, hle⟩
      · rw [List.map_append, List.nodup_append]
        refine ⟨hids, List.nodup_singleton _, fun id hmem other hother hsame => hid ?_⟩
        have hlast : id = order.orderId := hsame.trans (List.mem_singleton.mp hother)
        exact hlast ▸ hmem
      · rw [List.map_append, List.nodup_append]
        refine ⟨hkeys, List.nodup_singleton _, fun key hmem other hother hsame => hkey ?_⟩
        have hlast : key = order.idempotencyKey := hsame.trans (List.mem_singleton.mp hother)
        exact hlast ▸ hmem
    · rintro ⟨hrows, hsound, hids, hkeys⟩
      rcases List.eq_nil_or_concat projected with rfl | ⟨before, order, rfl⟩
      · simp at hrows
      · rw [List.concat_eq_append] at hrows hsound hids hkeys ⊢
        rw [List.map_append, List.map_singleton] at hrows
        obtain ⟨hbefore, hlast⟩ := List.append_inj' hrows rfl
        rw [List.map_append, List.nodup_append] at hids hkeys
        have horder := hsound order (by simp)
        refine ⟨before, ⟨hbefore, fun other hother => hsound other (by simp [hother]), hids.1,
          hkeys.1⟩, order, List.singleton_inj.mp hlast, horder.1, horder.2, ?_, ?_, rfl⟩
        · intro hmem
          exact hids.2.2 _ hmem _ (by simp) rfl
        · intro hmem
          exact hkeys.2.2 _ hmem _ (by simp) rfl

/-- The projection of a file is verified exactly when its rows read as sound orders that the
typed verification accepts. -/
theorem verifyOrderColumns_eq_ok {rows : List OrderColumns} {replayed : List StoredOrder} :
    verifyOrderColumns reader rows replayed = .ok () ↔ ∃ projected : List StoredOrder,
      rows.map (·.converted reader) = projected.map (·.columns) ∧
        (∀ order ∈ projected, order.Sound) ∧ verifyOrderProjection projected replayed = .ok () := by
  simp only [verifyOrderColumns, verifyOrderProjection, Except.bind_eq_ok, reject_eq_ok,
    projectRows_eq_ok, not_or, not_not, not_exists, not_and, not_lt]
  constructor
  · rintro ⟨projected, ⟨hrows, hsound, hids, hkeys⟩, _, hknown, hall⟩
    exact ⟨projected, hrows, fun order horder => (hsound order horder).1, (), ⟨hids, hkeys⟩, (),
      fun order horder => (hsound order horder).2, (), hknown, hall⟩
  · rintro ⟨projected, hrows, hsound, _, ⟨hids, hkeys⟩, _, hle, _, hknown, hall⟩
    exact ⟨projected, ⟨hrows, fun order horder => ⟨hsound order horder, hle order horder⟩, hids,
      hkeys⟩, (), hknown, hall⟩

/-! ## The replay of a file -/

/-- The row of an event. -/
def RawEvent.columns (e : RawEvent ρ) : EventColumns ρ :=
  ⟨e.sequence, .text e.eventId, .text e.eventType, .text (.canonical e.occurredAtUtc),
    .text (.canonical e.payload)⟩

variable (reader) in
/-- An event with the fields that are read of its payload. -/
def RawEvent.read (e : RawEvent ρ) : Except Failure StoredEvent := do
  let payload ← reader.payload e.eventType e.payload
  return ⟨e.sequence, e.eventId, e.occurredAtUtc, payload⟩

/-- What the loop over the rows has accumulated: the rows are those of the raw events, which
are read and replay, and each prefix has its digest. -/
structure FileReplayed (reader : FileReader ρ σ δ) (rows : List (EventColumns ρ))
    (r : FileReplay ρ δ) : Prop where
  rows_eq : rows = r.raw.map RawEvent.columns
  read : r.raw.mapM (RawEvent.read reader) = .ok r.evidence
  replay : rebuildFromEvents r.evidence = .ok r.projection
  digest : r.digest = chainDigest reader.digest reader.empty r.raw
  mappings : r.snapshotMappings.length = r.raw.length + 1
  timestamps : r.snapshotTimestamps.length = r.raw.length + 1
  last : r.snapshotMappings.getLast? = some (snapshotMapping r.projection r.digest)

/-- One more row adds one event. -/
theorem replayColumns_eq_ok {r r' : FileReplay ρ δ} {row : EventColumns ρ} :
    replayColumns reader r row = .ok r' ↔ ∃ raw e,
      (row = raw.columns ∧ raw.eventId.isNonempty = true ∧ isNonemptyText raw.eventType = true ∧
        raw.read reader = .ok e ∧ replayEvent r.projection e = .ok r'.projection) ∧
      r'.raw = r.raw ++ [raw] ∧ r'.evidence = r.evidence ++ [e] ∧
      r'.digest = reader.digest r.digest raw ∧
      r'.snapshotMappings = r.snapshotMappings ++ [snapshotMapping r'.projection r'.digest] ∧
      r'.snapshotTimestamps = r.snapshotTimestamps ++ [raw.occurredAtUtc] := by
  obtain ⟨sequence, eventId, eventType, occurredAtUtc, payloadJson⟩ := row
  simp only [replayColumns, Except.bind_eq_ok, reject_eq_ok, not_not, storedNonemptyText_eq_ok,
    parseStoredTimestamp_eq_ok, storedObject_eq_ok, Except.pure_eq_ok, RawEvent.read,
    RawEvent.columns, EventColumns.mk.injEq, not_exists, not_and, not_lt]
  constructor
  · rintro ⟨_, hsequence, id, ⟨rfl, hid⟩, type, ⟨rfl, htype⟩, at_, rfl, _, -, object, rfl, payload,
      hpayload, projection, hreplay, rfl⟩
    have hnat : sequence = (sequence.toNat : ℤ) := by omega
    exact ⟨⟨sequence.toNat, id, type, at_, object⟩, _, ⟨⟨hnat, rfl, rfl, rfl, rfl⟩, hid, htype,
      ⟨payload, hpayload, rfl⟩, hreplay⟩, rfl, rfl, rfl, rfl, rfl⟩
  · rintro ⟨raw, e, ⟨⟨rfl, rfl, rfl, rfl, rfl⟩, hid, htype, ⟨payload, hpayload, rfl⟩, hreplay⟩,
      hraw, hevidence, hdigest, hmappings, htimestamps⟩
    obtain ⟨hsequence, htimes, -⟩ := replayEvent_eq_ok.mp hreplay
    refine ⟨(), by exact_mod_cast hsequence, _, ⟨rfl, hid⟩, _, ⟨rfl, htype⟩, _, rfl, (), htimes, _, rfl,
      payload, hpayload, r'.projection, by simpa using hreplay, ?_⟩
    obtain ⟨projection', raw', evidence', digest', mappings', timestamps'⟩ := r'
    simp only at hraw hevidence hdigest hmappings htimestamps
    subst hraw hevidence hdigest hmappings htimestamps
    simp

/-- The loop over the rows accumulates what it should. -/
theorem fileReplayed_of_rows {rows : List (EventColumns ρ)} {r : FileReplay ρ δ}
    (h : rows.foldlM (replayColumns reader) (FileReplay.initial reader) = .ok r) :
    FileReplayed reader rows r := by
  induction rows using List.reverseRecOn generalizing r with
  | nil =>
    cases h
    exact ⟨rfl, rfl, rfl, rfl, rfl, rfl, rfl⟩
  | append_singleton rows row ih =>
    obtain ⟨t, ht, hrow⟩ := foldlM_snoc_eq_ok.mp h
    have hrows := ih ht
    obtain ⟨raw, e, ⟨rfl, -, -, hread, hreplay⟩, hraw, hevidence, hdigest, hmappings,
      htimestamps⟩ := replayColumns_eq_ok.mp hrow
    refine ⟨?_, ?_, ?_, ?_, ?_, ?_, ?_⟩
    · rw [hrows.rows_eq, hraw, List.map_append, List.map_singleton]
    · rw [hraw, hevidence, List.mapM_append, hrows.read]
      simp [hread]
    · rw [hevidence, rebuild_snoc]
      exact ⟨t.projection, hrows.replay, hreplay⟩
    · rw [hdigest, hraw, chainDigest_snoc, hrows.digest]
    · rw [hmappings, hraw, List.length_append, List.length_append, hrows.mappings]
      rfl
    · rw [htimestamps, hraw, List.length_append, List.length_append, hrows.timestamps]
      rfl
    · rw [hmappings, List.getLast?_concat]

/-- The replay reads as many events as the rows spell. -/
theorem FileReplayed.length {rows : List (EventColumns ρ)} {r : FileReplay ρ δ}
    (h : FileReplayed reader rows r) : r.evidence.length = r.raw.length :=
  (mapM_eq_ok.mp h.read).length_eq.symm

/-- The orders of a verified file are those of its replay. -/
theorem verifyOrderColumns_perm {rows : List OrderColumns} {replayed : List StoredOrder}
    (hreplayed : (replayed.map (·.orderId)).Nodup) {u : Unit}
    (h : verifyOrderColumns reader rows replayed = .ok u) :
    (rows.map (·.converted reader)).Perm (replayed.map (·.columns)) := by
  obtain ⟨projected, hrows, -, hverified⟩ := verifyOrderColumns_eq_ok.mp h
  rw [hrows]
  exact (verifyOrderProjection_perm hreplayed hverified).map _

variable [DecidableEq σ]

/-- A verified row of `snapshots` holds the mapping it should. -/
theorem verifySnapshotColumns_eq_ok {row : SnapshotColumns σ} {expected : SnapshotMapping δ × ℤ}
    {u : Unit} : verifySnapshotColumns reader row expected = .ok u ↔
      row.stateJson = .text (.canonical (reader.snapshot expected.1)) ∧
        row.createdAtUtc = .text (.canonical expected.2) := by
  simp only [verifySnapshotColumns, Except.bind_eq_ok, storedObject_eq_ok, reject_eq_ok, not_not,
    parseStoredTimestamp_eq_ok]
  constructor
  · rintro ⟨_, hstate, _, rfl, _, hcreated, rfl⟩
    exact ⟨hstate, hcreated⟩
  · rintro ⟨hstate, hcreated⟩
    exact ⟨_, hstate, (), rfl, _, hcreated, rfl⟩

/-- A verified file has the rows of its replay. -/
theorem verifyFile_eq_ok {file : DatabaseFile ρ σ} {snapshot : PaperSnapshot}
    (h : verifyFile reader file = .ok snapshot) : ∃ r, FileReplayed reader file.events r ∧
      file.eventsTail.getD 0 = r.projection.lastSequence ∧
      (file.orders.map (·.converted reader)).Perm (r.projection.orders.map (·.columns)) ∧
      file.snapshots.length = r.raw.length + 1 ∧
      file.snapshots.getLast?.map (·.stateJson) =
        some (.text (.canonical (reader.snapshot (snapshotMapping r.projection r.digest)))) := by
  simp only [verifyFile, rebuildColumns, Except.bind_eq_ok, reject_eq_ok, not_not,
    Except.pure_eq_ok, Except.forM_eq_ok] at h
  obtain ⟨_, ⟨r, hrows, _, htail, _, horders, rfl⟩, _, hsequences, _, hsnapshots, -⟩ := h
  have hreplayed := fileReplayed_of_rows hrows
  have hlength : file.snapshots.length = r.snapshotMappings.length := by
    simpa using congrArg List.length hsequences
  refine ⟨r, hreplayed, htail, verifyOrderColumns_perm (orders_nodup hreplayed.replay) horders,
    hlength.trans hreplayed.mappings, ?_⟩
  have hmappings := hreplayed.mappings
  have htimestamps := hreplayed.timestamps
  have hlast := hreplayed.last
  obtain ⟨row, hrow⟩ : ∃ row, file.snapshots[r.raw.length]? = some row :=
    ⟨_, List.getElem?_eq_getElem (by omega)⟩
  obtain ⟨timestamp, htimestamp⟩ : ∃ timestamp, r.snapshotTimestamps[r.raw.length]? = some timestamp :=
    ⟨_, List.getElem?_eq_getElem (by omega)⟩
  have hmapping : r.snapshotMappings[r.raw.length]? =
      some (snapshotMapping r.projection r.digest) := by
    rw [List.getLast?_eq_getElem?, hmappings] at hlast
    exact hlast
  have hzip : (row, snapshotMapping r.projection r.digest, timestamp) ∈
      file.snapshots.zip (r.snapshotMappings.zip r.snapshotTimestamps) := by
    refine List.mem_iff_getElem?.mpr ⟨r.raw.length, ?_⟩
    exact List.getElem?_zip_eq_some.mpr
      ⟨hrow, List.getElem?_zip_eq_some.mpr ⟨hmapping, htimestamp⟩⟩
  have hverified := verifySnapshotColumns_eq_ok.mp (hsnapshots _ hzip)
  rw [List.getLast?_eq_getElem?, hlength, hmappings]
  simp only [Nat.add_sub_cancel, hrow, Option.map_some]
  exact congrArg some hverified.1

/-- With injective digests and canonical JSON, the snapshots of a verified file determine its
events, and its orders once their quantities are converted. -/
theorem columns_of_snapshots (hdigest : Function.Injective2 reader.digest)
    (hsnapshot : Function.Injective reader.snapshot) {file file' : DatabaseFile ρ σ}
    {snapshot snapshot' : PaperSnapshot} (h : verifyFile reader file = .ok snapshot)
    (h' : verifyFile reader file' = .ok snapshot') (hsame : file.snapshots = file'.snapshots) :
    file.events = file'.events ∧
      (file.orders.map (·.converted reader)).Perm (file'.orders.map (·.converted reader)) := by
  obtain ⟨r, hr, -, horders, hlength, hlast⟩ := verifyFile_eq_ok h
  obtain ⟨r', hr', -, horders', hlength', hlast'⟩ := verifyFile_eq_ok h'
  rw [hsame] at hlength hlast
  have hchain : r.digest = r'.digest := by
    have hcolumn := TextColumn.text.inj (Option.some.inj (hlast.symm.trans hlast'))
    exact congrArg SnapshotMapping.eventDigest (hsnapshot (Spelling.canonical.inj hcolumn))
  rw [hr.digest, hr'.digest] at hchain
  have hraw : r.raw = r'.raw := chainDigest_injective hdigest (by omega) hchain
  have hevidence : r.evidence = r'.evidence := by
    have hread := hr.read
    rw [hraw, hr'.read] at hread
    exact (Except.ok.inj hread).symm
  have hprojection : r'.projection = r.projection := by
    have hreplay := hr.replay
    rw [hevidence, hr'.replay] at hreplay
    exact Except.ok.inj hreplay
  constructor
  · rw [hr.rows_eq, hr'.rows_eq, hraw]
  · exact horders.trans (hprojection ▸ horders'.symm)

/-- The counter gives away a deleted tail, whatever the other tables are made to hold. -/
theorem verifyFile_of_deleted_tail {file file' : DatabaseFile ρ σ} {snapshot : PaperSnapshot}
    (h : verifyFile reader file = .ok snapshot) {n : ℕ} (hn : n < file.events.length)
    (hevents : file'.events = file.events.take n) (htail : file'.eventsTail = file.eventsTail) :
    ∃ failure, verifyFile reader file' = .error failure := by
  cases hverify : verifyFile reader file' with
  | error failure => exact ⟨failure, rfl⟩
  | ok snapshot' =>
    exfalso
    obtain ⟨r, hr, hcount, -⟩ := verifyFile_eq_ok h
    obtain ⟨r', hr', hcount', -⟩ := verifyFile_eq_ok hverify
    have hsequence := (envelopes_of_rebuild hr.replay).lastSequence
    have hsequence' := (envelopes_of_rebuild hr'.replay).lastSequence
    have hlength := congrArg List.length hr.rows_eq
    have hlength' := congrArg List.length hr'.rows_eq
    have hread := hr.length
    have hread' := hr'.length
    rw [hevents, List.length_take] at hlength'
    rw [htail, hcount] at hcount'
    simp only [List.length_map] at hlength hlength'
    omega

end Columns

/-! ## The typed tables -/

/-- A canonical column, as the file holds it. -/
def Encoded.column {α : Type} : Encoded α → TextColumn (Spelling α)
  | .canonical value => .text (.canonical value)
  | .other text => .text (.readable text)

/-- A typed column is canonical exactly when its text is. -/
@[simp] theorem column_eq_canonical {α : Type} {column : Encoded α} {value : α} :
    column.column = .text (.canonical value) ↔ column = .canonical value := by
  cases column <;> simp [Encoded.column]

/-- A typed row of `events`, as the file holds it. -/
def EventRow.columns (row : EventRow) : EventColumns Payload where
  sequence := row.sequence
  eventId := .text row.eventId
  eventType := match row.payloadJson with
    | .canonical payload => .text payload.eventType
    | .other text => .text text
  occurredAtUtc := row.occurredAtUtc.column
  payloadJson := row.payloadJson.column

/-- A typed row of `snapshots`, as the file holds it. -/
def SnapshotRow.columns {δ : Type} (row : SnapshotRow δ) : SnapshotColumns (SnapshotMapping δ) :=
  ⟨row.sequence, row.stateJson.column, row.createdAtUtc.column⟩

/-- The file of typed tables. -/
def Tables.file {δ : Type} (t : Tables δ) : DatabaseFile Payload (SnapshotMapping δ) where
  events := t.events.map EventRow.columns
  orders := t.orders.map StoredOrder.columns
  snapshots := t.snapshots.map SnapshotRow.columns
  eventsTail := t.eventsTail

/-- A typed event, as its row spells it. -/
def StoredEvent.raw (e : StoredEvent) : RawEvent Payload :=
  ⟨e.sequence, e.eventId, e.payload.eventType, e.occurredAtUtc, e.payload⟩

/-- What the typed replay has accumulated, as the replay of the file has. -/
def Rebuild.file {δ : Type} (r : Rebuild δ) : FileReplay Payload δ :=
  ⟨r.projection, r.evidence.map StoredEvent.raw, r.evidence, r.digest, r.snapshotMappings,
    r.snapshotTimestamps⟩

section Typed

variable {δ : Type} (hash : EventHash δ)

/-- The reading of typed payloads and snapshots. -/
def typedReader : FileReader Payload (SnapshotMapping δ) δ where
  empty := hash.empty
  digest previous e := hash.digest ⟨e.eventId, e.occurredAtUtc, e.payload, previous, e.sequence⟩
  snapshot := id
  payload eventType payload := do
    reject (payload.eventType ≠ eventType) (.corruption "invalid event type")
    return payload
  floatText _ := none
  floatBytes _ := none

variable {hash}

/-- The raw event of a typed row is that of its typed event. -/
theorem columns_eq_read {row : EventRow} {raw : RawEvent Payload} {e : StoredEvent} :
    row.columns = raw.columns ∧ raw.read (typedReader hash) = .ok e ↔ row = e.row ∧ raw = e.raw := by
  obtain ⟨sequence, eventId, occurredAtUtc, payloadJson⟩ := row
  obtain ⟨sequence', eventId', eventType', occurredAt', payload'⟩ := raw
  simp only [EventRow.columns, RawEvent.columns, EventColumns.mk.injEq, TextColumn.text.injEq,
    column_eq_canonical, RawEvent.read, typedReader, Except.bind_eq_ok, reject_eq_ok, not_not,
    Except.pure_eq_ok]
  constructor
  · rintro ⟨⟨rfl, rfl, -, rfl, rfl⟩, _, ⟨_, rfl, rfl⟩, rfl⟩
    exact ⟨rfl, rfl⟩
  · rintro ⟨hrow, hraw⟩
    obtain ⟨rfl, rfl, rfl, rfl⟩ := EventRow.mk.inj hrow
    obtain ⟨rfl, rfl, rfl, rfl, rfl⟩ := RawEvent.mk.inj hraw
    exact ⟨⟨rfl, rfl, rfl, rfl, rfl⟩, _, ⟨(), rfl, rfl⟩, rfl⟩

/-- A row of the file is replayed as its typed row. -/
theorem replayColumns_columns {r : Rebuild δ} {row : EventRow} {after : FileReplay Payload δ} :
    replayColumns (typedReader hash) r.file row.columns = .ok after ↔
      ∃ r', replayRow hash r row = .ok r' ∧ r'.file = after := by
  simp only [replayColumns_eq_ok, replayRow_eq_ok]
  constructor
  · rintro ⟨raw, e, ⟨hrow, hid, htype, hread, hreplay⟩, hraw, hevidence, hdigest, hmappings,
      htimestamps⟩
    obtain ⟨rfl, rfl⟩ := columns_eq_read.mp ⟨hrow, hread⟩
    obtain ⟨projection, raw, evidence, digest, mappings, timestamps⟩ := after
    simp only at hreplay hraw hevidence hdigest hmappings htimestamps
    subst hraw hevidence hdigest hmappings htimestamps
    refine ⟨⟨projection, r.evidence ++ [e], hash.step r.digest e,
      r.snapshotMappings ++ [snapshotMapping projection (hash.step r.digest e)],
      r.snapshotTimestamps ++ [e.occurredAtUtc]⟩,
      ⟨e, ⟨rfl, hid, htype, hreplay⟩, rfl, rfl, rfl, rfl⟩, ?_⟩
    simp only [Rebuild.file, List.map_append, List.map_singleton]
    rfl
  · rintro ⟨r', ⟨e, ⟨rfl, hid, htype, hreplay⟩, hevidence, hdigest, hmappings, htimestamps⟩, rfl⟩
    have hcolumns : e.row.columns = e.raw.columns ∧ e.raw.read (typedReader hash) = .ok e :=
      columns_eq_read.mpr ⟨rfl, rfl⟩
    refine ⟨e.raw, e, ⟨hcolumns.1, hid, htype, hcolumns.2, hreplay⟩, ?_, hevidence, hdigest,
      hmappings, htimestamps⟩
    simp only [Rebuild.file, hevidence, List.map_append, List.map_singleton]

/-- So are all rows of the file. -/
theorem replayRows_columns {rows : List EventRow} {after : FileReplay Payload δ} :
    (rows.map EventRow.columns).foldlM (replayColumns (typedReader hash))
        (FileReplay.initial (typedReader hash)) = .ok after ↔
      ∃ r, rows.foldlM (replayRow hash) (Rebuild.initial hash) = .ok r ∧ r.file = after := by
  induction rows using List.reverseRecOn generalizing after with
  | nil =>
    constructor
    · rintro ⟨⟩
      exact ⟨_, rfl, rfl⟩
    · rintro ⟨_, ⟨⟩, rfl⟩
      rfl
  | append_singleton rows row ih =>
    simp only [List.map_append, List.map_singleton, foldlM_snoc_eq_ok, ih]
    constructor
    · rintro ⟨_, ⟨r, hrows, rfl⟩, hrow⟩
      obtain ⟨r', hr', rfl⟩ := replayColumns_columns.mp hrow
      exact ⟨r', ⟨r, hrows, hr'⟩, rfl⟩
    · rintro ⟨r', ⟨r, hrows, hr'⟩, rfl⟩
      exact ⟨r.file, ⟨r, hrows, rfl⟩, replayColumns_columns.mpr ⟨r', hr', rfl⟩⟩

/-- The orders of a file of typed tables are the typed ones. -/
theorem verifyOrderColumns_columns {orders replayed : List StoredOrder} :
    verifyOrderColumns (typedReader hash) (orders.map StoredOrder.columns) replayed = .ok () ↔
      (∀ order ∈ orders, order.Sound) ∧ verifyOrderProjection orders replayed = .ok () := by
  have hrows : (orders.map StoredOrder.columns).map (·.converted (typedReader hash)) =
      orders.map StoredOrder.columns := by
    rw [List.map_map]
    rfl
  simp only [verifyOrderColumns_eq_ok, hrows]
  constructor
  · rintro ⟨projected, hsame, hsound, hverified⟩
    obtain rfl := List.map_injective_iff.mpr StoredOrder.columns_injective hsame
    exact ⟨hsound, hverified⟩
  · rintro ⟨hsound, hverified⟩
    exact ⟨orders, rfl, hsound, hverified⟩

variable [DecidableEq δ]

/-- The file of typed tables, whose orders have identities, is verified exactly when the tables
are. -/
theorem verifyFile_file {t : Tables δ} {snapshot : PaperSnapshot}
    (hids : ∀ order ∈ t.orders,
      order.orderId.isNonempty = true ∧ order.idempotencyKey.isNonempty = true) :
    verifyFile (typedReader hash) t.file = .ok snapshot ↔ verifyTables hash t = .ok snapshot := by
  have hsnapshots : ∀ r : Rebuild δ,
      (∀ pair ∈ (t.snapshots.map SnapshotRow.columns).zip
          (r.snapshotMappings.zip r.snapshotTimestamps),
        verifySnapshotColumns (typedReader hash) pair.1 pair.2 = .ok ()) ↔
      ∀ pair ∈ t.snapshots.zip (r.snapshotMappings.zip r.snapshotTimestamps),
        verifySnapshotRow pair.1 pair.2 = .ok () := by
    intro r
    rw [List.zip_map_left, List.forall_mem_map]
    simp only [verifySnapshotColumns_eq_ok, verifySnapshotRow_eq_ok, Prod.map, SnapshotRow.columns,
      column_eq_canonical, typedReader, id]
  have hsequences : (t.snapshots.map SnapshotRow.columns).map (·.sequence) =
      t.snapshots.map (·.sequence) := by
    rw [List.map_map]
    rfl
  simp only [verifyFile, verifyTables, rebuildColumns, rebuildRows, Tables.file,
    Except.bind_eq_ok, replayRows_columns, reject_eq_ok, not_not, Except.pure_eq_ok,
    Except.forM_eq_ok, hsequences]
  constructor
  · rintro ⟨_, ⟨_, ⟨r, hrows, rfl⟩, _, htail, _, horders, rfl⟩, _, hlength, _, hall, hsnapshot⟩
    have hcount := not_not.mp (reject_eq_ok.mp htail)
    exact ⟨r, ⟨r, hrows, (), hcount, (), (verifyOrderColumns_columns.mp horders).2, rfl⟩, (), hlength,
      (), (hsnapshots r).mp hall, hsnapshot⟩
  · rintro ⟨_, ⟨r, hrows, _, htail, _, horders, rfl⟩, _, hlength, _, hall, hsnapshot⟩
    have hreplayed := replayed_of_rows hrows
    have hperm := verifyOrderProjection_perm (orders_nodup hreplayed.replay) horders
    have hsound : ∀ order ∈ t.orders, order.Sound := by
      intro order horder
      have hlifecycle := lifecycle_of_rebuild hreplayed.replay order (hperm.mem_iff.mp horder)
      exact ⟨(hids order horder).1, (hids order horder).2, hlifecycle.requested_pos,
        hlifecycle.filled_nonneg⟩
    exact ⟨r.file, ⟨r.file, ⟨r, hrows, rfl⟩, (), reject_eq_ok.mpr (not_not.mpr htail), (),
      verifyOrderColumns_columns.mpr ⟨hsound, horders⟩, rfl⟩, (), hlength, (),
      (hsnapshots r).mpr hall, hsnapshot⟩

end Typed

/-! ## Tamper evidence -/

/-- Tamper evidence of the event log, with `sha256` and canonical JSON read as injective. The
quantities of an order are compared as floats, not as they are stored. -/
theorem tamper_evidence {ρ σ δ : Type} [DecidableEq σ] (reader : FileReader ρ σ δ)
    (hdigest : Function.Injective2 reader.digest) (hsnapshot : Function.Injective reader.snapshot) :
    (∀ file file' snapshot snapshot', verifyFile reader file = .ok snapshot →
      verifyFile reader file' = .ok snapshot' → file.snapshots = file'.snapshots →
        file.events = file'.events ∧
        (file.orders.map (·.converted reader)).Perm (file'.orders.map (·.converted reader))) ∧
    (∀ file file' snapshot n, verifyFile reader file = .ok snapshot → n < file.events.length →
      file'.events = file.events.take n → file'.eventsTail = file.eventsTail →
        ∃ failure, verifyFile reader file' = .error failure) := by
  constructor
  · intro file file' snapshot snapshot' h h' hsame
    exact columns_of_snapshots hdigest hsnapshot h h' hsame
  · intro file file' snapshot n h hn hevents htail
    exact verifyFile_of_deleted_tail h hn hevents htail

/-- A reader whose digests spell their chain out, and whose `float` reads one text. -/
def spelledReader : FileReader Payload (SnapshotMapping (List (RawEvent Payload)))
    (List (RawEvent Payload)) where
  empty := []
  digest previous e := previous ++ [e]
  snapshot := id
  payload _ payload := .ok payload
  floatText text := if text = "1_0" then some (some 10) else none
  floatBytes _ := none

/-- Digests that spell their chain out are injective. -/
theorem spelledReader_digest : Function.Injective2 spelledReader.digest := by
  intro previous previous' e e' h
  obtain ⟨hprevious, hevent⟩ := List.append_inj' h rfl
  exact ⟨hprevious, List.singleton_inj.mp hevent⟩

/-- The creation of an order for ten bitcoins. -/
def createdEvent : RawEvent Payload :=
  ⟨1, .orderCreated (.external "key"), "ORDER_CREATED", 0,
    .orderCreated ⟨.external "key", .external "order", .buy, 10, 0, .created⟩⟩

/-- The order of that event. -/
def createdOrder : StoredOrder := ⟨.external "order", .external "key", .buy, 10, 0, .created, 0⟩

/-- The file with that event, and some column for the quantity of its order. -/
def createdFile (quantity : NumberColumn) :
    DatabaseFile Payload (SnapshotMapping (List (RawEvent Payload))) where
  events := [createdEvent.columns]
  orders := [{ createdOrder.columns with requestedQuantity := quantity }]
  snapshots :=
    [⟨0, .text (.canonical (snapshotMapping {} [])), .text (.canonical 0)⟩,
      ⟨1, .text (.canonical (snapshotMapping
        { orders := [createdOrder], previousTimestamp := some 0, lastSequence := 1 }
        [createdEvent])), .text (.canonical 0)⟩]
  eventsTail := some 1

/-- The quantity of an order may be stored as a number or as a text of which `float` makes the
number: both files are verified. -/
theorem createdFile_verified :
    (verifyFile spelledReader (createdFile (.real (some 10)))).isOk = true ∧
      (verifyFile spelledReader (createdFile (.text "1_0"))).isOk = true := by
  constructor <;> decide +kernel

/-- The snapshots determine the event of these files and their order, whose quantity is once a
number and once a text, and without the event the first file is refused. -/
theorem tamper_evidence_created :
    (createdFile (.real (some 10))).events = (createdFile (.text "1_0")).events ∧
    ((createdFile (.real (some 10))).orders.map (·.converted spelledReader)).Perm
      ((createdFile (.text "1_0")).orders.map (·.converted spelledReader)) ∧
    ∃ failure, verifyFile spelledReader { createdFile (.real (some 10)) with
      events := [], orders := [],
      snapshots := (createdFile (.real (some 10))).snapshots.take 1 } = .error failure := by
  obtain ⟨snapshot, h⟩ := Except.isOk_iff.mp createdFile_verified.1
  obtain ⟨snapshot', h'⟩ := Except.isOk_iff.mp createdFile_verified.2
  obtain ⟨hsame, hdeleted⟩ := tamper_evidence spelledReader spelledReader_digest fun _ _ h => h
  obtain ⟨hevents, horders⟩ := hsame _ _ snapshot snapshot' h h' rfl
  exact ⟨hevents, horders, hdeleted _ _ snapshot 0 h (by decide) rfl rfl⟩

/-- Two verified files with the same snapshots may store the quantity of an order in different
ways. -/
theorem not_orders_of_snapshots : ∃ file file' :
    DatabaseFile Payload (SnapshotMapping (List (RawEvent Payload))),
    (∃ snapshot, verifyFile spelledReader file = .ok snapshot) ∧
    (∃ snapshot, verifyFile spelledReader file' = .ok snapshot) ∧
    file.snapshots = file'.snapshots ∧ file.orders ≠ file'.orders := by
  refine ⟨createdFile (.real (some 10)), createdFile (.text "1_0"),
    Except.isOk_iff.mp createdFile_verified.1, Except.isOk_iff.mp createdFile_verified.2, rfl, ?_⟩
  intro hsame
  have hquantity := congrArg OrderColumns.requestedQuantity (List.singleton_inj.mp hsame)
  cases hquantity

end AutoBit.Store
