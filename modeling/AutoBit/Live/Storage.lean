import AutoBit.Library.Transaction
import AutoBit.Live.Codec
import AutoBit.Live.Sends

/-!
# What the live journal gives back

The journal keeps one payload for its state, and one row for each intent. A save checks both by
reading back what it is about to write, and writes them in one transaction. After a save, the
state is the saved one, and the pending intents are the saved ones that have not ended, unless
an update leaves two of them: only an insertion asks whether another intent is pending. What
is read is equal to what was saved unless the offset of a saved datetime depends on its fold:
the journal writes the offset, and loses the time zone.
-/

namespace AutoBit.Live.Codec

open Library Risk

/-! ## The tables -/

/-- A row of `live_intents`. -/
structure IntentRow where
  identifier : String
  payload : Json
  terminal : Bool

/-- The payload of `live_state`, and the rows of `live_intents` in the order of their insertion. -/
structure Tables where
  payload : Option Json := none
  intents : List IntentRow := []

section Tables

variable (texts : Texts)

/-- `LiveJournal.state`. -/
def Tables.state (tables : Tables) : Except LiveError (Option StoredState) :=
  match tables.payload with
  | none => .ok none
  | some payload =>
    (some <$> readState texts payload).mapError fun _ => .journal "Invalid persisted live state"

/-- What `LiveJournal.pending` reads of a row. -/
def readRow (row : IntentRow) : Except LiveError LiveIntent := do
  let intent ← readIntent texts row.payload
  reject (intent.identifier ≠ row.identifier ∨ row.terminal ≠ intent.terminal)
    (.journal "Contradictory intent projection")
  return intent

/-- The intents that have not ended. -/
def unresolved (intents : List LiveIntent) : List LiveIntent :=
  intents.filter fun intent => !intent.terminal

/-- `LiveJournal.pending`. -/
def Tables.pending (tables : Tables) : Except LiveError (List LiveIntent) :=
  Except.mapError (fun _ => .journal "Invalid durable intent") do
    let pending := unresolved (← tables.intents.mapM (readRow texts))
    reject (1 < pending.length) (.journal "Multiple unresolved intents")
    return pending

variable (zone : Zones)

/-- The row of an intent. -/
def rowOf (intent : LiveIntent) : IntentRow :=
  ⟨intent.identifier, intentMapping zone intent, intent.terminal⟩

/-- `INSERT INTO live_intents`, after the check that no intent is pending. -/
def insertIntent (intent : LiveIntent) : Stateful LiveError Tables Unit := do
  let tables ← get
  let pending ← liftM (tables.pending texts)
  liftM (reject (pending ≠ []) (LiveError.journal "An unresolved intent already exists"))
  liftM (reject (∃ row ∈ tables.intents, row.identifier = intent.identifier)
    (LiveError.storage "UNIQUE constraint failed: live_intents.identifier"))
  modify fun tables => { tables with intents := tables.intents ++ [rowOf zone intent] }

/-- `UPDATE live_intents`, before the check that it found its row. -/
def updateIntent (intent : LiveIntent) : Stateful LiveError Tables Unit := do
  let tables ← get
  modify fun tables => { tables with
    intents := tables.intents.map fun row =>
      if row.identifier = intent.identifier then rowOf zone intent else row }
  liftM (reject ((tables.intents.filter fun row => row.identifier = intent.identifier).length ≠ 1)
    (LiveError.journal "Missing durable intent"))

/-- The part of `LiveJournal.save` that writes an intent. -/
def saveIntentRow (intent : LiveIntent) (newIntent : Bool) : Stateful LiveError Tables Unit := do
  let _ ← liftM (readIntent texts (intentMapping zone intent))
  if newIntent then insertIntent texts zone intent else updateIntent zone intent

/-- `LiveJournal.save` inside of its transaction. -/
def saveRows (payload : Json) (intent : Option LiveIntent) (newIntent : Bool) :
    Stateful LiveError Tables Unit := do
  intent.forM fun intent => saveIntentRow texts zone intent newIntent
  modify fun tables => { tables with payload := some payload }

/-- `LiveJournal.save`. -/
def save (state : StoredState) (intent : Option LiveIntent) (newIntent : Bool) :
    Stateful LiveError Tables Unit := do
  let payload ← liftM (stateMapping zone state)
  let _ ← liftM (readState texts payload)
  transaction (saveRows texts zone payload intent newIntent)

end Tables

/-! ## What was saved -/

/-- The intents that have been saved, once one more save was accepted. -/
def recorded (intents : List LiveIntent) (intent : Option LiveIntent) (newIntent : Bool) :
    List LiveIntent :=
  match intent with
  | none => intents
  | some intent =>
    if newIntent then intents ++ [intent]
    else intents.map fun other => if other.identifier = intent.identifier then intent else other

/-- The zones of the datetimes of the saved intents, by their identifiers, once one more save
was accepted. -/
def createdZones (created : String → Zone) (zone : Zones) (intent : Option LiveIntent) :
    String → Zone :=
  match intent with
  | none => created
  | some intent => Function.update created intent.identifier (zone "created_at" 0)

/-- The state that was saved last, the intents that were saved and the zones of their datetimes,
after any run of saves of a new journal. -/
inductive Saved (texts : Texts) :
    Tables → Option StoredState → List LiveIntent → (String → Zone) → Prop
  | opened : Saved texts {} none [] fun _ => {}
  | accepted {tables after : Tables} {last : Option StoredState} {intents : List LiveIntent}
      {created : String → Zone} {zone : Zones} {state : StoredState} {intent : Option LiveIntent}
      {newIntent : Bool} (h : Saved texts tables last intents created)
      (hsave : execute (save texts zone state intent newIntent) tables = (.ok (), after)) :
      Saved texts after (some state) (recorded intents intent newIntent)
        (createdZones created zone intent)
  | refused {tables after : Tables} {last : Option StoredState} {intents : List LiveIntent}
      {created : String → Zone} {zone : Zones} {state : StoredState} {intent : Option LiveIntent}
      {newIntent : Bool} {e : LiveError} (h : Saved texts tables last intents created)
      (hsave : execute (save texts zone state intent newIntent) tables = (.error e, after)) :
      Saved texts after last intents created

/-- The tables hold a state and intents, each intent under its own identifier. -/
structure Holds (texts : Texts) (tables : Tables) (last : Option StoredState)
    (intents : List LiveIntent) : Prop where
  state : tables.state texts = .ok last
  rows : List.Forall₂ (fun row intent => readRow texts row = .ok intent) tables.intents intents
  keyed : (intents.map (·.identifier)).Nodup

section Saving

variable {texts : Texts} {zone : Zones} {tables after : Tables} {last : Option StoredState}
  {intents : List LiveIntent} {state : StoredState} {intent : LiveIntent} {newIntent : Bool}

/-- The intent that is read of a row has the identifier and the end that the row has. -/
theorem readRow_eq_ok {row : IntentRow} (h : readRow texts row = .ok intent) :
    row.identifier = intent.identifier ∧ row.terminal = intent.terminal := by
  simp only [readRow, Except.bind_eq_ok, reject_eq_ok, not_or, not_not, Except.pure_eq_ok] at h
  obtain ⟨read, _, _, ⟨hidentifier, hterminal⟩, rfl⟩ := h
  exact ⟨hidentifier.symm, hterminal⟩

/-- The row of a valid intent is read back. -/
theorem readRow_rowOf (h : validateIntent intent = .ok ()) :
    readRow texts (rowOf zone intent) = .ok intent := by
  refine Except.bind_eq_ok.mpr ⟨intent, readIntent_written.mpr ⟨h, rfl⟩, ?_⟩
  exact Except.bind_eq_ok.mpr ⟨(), reject_eq_ok.mpr (by simp [rowOf]), rfl⟩

/-- The pending intents of the tables. -/
theorem Holds.pending_eq_ok {pending : List LiveIntent} (h : Holds texts tables last intents) :
    tables.pending texts = .ok pending ↔
      (unresolved intents).length ≤ 1 ∧ unresolved intents = pending := by
  have hread : tables.intents.mapM (readRow texts) = .ok intents := mapM_eq_ok.mpr h.rows
  simp [Tables.pending, hread]

/-- The identifiers of the rows. -/
theorem Holds.identifiers (h : Holds texts tables last intents) :
    tables.intents.map (·.identifier) = intents.map (·.identifier) := by
  rw [← List.forall₂_eq_eq_eq, List.forall₂_map_left_iff, List.forall₂_map_right_iff]
  exact h.rows.imp fun _ _ hrow => (readRow_eq_ok hrow).1

/-- An insertion succeeds exactly when nothing is pending and the identifier is new. -/
theorem insertIntent_eq_ok :
    execute (insertIntent texts zone intent) tables = (.ok (), after) ↔
      tables.pending texts = .ok [] ∧
        (∀ row ∈ tables.intents, row.identifier ≠ intent.identifier) ∧
        { tables with intents := tables.intents ++ [rowOf zone intent] } = after := by
  simp only [insertIntent, execute_bind_eq_ok, execute_get, execute_lift, execute_modify,
    Prod.mk.injEq, Except.ok.injEq, reject_eq_ok, not_not, not_exists, not_and, true_and]
  constructor
  · rintro ⟨_, _, ⟨rfl, rfl⟩, pending, _, ⟨hpending, rfl⟩, _, _, ⟨hempty, rfl⟩, _, _,
      ⟨hfresh, rfl⟩, rfl⟩
    exact ⟨hempty ▸ hpending, hfresh, rfl⟩
  · rintro ⟨hpending, hfresh, rfl⟩
    exact ⟨_, _, ⟨rfl, rfl⟩, [], _, ⟨hpending, rfl⟩, (), _, ⟨rfl, rfl⟩, (), _, ⟨hfresh, rfl⟩, rfl⟩

/-- An update succeeds exactly when one row has the identifier. -/
theorem updateIntent_eq_ok :
    execute (updateIntent zone intent) tables = (.ok (), after) ↔
      (tables.intents.filter fun row => row.identifier = intent.identifier).length = 1 ∧
        { tables with intents := tables.intents.map fun row =>
          if row.identifier = intent.identifier then rowOf zone intent else row } = after := by
  simp only [updateIntent, execute_bind_eq_ok, execute_get, execute_lift, execute_modify,
    Prod.mk.injEq, Except.ok.injEq, reject_eq_ok, not_not, true_and]
  constructor
  · rintro ⟨_, _, ⟨rfl, rfl⟩, _, _, rfl, hone, rfl⟩
    exact ⟨hone, rfl⟩
  · rintro ⟨hone, rfl⟩
    exact ⟨_, _, ⟨rfl, rfl⟩, (), _, rfl, hone, rfl⟩

/-- Which intents a save accepts: a new one when none is pending and none has its identifier, or
one that was saved before. -/
def AcceptsIntent (intents : List LiveIntent) (intent : LiveIntent) (newIntent : Bool) : Prop :=
  validateIntent intent = .ok () ∧
    if newIntent then
      unresolved intents = [] ∧ ∀ other ∈ intents, other.identifier ≠ intent.identifier
    else ∃ other ∈ intents, other.identifier = intent.identifier

/-- What a save accepts. -/
def Accepts (intents : List LiveIntent) (state : StoredState) (intent : Option LiveIntent)
    (newIntent : Bool) : Prop :=
  validateState state.facts = .ok () ∧ ∀ saved ∈ intent, AcceptsIntent intents saved newIntent

/-- A save with an intent is accepted when its state is valid and the intent is accepted. -/
theorem accepts_some (hvalid : validateState state.facts = .ok ())
    (h : AcceptsIntent intents intent newIntent) :
    Accepts intents state (some intent) newIntent := by
  refine ⟨hvalid, ?_⟩
  rintro _ ⟨⟩
  exact h

/-- How many rows an identifier has. -/
theorem Holds.rows_length (h : Holds texts tables last intents) (identifier : String) :
    (tables.intents.filter fun row => row.identifier = identifier).length =
      (intents.map (·.identifier)).count identifier := by
  rw [← h.identifiers, List.count_eq_countP, List.countP_map, List.countP_eq_length_filter]
  rfl

/-- An intent is saved exactly when it is acceptable. -/
theorem Holds.saveIntentRow_iff (h : Holds texts tables last intents) :
    (∃ after, execute (saveIntentRow texts zone intent newIntent) tables = (.ok (), after)) ↔
      AcceptsIntent intents intent newIntent := by
  simp only [saveIntentRow, execute_bind_eq_ok, execute_lift, Prod.mk.injEq, readIntent_written,
    AcceptsIntent]
  cases newIntent with
  | true =>
    simp only [if_true, insertIntent_eq_ok]
    have hfresh : (∀ row ∈ tables.intents, row.identifier ≠ intent.identifier) ↔
        ∀ other ∈ intents, other.identifier ≠ intent.identifier := by
      rw [← List.forall_mem_map (P := fun name => name ≠ intent.identifier), h.identifiers,
        List.forall_mem_map]
    constructor
    · rintro ⟨_, _, _, ⟨⟨hvalid, _⟩, rfl⟩, hpending, hnew, _⟩
      exact ⟨hvalid, (h.pending_eq_ok.mp hpending).2, hfresh.mp hnew⟩
    · rintro ⟨hvalid, hempty, hnew⟩
      refine ⟨_, intent, tables, ⟨⟨hvalid, rfl⟩, rfl⟩, h.pending_eq_ok.mpr ⟨?_, hempty⟩,
        hfresh.mpr hnew, rfl⟩
      rw [hempty]
      exact Nat.zero_le 1
  | false =>
    simp only [Bool.false_eq_true, if_false, updateIntent_eq_ok]
    have hone : (intents.map (·.identifier)).count intent.identifier = 1 ↔
        ∃ other ∈ intents, other.identifier = intent.identifier := by
      have hmem : intent.identifier ∈ intents.map (·.identifier) ↔
          ∃ other ∈ intents, other.identifier = intent.identifier := List.mem_map
      have hle := List.nodup_iff_count_le_one.mp h.keyed intent.identifier
      rw [← hmem, ← List.count_pos_iff]
      omega
    constructor
    · rintro ⟨_, _, _, ⟨⟨hvalid, _⟩, rfl⟩, hlength, _⟩
      exact ⟨hvalid, hone.mp (h.rows_length _ ▸ hlength)⟩
    · rintro ⟨hvalid, hfound⟩
      have hlength := (h.rows_length _).trans (hone.mpr hfound)
      exact ⟨_, intent, tables, ⟨⟨hvalid, rfl⟩, rfl⟩, hlength, rfl⟩

/-- Once an intent is saved, the tables hold it. -/
theorem Holds.saveIntentRow (h : Holds texts tables last intents)
    (hsave : execute (saveIntentRow texts zone intent newIntent) tables = (.ok (), after)) :
    Holds texts after last (recorded intents (some intent) newIntent) := by
  simp only [Codec.saveIntentRow, execute_bind_eq_ok, execute_lift, Prod.mk.injEq,
    readIntent_written] at hsave
  obtain ⟨_, _, ⟨⟨hvalid, _⟩, rfl⟩, hsave⟩ := hsave
  cases newIntent with
  | true =>
    simp only [if_true, insertIntent_eq_ok] at hsave
    obtain ⟨_, hfresh, rfl⟩ := hsave
    refine ⟨h.state, List.rel_append h.rows (.cons (readRow_rowOf hvalid) .nil), ?_⟩
    have hnew : intent.identifier ∉ intents.map (·.identifier) := by
      rw [← h.identifiers]
      intro hmem
      obtain ⟨row, hrow, hsame⟩ := List.mem_map.mp hmem
      exact hfresh row hrow hsame
    simpa [recorded, List.nodup_append, h.keyed] using hnew
  | false =>
    simp only [Bool.false_eq_true, if_false, updateIntent_eq_ok] at hsave
    obtain ⟨_, rfl⟩ := hsave
    refine ⟨h.state, ?_, ?_⟩
    · simp only [recorded, Bool.false_eq_true, if_false, List.forall₂_map_left_iff,
        List.forall₂_map_right_iff]
      refine h.rows.imp fun row other hrow => ?_
      rw [(readRow_eq_ok hrow).1]
      split
      · exact readRow_rowOf hvalid
      · exact hrow
    · have hkept : (recorded intents (some intent) false).map (·.identifier) =
          intents.map (·.identifier) := by
        rw [recorded, if_neg Bool.false_ne_true, List.map_map]
        refine List.map_congr_left fun other _ => ?_
        simp only [Function.comp_apply]
        split
        · next hsame => exact hsame.symm
        · rfl
      rw [hkept]
      exact h.keyed

variable {saved : Option LiveIntent}

/-- What the transaction writes. -/
theorem saveRows_eq_ok {payload : Json} :
    execute (saveRows texts zone payload saved newIntent) tables = (.ok (), after) ↔
      (saved = none ∧ { tables with payload := some payload } = after) ∨
        ∃ intent middle, saved = some intent ∧
          execute (saveIntentRow texts zone intent newIntent) tables = (.ok (), middle) ∧
          { middle with payload := some payload } = after := by
  simp only [saveRows, execute_bind_eq_ok, execute_modify, Prod.mk.injEq, true_and]
  cases saved with
  | none =>
    constructor
    · rintro ⟨_, _, hnone, rfl⟩
      obtain ⟨-, rfl⟩ := Prod.mk.inj hnone
      exact .inl ⟨rfl, rfl⟩
    · rintro (⟨_, rfl⟩ | ⟨_, _, ⟨⟩, _⟩)
      exact ⟨⟨⟩, tables, rfl, rfl⟩
  | some intent =>
    constructor
    · rintro ⟨_, middle, hrow, rfl⟩
      exact .inr ⟨intent, middle, rfl, hrow, rfl⟩
    · rintro (⟨⟨⟩, _⟩ | ⟨_, middle, ⟨⟩, hrow, rfl⟩)
      exact ⟨⟨⟩, middle, hrow, rfl⟩

/-- A save checks its state by reading it back, and then writes. -/
theorem save_eq_ok :
    execute (save texts zone state saved newIntent) tables = (.ok (), after) ↔
      ∃ payload, stateMapping zone state = .ok payload ∧ validateState state.facts = .ok () ∧
        execute (saveRows texts zone payload saved newIntent) tables = (.ok (), after) := by
  simp only [save, execute_bind_eq_ok, execute_lift, Prod.mk.injEq, execute_transaction_eq_ok]
  constructor
  · rintro ⟨payload, _, ⟨hpayload, rfl⟩, read, _, ⟨hread, rfl⟩, hrows⟩
    exact ⟨payload, hpayload, ((readState_written hpayload).mp hread).1, hrows⟩
  · rintro ⟨payload, hpayload, hvalid, hrows⟩
    have hread : readState texts payload = .ok state :=
      (readState_written hpayload).mpr ⟨hvalid, rfl⟩
    exact ⟨payload, tables, ⟨hpayload, rfl⟩, state, tables, ⟨hread, rfl⟩, hrows⟩

/-- A save that raises leaves the tables as they were. -/
theorem save_atomic : Atomic (save texts zone state saved newIntent) :=
  atomic_lift_bind fun _ => atomic_lift_bind fun _ => atomic_transaction _

/-- A save is accepted exactly when its state and its intent are. -/
theorem Holds.save_iff (h : Holds texts tables last intents) :
    (∃ after, execute (save texts zone state saved newIntent) tables = (.ok (), after)) ↔
      Accepts intents state saved newIntent := by
  simp only [save_eq_ok, saveRows_eq_ok, Accepts]
  constructor
  · rintro ⟨after, payload, _, hvalid, hrows⟩
    refine ⟨hvalid, fun intent hintent => ?_⟩
    rw [Option.mem_def] at hintent
    rcases hrows with ⟨hnone, _⟩ | ⟨_, middle, hsome, hrow, _⟩
    · rw [hnone] at hintent
      cases hintent
    · rw [hsome] at hintent
      cases hintent
      exact h.saveIntentRow_iff.mp ⟨middle, hrow⟩
  · rintro ⟨hvalid, hintent⟩
    obtain ⟨value, hvalue⟩ := writeHealth_of_valid hvalid
    have hpayload : stateMapping zone state = .ok _ := Except.bind_eq_ok.mpr ⟨value, hvalue, rfl⟩
    cases saved with
    | none => exact ⟨_, _, hpayload, hvalid, .inl ⟨rfl, rfl⟩⟩
    | some intent =>
      obtain ⟨middle, hrow⟩ := h.saveIntentRow_iff.mpr (hintent intent rfl)
      exact ⟨_, _, hpayload, hvalid, .inr ⟨intent, middle, rfl, hrow, rfl⟩⟩

/-- After a save, the tables hold what was saved. -/
theorem Holds.save (h : Holds texts tables last intents)
    (hsave : execute (Codec.save texts zone state saved newIntent) tables = (.ok (), after)) :
    Holds texts after (some state) (recorded intents saved newIntent) := by
  obtain ⟨payload, hpayload, hvalid, hrows⟩ := save_eq_ok.mp hsave
  have hstate : ∀ {middle : Tables} {intents}, Holds texts middle last intents →
      Holds texts { middle with payload := some payload } (some state) intents := by
    intro middle intents hmiddle
    refine ⟨?_, hmiddle.rows, hmiddle.keyed⟩
    simp only [Tables.state, Except.mapError_eq_ok, Except.map_eq_ok]
    exact ⟨state, (readState_written hpayload).mpr ⟨hvalid, rfl⟩, rfl⟩
  rcases saveRows_eq_ok.mp hrows with ⟨rfl, rfl⟩ | ⟨intent, middle, rfl, hrow, rfl⟩
  · exact hstate h
  · exact hstate (h.saveIntentRow hrow)

variable {created : String → Zone}

/-- After any run of saves, the tables hold what was saved. -/
theorem Saved.holds (h : Saved texts tables last intents created) :
    Holds texts tables last intents := by
  induction h with
  | opened => exact ⟨rfl, .nil, List.nodup_nil⟩
  | accepted _ hsave ih => exact ih.save hsave
  | refused _ hsave ih =>
    rw [save_atomic _ _ _ hsave]
    exact ih

/-- A save that is accepted is what the journal gives back, up to the equality of the saved
values; one that raises changes nothing that the journal gives back. -/
def RoundTrips (texts : Texts) (zone : Zones) (tables : Tables) (intents : List LiveIntent)
    (created : String → Zone) (state : StoredState) (saved : Option LiveIntent)
    (newIntent : Bool) : Prop :=
  match execute (save texts zone state saved newIntent) tables with
  | (.ok _, after) =>
    (∃ read, after.state texts = .ok (some read) ∧ stateEq zone state read) ∧
      ∃ pending, after.pending texts = .ok pending ∧
        List.Forall₂ (fun intent => intentEq (createdZones created zone saved intent.identifier)
          intent) (unresolved (recorded intents saved newIntent)) pending
  | (.error _, after) =>
    after.state texts = tables.state texts ∧ after.pending texts = tables.pending texts

/-- The saved intents are equal to the read ones when they are the same and their datetimes have
fixed offsets. -/
theorem forall₂_intentEq_iff {saved read : List LiveIntent} :
    List.Forall₂ (fun intent => intentEq (created intent.identifier) intent) saved read ↔
      saved = read ∧ ∀ intent ∈ saved, (created intent.identifier).foldDependent = false := by
  induction saved generalizing read with
  | nil => cases read <;> simp
  | cons intent saved ih =>
    cases read with
    | nil => simp
    | cons other read =>
      simp only [List.forall₂_cons, intentEq_iff, ih, List.cons.injEq, List.forall_mem_cons]
      exact and_and_and_comm

/-- After any run of saves, a save makes its round trip exactly when it is not acceptable, or it
leaves at most one intent that has not ended, and no offset of a datetime of its state or of
such an intent depends on the fold of the datetime. -/
theorem save_roundTrips_iff (texts : Texts) (zone : Zones) (state : StoredState)
    (saved : Option LiveIntent) (newIntent : Bool) (h : Saved texts tables last intents created) :
    RoundTrips texts zone tables intents created state saved newIntent ↔
      (Accepts intents state saved newIntent →
        (unresolved (recorded intents saved newIntent)).length ≤ 1 ∧
        FixedAt zone (statePlaces state) ∧
        ∀ intent ∈ unresolved (recorded intents saved newIntent),
          (createdZones created zone saved intent.identifier).foldDependent = false) := by
  have hholds := h.holds
  rw [← hholds.save_iff, RoundTrips]
  rcases hsave : execute (save texts zone state saved newIntent) tables with ⟨e | _, after⟩
  · rw [save_atomic _ _ _ hsave]
    refine iff_of_true ⟨rfl, rfl⟩ ?_
    rintro ⟨_, hok⟩
    cases hok
  · have hafter := hholds.save hsave
    rw [imp_iff_right ⟨after, rfl⟩]
    dsimp only
    simp only [hafter.state, hafter.pending_eq_ok, stateEq_iff, forall₂_intentEq_iff]
    constructor
    · rintro ⟨⟨_, _, _, hstate⟩, _, ⟨hone, _⟩, _, hpending⟩
      exact ⟨hone, hstate, hpending⟩
    · rintro ⟨hone, hstate, hpending⟩
      exact ⟨⟨state, rfl, rfl, hstate⟩, _, ⟨hone, rfl⟩, rfl, hpending⟩

/-- A run of saves goes on with any save that is acceptable. -/
theorem Saved.next (h : Saved texts tables last intents created) (zone : Zones)
    (haccepts : Accepts intents state saved newIntent) :
    ∃ after, Saved texts after (some state) (recorded intents saved newIntent)
      (createdZones created zone saved) := by
  have hholds := h.holds
  obtain ⟨after, hsave⟩ : ∃ after,
      execute (save texts zone state saved newIntent) tables = (.ok (), after) :=
    hholds.save_iff.mpr haccepts
  exact ⟨after, h.accepted hsave⟩

end Saving

/-! ## The journal of the service -/

/-- A decision of the strategy engine, as the journal writes it. -/
def StoredDecision.ofDecision (decision : Strategy.Decision) : StoredDecision :=
  match decision.action with
  | .hold => ⟨"hold", none, 0, decision.nextStop, decision.risk⟩
  | .buy reason quantity => ⟨"buy", some reason, quantity, decision.nextStop, decision.risk⟩
  | .sell reason quantity => ⟨"sell", some reason, quantity, decision.nextStop, decision.risk⟩

/-- A state of the service, as the journal writes it. -/
def StoredState.ofState (state : LiveState) : StoredState where
  cash := state.cash
  position := state.position
  risk := state.risk
  health := state.health
  closedTrades := state.closedTrades
  completedAt := state.completedAt
  decision := state.decision.map .ofDecision
  candleFingerprint := state.candleFingerprint

/-- Different decisions are stored differently. -/
theorem StoredDecision.ofDecision_injective : Function.Injective ofDecision := by
  rintro ⟨action, stop, risk⟩ ⟨action', stop', risk'⟩ h
  cases action <;> cases action' <;> simp_all [ofDecision]

/-- The journal tells the states of the service apart. -/
theorem StoredState.ofState_injective : Function.Injective ofState := by
  rintro ⟨⟩ ⟨⟩ h
  simp only [ofState, StoredState.mk.injEq] at h
  obtain ⟨rfl, rfl, rfl, rfl, rfl, rfl, hdecision, rfl⟩ := h
  rw [Option.map_injective StoredDecision.ofDecision_injective hdecision]

/-- The tables hold the journal of the service, after a run of saves. -/
def Represents (texts : Texts) (tables : Tables) (journal : Journal) : Prop :=
  ∃ created, Saved texts tables (journal.state.map .ofState) journal.intents created

section Refinement

variable {texts : Texts} {tables : Tables} {journal journal' : Journal} {state : LiveState}
  {intent : LiveIntent}

/-- No check of the journal reads the decision. -/
theorem ofState_valid (h : validateState state = .ok ()) :
    validateState (StoredState.ofState state).facts = .ok () := h

/-- A save without an intent writes what the journal of the service takes. -/
theorem write_refines (h : Represents texts tables journal)
    (hwrite : journal.write state = .ok journal') : ∃ after, Represents texts after journal' := by
  obtain ⟨hvalid, rfl⟩ := Journal.write_eq_ok hwrite
  obtain ⟨created, hsaved⟩ := h
  have haccepts : Accepts journal.intents (.ofState state) none false :=
    ⟨ofState_valid hvalid, fun saved hsaved => absurd hsaved (by simp)⟩
  obtain ⟨after, hafter⟩ := hsaved.next (fun _ _ => {}) haccepts
  exact ⟨after, _, hafter⟩

/-- So does a save of a new intent. -/
theorem insert_refines (h : Represents texts tables journal)
    (hinsert : journal.insert state intent = .ok journal') :
    ∃ after, Represents texts after journal' := by
  obtain ⟨hvalid, hintent, hnone, hfresh, rfl⟩ := Journal.insert_eq_ok hinsert
  obtain ⟨created, hsaved⟩ := h
  have haccepts : AcceptsIntent journal.intents intent true := by
    refine ⟨hintent, ?_⟩
    rw [if_pos rfl]
    exact ⟨hnone, hfresh⟩
  obtain ⟨after, hafter⟩ :=
    hsaved.next (fun _ _ => {}) (accepts_some (ofState_valid hvalid) haccepts)
  exact ⟨after, _, hafter⟩

/-- So does a save of an intent that was saved before. -/
theorem update_refines (h : Represents texts tables journal)
    (hupdate : journal.update state intent = .ok journal') :
    ∃ after, Represents texts after journal' := by
  obtain ⟨hvalid, hintent, hone, rfl⟩ := Journal.update_eq_ok hupdate
  obtain ⟨created, hsaved⟩ := h
  have hfound : ∃ other ∈ journal.intents, other.identifier = intent.identifier := by
    obtain ⟨other, hother⟩ := List.length_pos_iff_exists_mem.mp (hone ▸ Nat.zero_lt_one)
    obtain ⟨hmem, hsame⟩ := List.mem_filter.mp hother
    exact ⟨other, hmem, of_decide_eq_true hsame⟩
  have haccepts : AcceptsIntent journal.intents intent false := by
    refine ⟨hintent, ?_⟩
    rw [if_neg Bool.false_ne_true]
    exact hfound
  obtain ⟨after, hafter⟩ :=
    hsaved.next (fun _ _ => {}) (accepts_some (ofState_valid hvalid) haccepts)
  exact ⟨after, _, hafter⟩

/-- So does every step of the journal. -/
theorem step_refines {reports : List VenueOrder} {clock : ℤ} (h : Represents texts tables journal)
    (hstep : JournalStep reports clock journal journal') :
    ∃ after, Represents texts after journal' := by
  have hwritten : ∀ {state : LiveState}, validateState state = .ok () →
      journal.write state = .ok { journal with state := some state } :=
    fun hvalid => Except.bind_eq_ok.mpr ⟨(), hvalid, rfl⟩
  cases hstep with
  | observed _ _ hvalid => exact write_refines h (hwritten hvalid)
  | opened _ _ hvalid => exact write_refines h (hwritten hvalid)
  | settled _ _ _ _ _ hupdate => exact update_refines h hupdate
  | marked _ _ hupdate => exact update_refines h hupdate

/-- The journal that a run of the service leaves is held by the tables of its saves. -/
theorem run_represents (texts : Texts) (env : Environment) (settings : Settings)
    (invocations : List Invocation) :
    ∃ tables, Represents texts tables (run env settings invocations {}).journal := by
  refine run_induction (P := fun world => ∃ tables, Represents texts tables world.journal) env
    settings invocations ?_ ?_ ?_ ?_ ?_ ?_
  · exact ⟨{}, _, .opened⟩
  · exact fun world at_ h => h
  · rintro world next ⟨tables, h⟩ hstep
    rcases hstep.journal with hsame | hjournal
    · exact ⟨tables, hsame ▸ h⟩
    · exact step_refines h hjournal
  · rintro now world next ⟨tables, h⟩ hstep
    exact ⟨tables, hstep.journal ▸ h⟩
  · rintro bar now world next ⟨tables, h⟩ hstep
    obtain ⟨_, _, _, _, _, _, _, _, _, _, _, _, hvalid, _, hjournal⟩ := hstep.stored
    exact write_refines h (Except.bind_eq_ok.mpr ⟨(), hvalid, hjournal.symm ▸ rfl⟩)
  · rintro world next ⟨tables, h⟩ hstep
    obtain ⟨_, _, _, _, _, _, _, _, _, _, hinsert, _⟩ := hstep.inserted
    exact insert_refines h hinsert

/-- The journal of the service can be opened again after any run: its tables give back the
state it holds and the intent that is pending. -/
theorem run_reopens (texts : Texts) (env : Environment) (settings : Settings)
    (invocations : List Invocation) : ∃ tables,
      Represents texts tables (run env settings invocations {}).journal ∧
      (∀ state, tables.state texts = .ok (some (.ofState state)) ↔
        (run env settings invocations {}).journal.state = some state) ∧
      tables.pending texts = .ok (run env settings invocations {}).journal.unresolved := by
  obtain ⟨tables, h⟩ := run_represents texts env settings invocations
  obtain ⟨created, hsaved⟩ := id h
  refine ⟨tables, h, fun state => ?_, ?_⟩
  · rw [hsaved.holds.state, Except.ok.injEq]
    exact (Option.map_injective StoredState.ofState_injective).eq_iff' rfl
  · have hsingle := (run_covered env settings invocations).single
    exact hsaved.holds.pending_eq_ok.mpr ⟨hsingle, rfl⟩

end Refinement

/-- A state of a new journal. -/
def openedState : StoredState where
  cash := 1000
  position := none
  risk := { initialEquity := 1000, equityPeak := 1000, dailyBaselineEquity := 1000
            lastEquity := 1000 }
  health := {}

/-- An intent to buy. -/
def openedIntent (identifier : String) : LiveIntent where
  identifier
  side := .bid
  amount := 300
  referencePrice := 100
  entryAtr := 10
  initialAtrMult := 2
  createdAt := 0

/-- No other text is a decimal or a date. -/
def noTexts : Texts := ⟨fun _ => none, fun _ => none, fun _ => none⟩

/-- The state of a new journal is valid. -/
theorem openedState_valid : validateState openedState.facts = .ok () := by decide +kernel

/-- The first intent of a new journal makes its round trip. -/
theorem save_roundTrips_first :
    RoundTrips noTexts (fun _ _ => { offset := 32400 }) {} [] (fun _ => {}) openedState
      (some (openedIntent "first")) true := by
  have hone : (unresolved (recorded [] (some (openedIntent "first")) true)).length ≤ 1 := by
    decide +kernel
  refine (save_roundTrips_iff noTexts _ openedState _ true .opened).mpr fun _ => ⟨hone, ?_, ?_⟩
  · exact fun _ _ => rfl
  · intro intent hintent
    obtain rfl : intent = openedIntent "first" := by
      simpa [recorded, unresolved, openedIntent] using hintent
    rfl

/-- An update may open an intent that had ended while another is pending: it is accepted, and the
pending intents cannot be read. -/
theorem not_roundTrips_of_reopened : ∃ tables last intents created,
    Saved noTexts tables last intents created ∧
      ¬RoundTrips noTexts (fun _ _ => {}) tables intents created openedState
        (some (openedIntent "first")) false := by
  have hfirst : AcceptsIntent [] (openedIntent "first") true :=
    ⟨by decide +kernel, by decide +kernel⟩
  obtain ⟨_, h⟩ := Saved.opened.next (fun _ _ => {}) (accepts_some openedState_valid hfirst)
  have hended : AcceptsIntent (recorded [] (some (openedIntent "first")) true)
      { openedIntent "first" with terminal := true } false :=
    ⟨by decide +kernel, _, List.mem_singleton.mpr rfl, rfl⟩
  obtain ⟨_, h⟩ := h.next (fun _ _ => {}) (accepts_some openedState_valid hended)
  have hsecond : AcceptsIntent (recorded (recorded [] (some (openedIntent "first")) true)
      (some { openedIntent "first" with terminal := true }) false) (openedIntent "second") true :=
    ⟨by decide +kernel, by decide +kernel⟩
  obtain ⟨tables, h⟩ := h.next (fun _ _ => {}) (accepts_some openedState_valid hsecond)
  have hreopened : recorded (recorded (recorded [] (some (openedIntent "first")) true)
      (some { openedIntent "first" with terminal := true }) false)
      (some (openedIntent "second")) true =
      [{ openedIntent "first" with terminal := true }, openedIntent "second"] := by
    decide +kernel
  rw [hreopened] at h
  have hagain : AcceptsIntent [{ openedIntent "first" with terminal := true },
      openedIntent "second"] (openedIntent "first") false := ⟨by decide +kernel, by decide +kernel⟩
  refine ⟨tables, _, _, _, h, ?_⟩
  intro hround
  obtain ⟨after, hsave⟩ := h.holds.save_iff.mpr (accepts_some openedState_valid hagain)
  rw [RoundTrips, hsave] at hround
  obtain ⟨_, pending, hpending, _⟩ := hround
  have hone := ((h.holds.save hsave).pending_eq_ok.mp hpending).1
  exact absurd hone (by decide +kernel)

/-- A state whose last candle was completed in a repeated hour is accepted, and is read back
unequal. -/
theorem not_roundTrips_of_fold :
    ¬RoundTrips noTexts (fun _ _ => { offset := 7200, foldDependent := true }) {} [] (fun _ => {})
      { openedState with completedAt := some 0 } none false := by
  have hvalid : validateState ({ openedState with completedAt := some 0 } : StoredState).facts =
      .ok () := openedState_valid
  have hopened : Saved noTexts {} none [] fun _ => {} := .opened
  intro hround
  obtain ⟨after, hsave⟩ := hopened.holds.save_iff.mpr
    ⟨hvalid, fun _ hnone => absurd hnone (Option.not_mem_none _)⟩
  rw [RoundTrips, hsave] at hround
  obtain ⟨⟨read, _, hequal⟩, _⟩ := hround
  have hplace := (stateEq_iff.mp hequal).2 ("completed_at", 0) (by decide)
  exact Bool.noConfusion hplace

end AutoBit.Live.Codec
