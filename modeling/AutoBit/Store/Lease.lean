import AutoBit.Basic
import AutoBit.Library.Except
import Mathlib.Logic.Equiv.Basic

/-!
# The cycle lease and its fencing epochs

One row of the metadata table holds the lease of the paper cycle; the epoch counter is
kept apart, in the user version of the database. A fenced row carries the epoch and the
digest of its holder's token, a legacy row only the token. The digest is a parameter.
-/

namespace AutoBit.Store

open Library

/-- `str.isspace` for one character. -/
def isSpace (c : Char) : Bool :=
  c.toNat ∈ [0x20, 0x85, 0xA0, 0x1680, 0x2028, 0x2029, 0x202F, 0x205F, 0x3000] ||
    (9 ≤ c.toNat && c.toNat ≤ 13) || (0x1C ≤ c.toNat && c.toNat ≤ 0x1F) ||
    (0x2000 ≤ c.toNat && c.toNat ≤ 0x200A)

/-- `_nonempty_text`: a text that is not empty and that `strip` leaves alone. -/
def isNonemptyText (text : String) : Bool :=
  text.toList ≠ [] ∧ text.toList.head?.all (!isSpace ·) ∧ text.toList.getLast?.all (!isSpace ·)

/-- `_MAX_CYCLE_LEASE_EPOCH`. -/
def maxCycleLeaseEpoch : ℕ := 2147483647

/-- The token of a lease row, as `_cycle_lease_token_epoch` reads it. -/
inductive StoredToken where
  | legacy (token : String)
  | fenced (epoch : ℕ) (digest : String)
  deriving DecidableEq, Repr

/-- The epoch in a stored token, which a legacy token lacks. -/
def StoredToken.epoch : StoredToken → Option ℕ
  | .legacy _ => none
  | .fenced epoch _ => some epoch

/-- The value of the lease row. -/
structure LeaseRow where
  owner : String
  token : StoredToken
  expiresAtUtc : ℤ
  deriving DecidableEq, Repr

/-- The part of the store that the lease operations touch: the lease row, if there is
one, and the counter. -/
structure LeaseStore where
  row : Option LeaseRow := none
  counter : ℕ := 0
  deriving DecidableEq, Repr

/-- An owner and its token. -/
structure Holder where
  owner : String
  token : String
  deriving DecidableEq, Repr

/-- The lease part of `_replay_and_verify`. -/
def verifyLease (store : LeaseStore) : Except Failure Unit := do
  reject (maxCycleLeaseEpoch < store.counter) (.corruption "paper cycle lease epoch is invalid")
  reject (∃ row ∈ store.row, ∃ epoch ∈ row.token.epoch, epoch = 0 ∨ maxCycleLeaseEpoch < epoch)
    (.corruption "paper cycle lease metadata is invalid")
  reject (∃ row ∈ store.row, ∃ epoch ∈ row.token.epoch, epoch ≠ store.counter)
    (.corruption "paper cycle lease epoch contradicts its counter")

/-- `_next_cycle_lease_epoch`. -/
def nextCycleLeaseEpoch (counter : ℕ) : Except Failure ℕ :=
  if maxCycleLeaseEpoch ≤ counter then .error (.store "paper cycle lease epoch is exhausted")
  else .ok (counter + 1)

/-- The checks that every lease operation makes on its holder. -/
def requireHolder (holder : Holder) : Except Failure Unit := do
  reject (isNonemptyText holder.owner = false) (.value "lease owner must be non-empty")
  reject (isNonemptyText holder.token = false) (.value "lease token must be non-empty")

/-- `_positive_epoch`. -/
def positiveEpoch (epoch : ℤ) : Except Failure Unit :=
  reject (epoch ≤ 0) (.value "lease epoch must be a positive integer")

section

variable (digest : String → String)

/-- `_cycle_lease_storage_token`. -/
def storageToken (token : String) (epoch : ℕ) : StoredToken := .fenced epoch (digest token)

/-- Whether a row is the fenced lease of a holder. -/
def LeaseRow.heldBy (row : LeaseRow) (holder : Holder) : Bool :=
  match row.token with
  | .fenced epoch _ => row.owner = holder.owner ∧ row.token = storageToken digest holder.token epoch
  | .legacy _ => false

/-- Whether a row is the unfenced lease of a holder. -/
def LeaseRow.legacyHeldBy (row : LeaseRow) (holder : Holder) : Bool :=
  row.owner = holder.owner ∧ row.token = .legacy holder.token

/-- `acquire_cycle_lease_epoch`. -/
def acquireCycleLeaseEpoch (store : LeaseStore) (holder : Holder) (now expires : ℤ) :
    Except Failure (Option ℕ × LeaseStore) := do
  requireHolder holder
  reject (expires ≤ now) (.value "lease expiry must be strictly after now")
  verifyLease store
  if ∃ row ∈ store.row, !row.heldBy digest holder ∧ !row.legacyHeldBy holder ∧
      now < row.expiresAtUtc then
    return (none, store)
  let epoch ←
    if store.row.any (·.heldBy digest holder) then pure store.counter
    else nextCycleLeaseEpoch store.counter
  let acquired : LeaseStore :=
    { row := some ⟨holder.owner, storageToken digest holder.token epoch, expires⟩
      counter := epoch }
  verifyLease acquired
  return (some epoch, acquired)

/-- Whether a row is the lease of a holder at exactly the given epoch. -/
def LeaseRow.heldAt (row : LeaseRow) (holder : Holder) (epoch : ℤ) : Bool :=
  row.owner = holder.owner ∧ row.token.epoch.map (↑·) = some epoch ∧
    row.token = storageToken digest holder.token epoch.toNat

/-- `renew_cycle_lease`. -/
def renewCycleLease (store : LeaseStore) (holder : Holder) (epoch now expires : ℤ) :
    Except Failure (Bool × LeaseStore) := do
  requireHolder holder
  positiveEpoch epoch
  reject (expires ≤ now) (.value "lease expiry must be strictly after now")
  verifyLease store
  match store.row with
  | none => return (false, store)
  | some row =>
    if row.heldAt digest holder epoch then
      let renewed : LeaseStore := { store with row := some { row with expiresAtUtc := expires } }
      verifyLease renewed
      return (true, renewed)
    else return (false, store)

/-- `release_cycle_lease`. -/
def releaseCycleLease (store : LeaseStore) (holder : Holder) (epoch : Option ℤ) :
    Except Failure (Bool × LeaseStore) := do
  requireHolder holder
  epoch.forM positiveEpoch
  verifyLease store
  match store.row with
  | none => return (false, store)
  | some row =>
    if (row.heldBy digest holder ∨ row.legacyHeldBy holder) ∧
        (epoch = none ∨ row.token.epoch.map (↑·) = epoch) then
      let released : LeaseStore := { store with row := none }
      verifyLease released
      return (true, released)
    else return (false, store)

/-- `cycle_lease_transaction`: the checks on entry. The enclosed mutations, which cannot
reach the lease, run afterwards. -/
def cycleLeaseTransaction (store : LeaseStore) (holder : Holder) (epoch now : ℤ) :
    Except Failure Unit := do
  requireHolder holder
  positiveEpoch epoch
  verifyLease store
  match store.row with
  | none => .error (.leaseLost "paper cycle lease is no longer held")
  | some row =>
    reject (row.heldAt digest holder epoch = false ∨ row.expiresAtUtc ≤ now)
      (.leaseLost "paper cycle lease ownership or epoch was lost")

/-- One call of a lease operation, with the arguments of its caller. For a transaction,
`returns` is whether the enclosed mutations end without an exception. -/
inductive LeaseCall where
  | acquire (holder : Holder) (now expires : ℤ)
  | renew (holder : Holder) (epoch now expires : ℤ)
  | release (holder : Holder) (epoch : Option ℤ)
  | transaction (holder : Holder) (epoch now : ℤ) (returns : Bool)
  deriving DecidableEq, Repr

/-- What a call comes to: the epoch it was given, its success, or no effect at all. -/
inductive LeaseOutcome where
  | issued (epoch : ℕ)
  | succeeded
  | failed
  deriving DecidableEq, Repr

/-- One atomic call. A call that raises is rolled back. -/
def perform (store : LeaseStore) : LeaseCall → LeaseOutcome × LeaseStore
  | .acquire holder now expires =>
    match acquireCycleLeaseEpoch digest store holder now expires with
    | .ok (some epoch, store') => (.issued epoch, store')
    | _ => (.failed, store)
  | .renew holder epoch now expires =>
    match renewCycleLease digest store holder epoch now expires with
    | .ok (true, store') => (.succeeded, store')
    | _ => (.failed, store)
  | .release holder epoch =>
    match releaseCycleLease digest store holder epoch with
    | .ok (true, store') => (.succeeded, store')
    | _ => (.failed, store)
  | .transaction holder epoch now returns =>
    match cycleLeaseTransaction digest store holder epoch now with
    | .ok _ => (if returns then .succeeded else .failed, store)
    | .error _ => (.failed, store)

/-- The store after an interleaving of calls. -/
def performAll (store : LeaseStore) (calls : List LeaseCall) : LeaseStore :=
  calls.foldl (fun store call => (perform digest store call).2) store

/-- The calls of an interleaving, each with its outcome. -/
def leaseTrace (store : LeaseStore) : List LeaseCall → List (LeaseCall × LeaseOutcome)
  | [] => []
  | call :: calls =>
    (call, (perform digest store call).1) :: leaseTrace (perform digest store call).2 calls

end

/-- The holder and epoch of a call that acquired the lease. -/
def issue : LeaseCall × LeaseOutcome → Option (Holder × ℕ)
  | (.acquire holder _ _, .issued epoch) => some (holder, epoch)
  | _ => none

/-- The epoch under which a call other than an acquisition succeeded. -/
def fencedEpoch : LeaseCall × LeaseOutcome → Option ℤ
  | (.renew _ epoch _ _, .succeeded) => some epoch
  | (.release _ epoch, .succeeded) => epoch
  | (.transaction _ epoch _ _, .succeeded) => some epoch
  | _ => none

/-- The epoch of a fenced transaction that committed. -/
def committedEpoch : LeaseCall × LeaseOutcome → Option ℤ
  | (.transaction _ epoch _ _, .succeeded) => some epoch
  | _ => none

end AutoBit.Store
