import AutoBit.Store.Lease
import Mathlib.Data.Nat.Cast.Order.Basic
import Mathlib.Data.Int.Cast.Lemmas
import Mathlib.Order.Basic

/-!
# Fencing of the cycle lease

A successful call verifies the store before and after it, so a fenced row always carries
the value of the counter, and the counter never decreases. From this follow the fencing
laws, whatever the clocks of the callers say.
-/

namespace AutoBit.Store

open Library

variable {digest : String → String}

/-- A fenced row carries the value of the counter. -/
def Fenced (store : LeaseStore) : Prop :=
  ∀ row ∈ store.row, ∀ epoch ∈ row.token.epoch, epoch = store.counter

/-- A lease that verifies is fenced. -/
theorem fenced_of_verifyLease {store : LeaseStore} {u : Unit} (h : verifyLease store = .ok u) :
    Fenced store := by
  simp only [verifyLease, Except.bind_eq_ok, reject_eq_ok] at h
  obtain ⟨_, _, _, _, hcounter⟩ := h
  intro row hrow epoch hepoch
  by_contra hne
  exact hcounter ⟨row, hrow, epoch, hepoch, hne⟩

/-- A row held by a holder is fenced, under its owner and the digest of its token. -/
theorem LeaseRow.heldBy_iff {row : LeaseRow} {holder : Holder} :
    row.heldBy digest holder = true ↔ row.owner = holder.owner ∧
      ∃ epoch, row.token = storageToken digest holder.token epoch := by
  unfold LeaseRow.heldBy storageToken
  cases row.token with
  | legacy token => simp
  | fenced epoch stored => simp

/-- Digests that are injective identify the holder of a row. -/
theorem LeaseRow.heldBy_unique (hdigest : Function.Injective digest) {row : LeaseRow}
    {first second : Holder} (hfirst : row.heldBy digest first = true)
    (hsecond : row.heldBy digest second = true) : first = second := by
  obtain ⟨howner, epoch, htoken⟩ := heldBy_iff.mp hfirst
  obtain ⟨howner', epoch', htoken'⟩ := heldBy_iff.mp hsecond
  rw [htoken, storageToken, storageToken, StoredToken.fenced.injEq] at htoken'
  have htokens : first.token = second.token := hdigest htoken'.2
  have howners : first.owner = second.owner := howner.symm.trans howner'
  cases first
  cases second
  simp_all

/-- A row held at an epoch carries that epoch. -/
theorem LeaseRow.epoch_of_heldAt {row : LeaseRow} {holder : Holder} {epoch : ℤ}
    (h : row.heldAt digest holder epoch = true) : ∃ n ∈ row.token.epoch, (n : ℤ) = epoch := by
  simp only [LeaseRow.heldAt, Bool.decide_and, Bool.and_eq_true, decide_eq_true_eq] at h
  simpa using h.2.1

/-! ## What one call can do -/

/-- A successful acquisition installs the holder, at the epoch of its own fenced row or
at a fresh one. -/
theorem acquire_cases {store store' : LeaseStore} {holder : Holder} {now expires : ℤ} {epoch : ℕ}
    (h : acquireCycleLeaseEpoch digest store holder now expires = .ok (some epoch, store')) :
    Fenced store ∧
      store' = ⟨some ⟨holder.owner, storageToken digest holder.token epoch, expires⟩, epoch⟩ ∧
      ((∃ row ∈ store.row, row.heldBy digest holder = true) ∧ epoch = store.counter ∨
        epoch = store.counter + 1) := by
  unfold acquireCycleLeaseEpoch at h
  simp only [Except.bind_eq_ok] at h
  obtain ⟨_, -, _, -, _, hverified, h⟩ := h
  refine ⟨fenced_of_verifyLease hverified, ?_⟩
  split_ifs at h with hbusy hheld
  · simp at h
  · simp only [Except.bind_eq_ok, Except.pure_eq_ok, Prod.mk.injEq, Option.some.injEq] at h
    obtain ⟨_, rfl, _, -, rfl, rfl⟩ := h
    exact ⟨rfl, Or.inl ⟨by simpa [Option.any_eq_true] using hheld, rfl⟩⟩
  · simp only [Except.bind_eq_ok, Except.pure_eq_ok, Prod.mk.injEq, Option.some.injEq,
      nextCycleLeaseEpoch] at h
    obtain ⟨_, hnext, _, -, rfl, rfl⟩ := h
    split_ifs at hnext
    cases hnext
    exact ⟨rfl, Or.inr rfl⟩

/-- A successful renewal moves the expiry of the row held at the given epoch. -/
theorem renew_cases {store store' : LeaseStore} {holder : Holder} {epoch now expires : ℤ}
    (h : renewCycleLease digest store holder epoch now expires = .ok (true, store')) :
    Fenced store ∧ ∃ row ∈ store.row, row.heldAt digest holder epoch = true ∧
      store' = ⟨some { row with expiresAtUtc := expires }, store.counter⟩ := by
  unfold renewCycleLease at h
  simp only [Except.bind_eq_ok] at h
  obtain ⟨_, -, _, -, _, -, _, hverified, h⟩ := h
  refine ⟨fenced_of_verifyLease hverified, ?_⟩
  cases hrow : store.row with
  | none => simp [hrow] at h
  | some row =>
    simp only [hrow] at h
    split_ifs at h with hheld
    · simp only [Except.bind_eq_ok, Except.pure_eq_ok, Prod.mk.injEq, true_and] at h
      obtain ⟨_, -, rfl⟩ := h
      exact ⟨row, rfl, hheld, rfl⟩
    · simp at h

/-- A successful release deletes the row, which carries the epoch if one is given. -/
theorem release_cases {store store' : LeaseStore} {holder : Holder} {epoch : Option ℤ}
    (h : releaseCycleLease digest store holder epoch = .ok (true, store')) :
    Fenced store ∧ (∃ row ∈ store.row, ∀ given ∈ epoch, ∃ n ∈ row.token.epoch, (n : ℤ) = given) ∧
      store' = ⟨none, store.counter⟩ := by
  unfold releaseCycleLease at h
  simp only [Except.bind_eq_ok] at h
  obtain ⟨_, -, _, -, _, hverified, h⟩ := h
  refine ⟨fenced_of_verifyLease hverified, ?_⟩
  cases hrow : store.row with
  | none => simp [hrow] at h
  | some row =>
    simp only [hrow] at h
    split_ifs at h with hheld
    · simp only [Except.bind_eq_ok, Except.pure_eq_ok, Prod.mk.injEq, true_and] at h
      obtain ⟨_, -, rfl⟩ := h
      refine ⟨⟨row, rfl, fun given hgiven => ?_⟩, rfl⟩
      have hepoch := hheld.2.resolve_left (by simp [Option.mem_def.mp hgiven])
      simpa [Option.mem_def.mp hgiven] using hepoch
    · simp at h

/-- A transaction is admitted only under the epoch of the current row. -/
theorem transaction_cases {store : LeaseStore} {holder : Holder} {epoch now : ℤ} {u : Unit}
    (h : cycleLeaseTransaction digest store holder epoch now = .ok u) :
    Fenced store ∧ ∃ row ∈ store.row, row.heldAt digest holder epoch = true := by
  unfold cycleLeaseTransaction at h
  simp only [Except.bind_eq_ok] at h
  obtain ⟨_, -, _, -, _, hverified, h⟩ := h
  refine ⟨fenced_of_verifyLease hverified, ?_⟩
  cases hrow : store.row with
  | none => simp [hrow] at h
  | some row =>
    simp only [hrow, reject_eq_ok, not_or, Bool.not_eq_false] at h
    exact ⟨row, rfl, h.1⟩

/-- What one call of an interleaving does: it fails and changes nothing, issues an epoch,
or succeeds under the epoch that the counter has. -/
inductive Effect (digest : String → String) (store : LeaseStore) :
    LeaseCall → LeaseOutcome → LeaseStore → Prop
  | failed (call : LeaseCall) : Effect digest store call .failed store
  | issued (holder : Holder) (now expires : ℤ) (epoch : ℕ) (hfenced : Fenced store)
      (hepoch : (∃ row ∈ store.row, row.heldBy digest holder = true) ∧ epoch = store.counter ∨
        epoch = store.counter + 1) :
      Effect digest store (.acquire holder now expires) (.issued epoch)
        ⟨some ⟨holder.owner, storageToken digest holder.token epoch, expires⟩, epoch⟩
  | succeeded (call : LeaseCall) (row : Option LeaseRow) (hfenced : Fenced store)
      (hcall : issue (call, .succeeded) = none)
      (hepoch : ∀ epoch ∈ fencedEpoch (call, .succeeded), epoch = store.counter)
      (hcommitted : ∀ epoch ∈ committedEpoch (call, .succeeded), epoch = store.counter)
      (hrow : ∀ new ∈ row, ∃ old ∈ store.row, new.owner = old.owner ∧ new.token = old.token) :
      Effect digest store call .succeeded ⟨row, store.counter⟩

/-- The epoch of a row held at an epoch is the counter. -/
theorem Fenced.eq_counter {store : LeaseStore} (h : Fenced store) {row : LeaseRow}
    (hrow : row ∈ store.row) {epoch : ℤ} (hepoch : ∃ n ∈ row.token.epoch, (n : ℤ) = epoch) :
    epoch = store.counter := by
  obtain ⟨n, hn, rfl⟩ := hepoch
  rw [h row hrow n hn]

/-- Every call has its effect on the leases. -/
theorem perform_effect (digest : String → String) (store : LeaseStore) (call : LeaseCall) :
    Effect digest store call (perform digest store call).1 (perform digest store call).2 := by
  cases call with
  | acquire holder now expires =>
    simp only [perform]
    split
    · next epoch store' h =>
      obtain ⟨hfenced, rfl, hepoch⟩ := acquire_cases h
      exact .issued holder now expires epoch hfenced hepoch
    · exact .failed _
  | renew holder epoch now expires =>
    simp only [perform]
    split
    · next store' h =>
      obtain ⟨hfenced, row, hrow, hheld, rfl⟩ := renew_cases h
      have hcounter := hfenced.eq_counter hrow (LeaseRow.epoch_of_heldAt hheld)
      refine .succeeded _ _ hfenced rfl ?_ nofun ?_
      · simpa [fencedEpoch] using hcounter
      · simpa using ⟨row, hrow, rfl, rfl⟩
    · exact .failed _
  | release holder epoch =>
    simp only [perform]
    split
    · next store' h =>
      obtain ⟨hfenced, ⟨row, hrow, hgiven⟩, rfl⟩ := release_cases h
      refine .succeeded _ _ hfenced rfl ?_ nofun nofun
      exact fun given hmem => hfenced.eq_counter hrow (hgiven given hmem)
    · exact .failed _
  | transaction holder epoch now returns =>
    simp only [perform]
    split
    · next h =>
      obtain ⟨hfenced, row, hrow, hheld⟩ := transaction_cases h
      have hcounter := hfenced.eq_counter hrow (LeaseRow.epoch_of_heldAt hheld)
      cases returns with
      | true =>
        refine .succeeded _ store.row hfenced rfl ?_ ?_ fun new hnew => ⟨new, hnew, rfl, rfl⟩
        · simpa [fencedEpoch] using hcounter
        · simpa [committedEpoch] using hcounter
      | false => exact .failed _
    · exact .failed _

/-! ## Interleavings -/

/-- The acquisitions of an interleaving, in order. -/
def issues (trace : List (LeaseCall × LeaseOutcome)) : List (Holder × ℕ) := trace.filterMap issue

/-- What the acquisitions so far and the store have in common. -/
structure IssuesAgree (digest : String → String) (store : LeaseStore)
    (issued : List (Holder × ℕ)) : Prop where
  le_counter : ∀ i ∈ issued, i.2 ≤ store.counter
  unique : ∀ i ∈ issued, ∀ j ∈ issued, i.2 = j.2 → i.1 = j.1
  current : ∀ row ∈ store.row, ∀ holder, row.heldBy digest holder = true →
    ∀ i ∈ issued, i.2 = store.counter → i.1 = holder
  last : ∀ i ∈ issued.getLast?, i.2 = store.counter

/-- A row with the owner and token of another is held by the same holders. -/
theorem LeaseRow.heldBy_congr {new old : LeaseRow} (howner : new.owner = old.owner)
    (htoken : new.token = old.token) (holder : Holder) :
    new.heldBy digest holder = old.heldBy digest holder := by
  simp only [LeaseRow.heldBy, howner, htoken]

/-- The row that an acquisition installs is held by its caller. -/
theorem LeaseRow.heldBy_installed (holder : Holder) (epoch : ℕ) (expires : ℤ) :
    LeaseRow.heldBy digest ⟨holder.owner, storageToken digest holder.token epoch, expires⟩ holder =
      true :=
  heldBy_iff.mpr ⟨rfl, epoch, rfl⟩

/-- Every call keeps the agreement, with its own acquisition appended. -/
theorem IssuesAgree.effect (hdigest : Function.Injective digest) {store store' : LeaseStore}
    {issued : List (Holder × ℕ)} {call : LeaseCall} {outcome : LeaseOutcome}
    (h : IssuesAgree digest store issued) (heffect : Effect digest store call outcome store') :
    IssuesAgree digest store' (issued ++ (issue (call, outcome)).toList) := by
  obtain ⟨hle, hunique, hcurrent, hlast⟩ := h
  cases heffect with
  | failed =>
    have hnone : issue (call, .failed) = none := by cases call <;> rfl
    rw [hnone, Option.toList_none, List.append_nil]
    exact ⟨hle, hunique, hcurrent, hlast⟩
  | succeeded _ row hfenced hcall hepoch hcommitted hrow =>
    rw [hcall, Option.toList_none, List.append_nil]
    refine ⟨hle, hunique, fun new hnew holder hheld => ?_, hlast⟩
    obtain ⟨old, hold, howner, htoken⟩ := hrow new hnew
    exact hcurrent old hold holder (LeaseRow.heldBy_congr howner htoken holder ▸ hheld)
  | issued holder now expires epoch hfenced hepoch =>
    have hissue : issue (.acquire holder now expires, .issued epoch) = some (holder, epoch) := rfl
    have hbound : ∀ i ∈ issued, i.2 ≤ epoch := by
      intro i hi
      have := hle i hi
      rcases hepoch with ⟨-, rfl⟩ | rfl <;> omega
    have hsame : ∀ i ∈ issued, i.2 = epoch → i.1 = holder := by
      intro i hi heq
      rcases hepoch with ⟨⟨row, hrow, hheld⟩, rfl⟩ | rfl
      · exact hcurrent row hrow holder hheld i hi heq
      · have := hle i hi
        omega
    have hall : ∀ i ∈ issued ++ [(holder, epoch)], i.2 = epoch → i.1 = holder := by
      intro i hi heq
      rcases List.mem_append.mp hi with hi | hi
      · exact hsame i hi heq
      · rw [List.mem_singleton.mp hi]
    rw [hissue, Option.toList_some]
    refine ⟨fun i hi => ?_, fun i hi j hj heq => ?_, fun row hrow other hheld i hi heq => ?_, ?_⟩
    · rcases List.mem_append.mp hi with hi | hi
      · exact hbound i hi
      · exact (congrArg Prod.snd (List.mem_singleton.mp hi)).le
    · rcases List.mem_append.mp hi with hi' | hi' <;> rcases List.mem_append.mp hj with hj' | hj'
      · exact hunique i hi' j hj' heq
      · obtain rfl := List.mem_singleton.mp hj'
        exact hsame i hi' heq
      · obtain rfl := List.mem_singleton.mp hi'
        exact (hsame j hj' heq.symm).symm
      · rw [List.mem_singleton.mp hi', List.mem_singleton.mp hj']
    · cases hrow
      have := LeaseRow.heldBy_unique hdigest hheld (LeaseRow.heldBy_installed holder epoch expires)
      rw [this]
      exact hall i hi heq
    · simp

/-- The issued leases agree with the tokens after any calls. -/
theorem leaseTrace_issuesAgree (hdigest : Function.Injective digest) {calls : List LeaseCall} :
    ∀ {store : LeaseStore} {issued : List (Holder × ℕ)}, IssuesAgree digest store issued →
      IssuesAgree digest (performAll digest store calls)
        (issued ++ issues (leaseTrace digest store calls)) := by
  induction calls with
  | nil => simp [performAll, leaseTrace, issues]
  | cons call calls ih =>
    intro store issued h
    have hnext := ih (h.effect hdigest (perform_effect digest store call))
    have hsplit : issues (leaseTrace digest store (call :: calls)) =
        (issue (call, (perform digest store call).1)).toList ++
          issues (leaseTrace digest (perform digest store call).2 calls) := by
      unfold issues
      rw [leaseTrace, List.filterMap_cons]
      cases issue (call, (perform digest store call).1) <;> rfl
    rw [hsplit, ← List.append_assoc]
    exact hnext

/-- The counter never decreases, and a transaction commits under its value. -/
theorem Effect.counter_le {store store' : LeaseStore} {call : LeaseCall} {outcome : LeaseOutcome}
    (h : Effect digest store call outcome store') :
    store.counter ≤ store'.counter ∧
      ∀ epoch ∈ committedEpoch (call, outcome), epoch = store.counter := by
  cases h with
  | failed => exact ⟨le_rfl, by cases call <;> nofun⟩
  | succeeded _ row hfenced hcall hepoch hcommitted hrow => exact ⟨le_rfl, hcommitted⟩
  | issued holder now expires epoch hfenced hepoch =>
    refine ⟨?_, nofun⟩
    rcases hepoch with ⟨-, rfl⟩ | rfl
    · exact le_rfl
    · exact Nat.le_succ _

/-- The committed epochs of an interleaving are nondecreasing and not below the counter
that it starts from. -/
theorem committed_nondecreasing (store : LeaseStore) (calls : List LeaseCall) :
    (∀ epoch ∈ (leaseTrace digest store calls).filterMap committedEpoch, store.counter ≤ epoch) ∧
      ((leaseTrace digest store calls).filterMap committedEpoch).Pairwise (· ≤ ·) := by
  induction calls generalizing store with
  | nil => simp [leaseTrace]
  | cons call calls ih =>
    obtain ⟨hle, hsorted⟩ := ih (perform digest store call).2
    obtain ⟨hcounter, hcommitted⟩ := (perform_effect digest store call).counter_le
    have hlater : ∀ epoch ∈ (leaseTrace digest (perform digest store call).2 calls).filterMap
        committedEpoch, (store.counter : ℤ) ≤ epoch := by
      intro epoch hmem
      have := hle epoch hmem
      omega
    rw [leaseTrace]
    cases hepoch : committedEpoch (call, (perform digest store call).1) with
    | none =>
      rw [List.filterMap_cons_none hepoch]
      exact ⟨hlater, hsorted⟩
    | some first =>
      obtain rfl := hcommitted first hepoch
      rw [List.filterMap_cons_some hepoch]
      exact ⟨by simpa using hlater, List.pairwise_cons.mpr ⟨hlater, hsorted⟩⟩

/-- The fencing laws over every interleaving of lease calls, from any store and with any
clock values: an epoch is issued to one holder only; when the lease passes to another
holder, the new epoch is above every epoch issued before; a call under an epoch below an
issued one fails; and the epochs of the committed transactions never decrease. -/
theorem lease_fencing (hdigest : Function.Injective digest) (store : LeaseStore)
    (calls : List LeaseCall) (call : LeaseCall) :
    (∀ i ∈ issues (leaseTrace digest store calls), ∀ j ∈ issues (leaseTrace digest store calls),
      i.2 = j.2 → i.1 = j.1) ∧
    (∀ holder epoch, issue (call, (perform digest (performAll digest store calls) call).1) =
        some (holder, epoch) →
      ∀ last ∈ (issues (leaseTrace digest store calls)).getLast?, last.1 ≠ holder →
        ∀ i ∈ issues (leaseTrace digest store calls), i.2 < epoch) ∧
    (∀ epoch ∈ fencedEpoch (call, (perform digest (performAll digest store calls) call).1),
      ∀ i ∈ issues (leaseTrace digest store calls), i.2 ≤ epoch) ∧
    ((leaseTrace digest store calls).filterMap committedEpoch).Pairwise (· ≤ ·) := by
  have hagree : IssuesAgree digest (performAll digest store calls)
      (issues (leaseTrace digest store calls)) :=
    leaseTrace_issuesAgree hdigest (⟨nofun, nofun, nofun, nofun⟩ : IssuesAgree digest store [])
  obtain ⟨hle, hunique, hcurrent, hlast⟩ := hagree
  refine ⟨hunique, fun holder epoch hissue last hmem hother i hi => ?_, fun epoch hepoch i hi => ?_,
    (committed_nondecreasing store calls).2⟩
  · have heffect := perform_effect digest (performAll digest store calls) call
    have hbound := hle i hi
    revert heffect hissue
    generalize (perform digest (performAll digest store calls) call).1 = outcome
    generalize (perform digest (performAll digest store calls) call).2 = after
    intro hissue heffect
    cases heffect with
    | failed => cases call <;> cases hissue
    | succeeded _ row hfenced hcall => simp [hcall] at hissue
    | issued holder' now expires epoch' hfenced hepoch =>
      cases hissue
      rcases hepoch with ⟨⟨row, hrow, hheld⟩, -⟩ | rfl
      · exact absurd (hcurrent row hrow holder hheld last (List.mem_of_getLast? hmem)
          (hlast last hmem)) hother
      · exact Nat.lt_succ_of_le hbound
  · have heffect := perform_effect digest (performAll digest store calls) call
    have hbound := hle i hi
    revert heffect hepoch
    generalize (perform digest (performAll digest store calls) call).1 = outcome
    generalize (perform digest (performAll digest store calls) call).2 = after
    intro hepoch heffect
    cases heffect with
    | failed => cases call <;> cases hepoch
    | succeeded _ row hfenced hcall hcounter =>
      rw [hcounter epoch hepoch]
      exact_mod_cast hbound
    | issued => cases hepoch

/-- An injective digest with the SHA-256 values of the two tokens below. -/
def sampleDigest : Equiv.Perm String :=
  (Equiv.swap "a" "ca978112ca1bbdcafac231b39a23dc4da786eff8147c4e72b9807785afee48bb").trans
    (Equiv.swap "b" "3e23e8160039594a33894f6564e1b1348bbd7a0088d42c4acb73eeaed59c009d")

/-- When the lease of one process expires and another takes it over, the epoch grows. -/
theorem lease_fencing_takeover :
    issues (leaseTrace sampleDigest {} [.acquire ⟨"paper", "a"⟩ 0 10]) = [(⟨"paper", "a"⟩, 1)] ∧
      ∀ i ∈ issues (leaseTrace sampleDigest {} [.acquire ⟨"paper", "a"⟩ 0 10]), i.2 < 2 :=
  ⟨by decide, (lease_fencing sampleDigest.injective {} [.acquire ⟨"paper", "a"⟩ 0 10]
    (.acquire ⟨"paper", "b"⟩ 10 20)).2.1 ⟨"paper", "b"⟩ 2 (by decide) (⟨"paper", "a"⟩, 1)
    (by decide) (by decide)⟩

end AutoBit.Store
