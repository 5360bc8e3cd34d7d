import Mathlib.Data.List.Induction
import Mathlib.Logic.Function.Basic

/-!
# Hash chains

A chain folds a list into one digest, each item together with the digest before it. When
the hash is injective, the last digest of a list of known length determines the list.
-/

namespace AutoBit.Library

variable {α δ : Type*}

/-- The digest of a list: each item is hashed together with the digest before it. -/
def chainDigest (hash : δ → α → δ) (start : δ) (items : List α) : δ := items.foldl hash start

/-- The digest of no items is the start. -/
@[simp] theorem chainDigest_nil (hash : δ → α → δ) (start : δ) : chainDigest hash start [] = start :=
  rfl

/-- The digest of one more item hashes it with the digest before. -/
@[simp] theorem chainDigest_snoc (hash : δ → α → δ) (start : δ) (items : List α) (item : α) :
    chainDigest hash start (items ++ [item]) = hash (chainDigest hash start items) item := by
  simp [chainDigest]

/-- Lists of one length with the same digest are the same. -/
theorem chainDigest_injective {hash : δ → α → δ} (hinj : Function.Injective2 hash) {start : δ}
    {xs ys : List α} (hlength : xs.length = ys.length)
    (hdigest : chainDigest hash start xs = chainDigest hash start ys) : xs = ys := by
  induction xs using List.reverseRecOn generalizing ys with
  | nil => exact (List.length_eq_zero_iff.mp hlength.symm).symm
  | append_singleton xs x ih =>
    rcases List.eq_nil_or_concat ys with rfl | ⟨ys, y, rfl⟩
    · simp at hlength
    · rw [List.concat_eq_append] at hlength hdigest ⊢
      simp only [chainDigest_snoc] at hdigest
      obtain ⟨hbefore, rfl⟩ := hinj hdigest
      have hbeforeLength : xs.length = ys.length := by simpa using hlength
      rw [ih hbeforeLength hbefore]

end AutoBit.Library
