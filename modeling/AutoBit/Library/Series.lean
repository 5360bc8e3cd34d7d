import Mathlib.Algebra.GroupWithZero.Nat
import Mathlib.Data.List.Infix
import Mathlib.Data.List.TakeWhile

/-!
# Series that do not look ahead

A causal transformation of a series gives one value for each value, and later values do
not change it. Whatever is computed from the values so far is causal, and so is what is
computed within groups by a causal transformation.
-/

namespace AutoBit.Library

universe u v w

variable {α : Type u} {β : Type v} {γ : Type w}

/-- A transformation of series that does not look ahead. -/
structure Causal (f : List α → List β) : Prop where
  length : ∀ xs, (f xs).length = xs.length
  stable : ∀ xs ys, f xs <+: f (xs ++ ys)

/-- A map of each element is causal. -/
theorem Causal.map (g : α → β) : Causal (List.map g) := by
  refine ⟨fun xs => List.length_map g, ?_⟩
  intro xs ys
  rw [List.map_append]
  exact List.prefix_append _ _

/-- A map of each element that depends on its position is causal. -/
theorem Causal.mapIdx (g : ℕ → α → β) : Causal (List.mapIdx g) := by
  refine ⟨fun xs => List.length_mapIdx, ?_⟩
  intro xs ys
  rw [List.mapIdx_append]
  exact List.prefix_append _ _

/-- A composition of causal transformations is causal. -/
theorem Causal.comp {g : List β → List γ} {f : List α → List β} (hg : Causal g) (hf : Causal f) :
    Causal fun xs => g (f xs) := by
  refine ⟨fun xs => (hg.length _).trans (hf.length xs), ?_⟩
  intro xs ys
  obtain ⟨zs, hzs⟩ := hf.stable xs ys
  rw [← hzs]
  exact hg.stable _ _

/-- Functions applied to arguments, position by position. -/
def zipApply (fs : List (α → β)) (xs : List α) : List β := List.zipWith (fun f x => f x) fs xs

/-- Two lists that start alike are the same where both are defined. -/
theorem getElem?_of_beginning {xs ys : List α} (h : xs <+: ys) {i : ℕ} (hi : i < xs.length) :
    ys[i]? = xs[i]? := by
  obtain ⟨zs, rfl⟩ := h
  exact List.getElem?_append_left hi

/-- Two causal transformations that are combined element by element are causal. -/
theorem Causal.zipWith {δ : Type*} (h : β → γ → δ) {f : List α → List β} {g : List α → List γ}
    (hf : Causal f) (hg : Causal g) : Causal fun xs => List.zipWith h (f xs) (g xs) := by
  refine ⟨fun xs => by simp [hf.length, hg.length], ?_⟩
  intro xs ys
  obtain ⟨us, hus⟩ := hf.stable xs ys
  obtain ⟨vs, hvs⟩ := hg.stable xs ys
  rw [← hus, ← hvs, List.zipWith_append (by rw [hf.length, hg.length])]
  exact List.prefix_append _ _

/-- Causal functions that are applied to causal arguments are causal. -/
theorem Causal.zipApply {f : List α → List (β → γ)} {g : List α → List β} (hf : Causal f)
    (hg : Causal g) : Causal fun xs => zipApply (f xs) (g xs) :=
  Causal.zipWith (fun (f : β → γ) (x : β) => f x) hf hg

/-- The first indices are the beginning of more of them. -/
theorem range_beginning {m n : ℕ} (h : m ≤ n) : List.range m <+: List.range n := by
  obtain ⟨extra, rfl⟩ := Nat.exists_eq_add_of_le h
  rw [List.range_add]
  exact List.prefix_append _ _

/-- What each value so far amounts to. -/
def expanding (aggregate : List α → β) (xs : List α) : List β :=
  (List.range xs.length).map fun i => aggregate (xs.take (i + 1))

/-- An expanding window is causal. -/
theorem expanding_causal (aggregate : List α → β) : Causal (expanding aggregate) := by
  refine ⟨fun xs => by simp [expanding], ?_⟩
  intro xs ys
  have hsame : (List.range xs.length).map (fun i => aggregate ((xs ++ ys).take (i + 1))) =
      expanding aggregate xs := by
    refine List.map_congr_left ?_
    intro i hi
    have hlt := List.mem_range.mp hi
    rw [List.take_append_of_le_length (by omega)]
  rw [← hsame, expanding, List.length_append, List.range_add, List.map_append]
  exact List.prefix_append _ _

/-- The last values, at most a number of them. -/
def lastValues (window : ℕ) (xs : List α) : List α := xs.drop (xs.length - window)

/-- What the last values amount to, at each value. -/
def rolling (window : ℕ) (aggregate : List α → β) (xs : List α) : List β :=
  expanding (fun past => aggregate (lastValues window past)) xs

/-- A rolling window is causal. -/
theorem rolling_causal (window : ℕ) (aggregate : List α → β) : Causal (rolling window aggregate) :=
  expanding_causal fun past => aggregate (lastValues window past)

/-- The value before each value. -/
def shift (fill : α) (xs : List α) : List α :=
  expanding (fun past => past.dropLast.getLast?.getD fill) xs

/-- A shift to later is causal. -/
theorem shift_causal (fill : α) : Causal (shift fill) :=
  expanding_causal fun past => past.dropLast.getLast?.getD fill

/-- The running total. -/
def cumulative (xs : List ℕ) : List ℕ := expanding List.sum xs

/-- A cumulative transformation is causal. -/
theorem cumulative_causal : Causal cumulative := expanding_causal _

/-- The identity is causal. -/
theorem Causal.id : Causal fun xs : List α => xs :=
  ⟨fun _ => rfl, fun xs ys => List.prefix_append xs ys⟩

/-- A causal transformation takes beginnings to beginnings. -/
theorem Causal.beginning {f : List α → List β} (hf : Causal f) {xs ys : List α} (h : xs <+: ys) :
    f xs <+: f ys := by
  obtain ⟨zs, rfl⟩ := h
  exact hf.stable xs zs

/-- A beginning of an increasing series is what does not come after its last element. -/
theorem filter_of_beginning {xs ys : List α} {time : α → ℤ} {t : ℤ} (h : xs <+: ys)
    (hincreasing : (ys.map time).Pairwise (· < ·)) (hle : ∀ x ∈ xs, time x ≤ t)
    (hlast : ∃ x ∈ xs, time x = t) : ys.filter (fun y => time y ≤ t) = xs := by
  obtain ⟨zs, rfl⟩ := h
  obtain ⟨last, hmem, rfl⟩ := hlast
  have hlater : ∀ z ∈ zs, ¬time z ≤ time last := by
    intro z hz
    rw [List.map_append, List.pairwise_append] at hincreasing
    have hlt := hincreasing.2.2 _ (List.mem_map_of_mem hmem) _ (List.mem_map_of_mem hz)
    omega
  have hbefore : xs.filter (fun y => decide (time y ≤ time last)) = xs :=
    List.filter_eq_self.mpr fun x hx => decide_eq_true (hle x hx)
  have hafter : zs.filter (fun y => decide (time y ≤ time last)) = [] :=
    List.filter_eq_nil_iff.mpr fun z hz => by simpa using hlater z hz
  rw [List.filter_append, hbefore, hafter, List.append_nil]

section Masks

/-- The elements at the places where a mask is true. -/
def keep (mask : List Bool) (xs : List α) : List α := ((mask.zip xs).filter Prod.fst).map Prod.snd

/-- An empty mask keeps nothing. -/
@[simp] theorem keep_nil (xs : List α) : keep [] xs = [] := rfl

/-- Of an empty list nothing is kept. -/
@[simp] theorem keep_nil_right (mask : List Bool) : keep mask ([] : List α) = [] := by
  simp [keep]

/-- The first element is kept when it is chosen. -/
@[simp] theorem keep_cons (chosen : Bool) (mask : List Bool) (x : α) (xs : List α) :
    keep (chosen :: mask) (x :: xs) = if chosen then x :: keep mask xs else keep mask xs := by
  cases chosen <;> simp [keep]

/-- A mask leaves as much of every list of one length. -/
theorem length_keep (mask : List Bool) {xs : List α} {ys : List β} (h : xs.length = ys.length) :
    (keep mask xs).length = (keep mask ys).length := by
  induction mask generalizing xs ys with
  | nil => rfl
  | cons chosen mask ih =>
    match xs, ys, h with
    | [], [], _ => simp
    | x :: xs, y :: ys, h =>
      have htail := @ih xs ys (by simpa using h)
      cases chosen <;> simp [htail]

/-- A condition that never becomes true again leaves the beginning of a list. -/
theorem keep_beginning {p : α → Bool} {xs : List α}
    (hp : xs.Pairwise fun a b => p b = true → p a = true) {ys : List β}
    (hlength : ys.length = xs.length) : keep (xs.map p) ys = ys.take (xs.countP p) := by
  induction xs generalizing ys with
  | nil => simp
  | cons x xs ih =>
    match ys, hlength with
    | y :: ys, hlength =>
      obtain ⟨hx, hxs⟩ := List.pairwise_cons.mp hp
      have htail := @ih hxs ys (by simpa using hlength)
      rw [List.map_cons, keep_cons, htail]
      cases hpx : p x with
      | true => simp [hpx]
      | false =>
        have hnone : xs.countP p = 0 := by
          rw [List.countP_eq_zero]
          intro b hb hpb
          simp [hx b hb hpb] at hpx
        simp [hpx, hnone]

end Masks

section Groups

variable {κ : Type*} [DecidableEq κ] (key : α → κ) (f : List α → List β)

/-- The value that a position gets when its group is transformed as a whole. -/
def groupValue (xs : List α) (i : ℕ) : Option β :=
  xs[i]?.bind fun x =>
    (f (xs.filter fun y => key y = key x))[((xs.take i).filter fun y => key y = key x).length]?

/-- The values of a series whose groups are transformed one by one. -/
def transformGroups (xs : List α) : List β :=
  (List.range xs.length).filterMap (groupValue key f xs)

/-- Groups of images are images of groups. -/
theorem transformGroups_map {δ : Type*} (g : δ → α) (xs : List δ) :
    transformGroups key f (xs.map g) =
      transformGroups (fun x => key (g x)) (fun group => f (group.map g)) xs := by
  unfold transformGroups
  rw [List.length_map]
  refine List.filterMap_congr ?_
  intro i _
  unfold groupValue
  rw [List.getElem?_map]
  cases xs[i]? with
  | none => rfl
  | some x => simp only [Option.map_some, Option.bind_some, List.filter_map, ← List.map_take,
      List.length_map, Function.comp_def]

variable {key f} (hf : Causal f)
include hf

/-- The rank of a position in its group is a position of the transformed group. -/
theorem rank_lt {xs : List α} {i : ℕ} {x : α} (hx : xs[i]? = some x) :
    ((xs.take i).filter fun y => key y = key x).length <
      (f (xs.filter fun y => key y = key x)).length := by
  obtain ⟨hi, hget⟩ := List.getElem?_eq_some_iff.mp hx
  have hsplit : xs = xs.take i ++ x :: xs.drop (i + 1) := by
    rw [← hget, ← List.drop_eq_getElem_cons hi, List.take_append_drop]
  rw [hf.length]
  conv_rhs => rw [hsplit, List.filter_append, List.filter_cons_of_pos (by simp)]
  rw [List.length_append, List.length_cons]
  omega

/-- The value at a position does not depend on what follows the series. -/
theorem groupValue_append {xs ys : List α} {i : ℕ} (hi : i < xs.length) :
    groupValue key f (xs ++ ys) i = groupValue key f xs i := by
  obtain ⟨x, hx⟩ : ∃ x, xs[i]? = some x := ⟨_, List.getElem?_eq_getElem hi⟩
  have hsame : (xs ++ ys)[i]? = some x := by rw [List.getElem?_append_left hi, hx]
  simp only [groupValue, hx, hsame, Option.bind_some, List.filter_append,
    List.take_append_of_le_length hi.le]
  exact getElem?_of_beginning (hf.stable _ _) (rank_lt hf hx)

/-- Every position of a series has a value of its group. -/
theorem groupValue_isSome {xs : List α} {i : ℕ} (hi : i < xs.length) :
    (groupValue key f xs i).isSome = true := by
  obtain ⟨x, hx⟩ : ∃ x, xs[i]? = some x := ⟨_, List.getElem?_eq_getElem hi⟩
  simp only [groupValue, hx, Option.bind_some, List.getElem?_eq_getElem (rank_lt hf hx),
    Option.isSome_some]

/-- What is computed within groups does not look ahead either. -/
theorem transformGroups_causal : Causal (transformGroups key f) := by
  constructor
  · intro xs
    have hall : ∀ i ∈ List.range xs.length, (groupValue key f xs i).isSome = true := by
      intro i hi
      exact groupValue_isSome hf (List.mem_range.mp hi)
    rw [transformGroups, List.filterMap_length_eq_length.mpr hall, List.length_range]
  · intro xs ys
    have hsame : (List.range xs.length).filterMap (groupValue key f (xs ++ ys)) =
        transformGroups key f xs := by
      refine List.filterMap_congr ?_
      intro i hi
      exact groupValue_append hf (List.mem_range.mp hi)
    rw [← hsame, transformGroups, List.length_append, List.range_add, List.filterMap_append]
    exact List.prefix_append _ _

end Groups

end AutoBit.Library
