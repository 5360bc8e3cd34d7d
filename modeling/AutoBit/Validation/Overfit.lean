import AutoBit.Library.Combinations
import AutoBit.Library.Loop
import Mathlib.Data.List.Flatten
import Mathlib.Data.List.SplitLengths
import Mathlib.Tactic.Linarith
import Mathlib.Tactic.Ring

/-!
# Combinatorially purged cross-validation splits

The observations are cut into contiguous groups. Every combination of test groups gives
one split, whose training set leaves out the test observations and an embargo on both
sides of each chosen group.
-/

namespace AutoBit.Validation

open Library

/-- What `cpcv_splits` raises: a `ValueError` or an `IndexError`. -/
inductive SplitError where
  | value (message : String)
  | index
  deriving DecidableEq, Repr

/-- One pair of index arrays. -/
structure Split where
  train : List ℕ
  test : List ℕ
  deriving DecidableEq, Repr

/-- `_require_positive_integer` of a Python integer. The integers of NumPy, which wrap around in
64 bits, are no values of `ℤ`. -/
def requirePositiveInteger (value : ℤ) (name : String) : Except SplitError Unit :=
  reject (value < 1) (.value (name ++ " must be a positive integer"))

/-- The section sizes of `np.array_split`: the first sections take the remainder. -/
def sectionSizes (total sections : ℕ) : List ℕ :=
  List.replicate (total % sections) (total / sections + 1) ++
    List.replicate (sections - total % sections) (total / sections)

/-- `np.array_split(np.arange(total), sections)`. -/
def arraySplit (total sections : ℕ) : List (List ℕ) :=
  (sectionSizes total sections).splitLengths (List.range total)

/-- `mask[positions] = False`. -/
def maskAt (positions : List ℕ) (mask : List Bool) : List Bool :=
  mask.mapIdx fun i keep => keep && !decide (i ∈ positions)

/-- `mask[start:stop] = False`. -/
def maskSlice (start stop : ℕ) (mask : List Bool) : List Bool :=
  mask.mapIdx fun i keep => keep && !(start ≤ i && i < stop)

/-- `np.flatnonzero(mask)`. -/
def flatnonzero (mask : List Bool) : List ℕ :=
  (List.range mask.length).filter fun i => mask[i]? = some true

/-- One round of the loop over the chosen groups. The subtraction stops at zero, as
`max(0, start - embargo)` does. -/
def purgeGroup (nObservations embargo : ℕ) (trainMask : List Bool) (group : List ℕ) :
    Except SplitError (List Bool) := do
  let start ← require group.head? .index
  let last ← require group.getLast? .index
  let stop := last + 1
  return maskSlice stop (min nObservations (stop + embargo))
    (maskSlice (start - embargo) start trainMask)

/-- The split of one combination of test groups. -/
def splitOf (nObservations embargo : ℕ) (groups : List (List ℕ)) (testGroupIds : List ℕ) :
    Except SplitError Split := do
  let chosen ← testGroupIds.mapM fun groupId => require groups[groupId]? .index
  let test := chosen.flatten
  let trainMask ← chosen.foldlM (purgeGroup nObservations embargo)
    (maskAt test (List.replicate nObservations true))
  let train := flatnonzero trainMask
  reject (train = []) (.value "embargo leaves an empty training set")
  return ⟨train, test⟩

/-- `cpcv_splits`. -/
def cpcvSplits (nObservations nGroups nTestGroups embargo : ℤ) :
    Except SplitError (List Split) := do
  requirePositiveInteger nObservations "n_observations"
  requirePositiveInteger nGroups "n_groups"
  requirePositiveInteger nTestGroups "n_test_groups"
  requirePositiveInteger embargo "embargo"
  reject (nGroups < 2) (.value "n_groups must be at least 2")
  reject (nGroups > nObservations) (.value "n_groups cannot exceed n_observations")
  reject (nTestGroups ≥ nGroups) (.value "n_test_groups must be smaller than n_groups")
  reject (embargo ≥ nObservations) (.value "embargo must be smaller than n_observations")
  let groups := arraySplit nObservations.toNat nGroups.toNat
  (combinations nTestGroups.toNat (List.range nGroups.toNat)).mapM
    (splitOf nObservations.toNat embargo.toNat groups)

/-! ### Groups -/

/-- Contiguous groups of nearly equal size that cover the first `total` observations. -/
structure IsPartition (total sections : ℕ) (groups : List (List ℕ)) : Prop where
  length : groups.length = sections
  flatten : groups.flatten = List.range total
  balanced : ∀ first ∈ groups, ∀ second ∈ groups, first.length ≤ second.length + 1

/-- The sections make up the total. -/
theorem sum_sectionSizes {total sections : ℕ} (hsections : 0 < sections) :
    (sectionSizes total sections).sum = total := by
  have hmod := Nat.mod_lt total hsections
  obtain ⟨rest, hrest⟩ : ∃ rest, sections = total % sections + rest :=
    ⟨sections - total % sections, by omega⟩
  have hsub : sections - total % sections = rest := by omega
  rw [sectionSizes, hsub, List.sum_append, List.sum_replicate_nat, List.sum_replicate_nat]
  calc total % sections * (total / sections + 1) + rest * (total / sections)
      = (total % sections + rest) * (total / sections) + total % sections := by ring
    _ = total := by rw [← hrest, Nat.div_add_mod]

/-- The sizes of the sections differ by at most one. -/
theorem mem_sectionSizes {total sections size : ℕ} (h : size ∈ sectionSizes total sections) :
    size = total / sections ∨ size = total / sections + 1 := by
  rcases List.mem_append.mp h with h | h
  · exact .inr (List.eq_of_mem_replicate h)
  · exact .inl (List.eq_of_mem_replicate h)

/-- The sections have their sizes. -/
theorem map_length_arraySplit {total sections : ℕ} (hsections : 0 < sections) :
    (arraySplit total sections).map List.length = sectionSizes total sections := by
  apply List.map_splitLengths_length
  rw [sum_sectionSizes hsections, List.length_range]

/-- The sections are a partition. -/
theorem arraySplit_isPartition {total sections : ℕ} (hsections : 0 < sections) :
    IsPartition total sections (arraySplit total sections) where
  length := by
    have hmod := Nat.mod_lt total hsections
    simp only [arraySplit, List.length_splitLengths, sectionSizes, List.length_append,
      List.length_replicate]
    omega
  flatten := by
    apply List.flatten_splitLengths
    rw [sum_sectionSizes hsections, List.length_range]
  balanced := by
    intro first hfirst second hsecond
    have hsize {group : List ℕ} (hgroup : group ∈ arraySplit total sections) :
        group.length = total / sections ∨ group.length = total / sections + 1 := by
      apply mem_sectionSizes
      rw [← map_length_arraySplit hsections]
      exact List.mem_map_of_mem hgroup
    have hfirst := hsize hfirst
    have hsecond := hsize hsecond
    omega

/-- A section of a range is a range. -/
theorem splitLengths_range' {sizes : List ℕ} {start total : ℕ} {group : List ℕ}
    (h : group ∈ sizes.splitLengths (List.range' start total)) :
    ∃ first size, group = List.range' first size := by
  induction sizes generalizing start total with
  | nil => simp at h
  | cons size sizes ih =>
    rw [List.splitLengths_cons, List.mem_cons] at h
    rcases h with rfl | h
    · rcases Nat.le_total total size with hle | hle
      · exact ⟨start, total, List.take_range'_of_length_le hle⟩
      · exact ⟨start, size, List.take_range'_of_length_ge hle⟩
    · rw [List.drop_range'] at h
      exact ih h

/-- A nonempty run of consecutive observations. -/
def IsBlock (group : List ℕ) : Prop := ∃ start size, group = List.range' start (size + 1)

/-- No group is empty when there are at least as many observations as groups. -/
theorem isBlock_of_mem_arraySplit {total sections : ℕ} (hsections : 0 < sections)
    (hle : sections ≤ total) {group : List ℕ} (hgroup : group ∈ arraySplit total sections) :
    IsBlock group := by
  have hlength : group.length ∈ sectionSizes total sections := by
    rw [← map_length_arraySplit hsections]
    exact List.mem_map_of_mem hgroup
  have hpositive := Nat.div_pos hle hsections
  rw [arraySplit, List.range_eq_range'] at hgroup
  obtain ⟨first, size, rfl⟩ := splitLengths_range' hgroup
  rw [List.length_range'] at hlength
  have hsize := mem_sectionSizes hlength
  exact ⟨first, size - 1, by rw [Nat.sub_add_cancel (by omega)]⟩

/-! ### The training mask -/

/-- The mask keeps exactly the observations with a property. -/
def Keeps (mask : List Bool) (total : ℕ) (P : ℕ → Prop) : Prop :=
  mask.length = total ∧ ∀ i < total, mask[i]? = some true ↔ P i

/-- A whole mask keeps everything. -/
theorem keeps_replicate (total : ℕ) : Keeps (List.replicate total true) total fun _ => True := by
  refine ⟨List.length_replicate, fun i hi => ?_⟩
  simp [hi]

/-- A mask that drops positions keeps the others. -/
theorem Keeps.maskAt {mask : List Bool} {total : ℕ} {P : ℕ → Prop} (h : Keeps mask total P)
    (positions : List ℕ) :
    Keeps (maskAt positions mask) total fun i => P i ∧ i ∉ positions := by
  refine ⟨by simpa [Validation.maskAt] using h.1, fun i hi => ?_⟩
  simp only [← h.2 i hi]
  cases hmask : mask[i]? <;> simp [Validation.maskAt, hmask]

/-- A mask that drops a slice keeps what is outside of it. -/
theorem Keeps.maskSlice {mask : List Bool} {total : ℕ} {P : ℕ → Prop} (h : Keeps mask total P)
    (start stop : ℕ) :
    Keeps (maskSlice start stop mask) total fun i => P i ∧ ¬(start ≤ i ∧ i < stop) := by
  refine ⟨by simpa [Validation.maskSlice] using h.1, fun i hi => ?_⟩
  simp only [← h.2 i hi]
  cases hmask : mask[i]? <;> simp [Validation.maskSlice, hmask, or_iff_not_imp_left]

/-- A mask keeps what is the same below its length. -/
theorem Keeps.congr {mask : List Bool} {total : ℕ} {P Q : ℕ → Prop} (h : Keeps mask total P)
    (hPQ : ∀ i < total, P i ↔ Q i) : Keeps mask total Q :=
  ⟨h.1, fun i hi => (h.2 i hi).trans (hPQ i hi)⟩

/-- The positions of a mask are those that it keeps. -/
theorem Keeps.flatnonzero {mask : List Bool} {total : ℕ} {P : ℕ → Prop} [DecidablePred P]
    (h : Keeps mask total P) :
    flatnonzero mask = (List.range total).filter fun i => decide (P i) := by
  rw [Validation.flatnonzero, h.1]
  apply List.filter_congr
  intro i hi
  exact decide_eq_decide.mpr (h.2 i (List.mem_range.mp hi))

/-- More than the embargo lies between an observation and every one of a group. -/
def Clear (embargo : ℕ) (group : List ℕ) (i : ℕ) : Prop :=
  ∀ j ∈ group, (embargo : ℤ) < |(i : ℤ) - j|

instance (embargo : ℕ) (group : List ℕ) (i : ℕ) : Decidable (Clear embargo group i) :=
  inferInstanceAs (Decidable (∀ j ∈ group, _))

/-- One round masks the embargo around its group. With the group itself masked, what
is left of the mask is clear of the group. -/
theorem Keeps.purgeGroup {mask mask' : List Bool} {total embargo : ℕ} {P : ℕ → Prop}
    {group : List ℕ} (h : Keeps mask total P) (hblock : IsBlock group)
    (hmasked : ∀ i < total, P i → i ∉ group)
    (hround : purgeGroup total embargo mask group = .ok mask') :
    Keeps mask' total fun i => P i ∧ Clear embargo group i := by
  obtain ⟨start, size, rfl⟩ := hblock
  simp only [Validation.purgeGroup, Except.bind_eq_ok, require_eq_ok, Except.pure_eq_ok] at hround
  obtain ⟨first, hfirst, last, hlast, rfl⟩ := hround
  have hfirst : first = start := by simpa [List.range'_succ] using hfirst.symm
  have hlast : last = start + size := by
    rw [List.getLast?_range'] at hlast
    simpa using hlast.symm
  subst hfirst hlast
  apply ((h.maskSlice _ _).maskSlice _ _).congr
  intro i hi
  have hout := hmasked i hi
  simp only [List.mem_range'_1] at hout
  simp only [Clear, List.mem_range'_1, and_assoc, and_congr_right_iff]
  intro hP
  have hout := hout hP
  constructor
  · rintro ⟨hleft, hright⟩ j hj
    rw [lt_abs]
    omega
  · intro hclear
    have hnear := hclear first (by omega)
    have hfar := hclear (first + size) (by omega)
    rw [lt_abs] at hnear hfar
    omega

/-- The loop over the chosen groups leaves what is clear of all of them. -/
theorem Keeps.purgeGroups {mask mask' : List Bool} {total embargo : ℕ} {P : ℕ → Prop}
    {chosen : List (List ℕ)} (h : Keeps mask total P) (hblocks : ∀ group ∈ chosen, IsBlock group)
    (hmasked : ∀ i < total, P i → i ∉ chosen.flatten)
    (hloop : chosen.foldlM (Validation.purgeGroup total embargo) mask = .ok mask') :
    Keeps mask' total fun i => P i ∧ Clear embargo chosen.flatten i := by
  induction chosen generalizing mask P with
  | nil =>
    cases hloop
    exact h.congr fun i hi => by simp [Clear]
  | cons group chosen ih =>
    rw [List.foldlM_cons, Except.bind_eq_ok] at hloop
    obtain ⟨next, hround, hrest⟩ := hloop
    simp only [List.flatten_cons, List.mem_append, not_or] at hmasked
    have hnext := h.purgeGroup (hblocks group (by simp)) (fun i hi hP => (hmasked i hi hP).1) hround
    have hdone := ih hnext (fun other hother => hblocks other (by simp [hother]))
      (fun i hi hP => (hmasked i hi hP.1).2) hrest
    apply hdone.congr
    intro i hi
    simp only [Clear, List.flatten_cons, List.mem_append, or_imp, forall_and, and_assoc]

/-! ### One split -/

/-- What a split should be for a combination of test groups: the union of the groups in
order, and in order every observation that is far enough from all of them. -/
structure IsPurged (total embargo : ℕ) (groups : List (List ℕ)) (testGroupIds : List ℕ)
    (split : Split) : Prop where
  test_sorted : split.test.Pairwise (· < ·)
  mem_test (i : ℕ) :
    i ∈ split.test ↔ ∃ groupId ∈ testGroupIds, ∃ group, groups[groupId]? = some group ∧ i ∈ group
  train : split.train = (List.range total).filter fun i => Clear embargo split.test i

/-- The chosen groups stand in the order of the groups. -/
theorem chosen_sublist {groups chosen : List (List ℕ)} {ids : List ℕ}
    (hids : ids.Sublist (List.range groups.length))
    (hchosen : List.Forall₂ (fun groupId group => groups[groupId]? = some group) ids chosen) :
    chosen.Sublist groups := by
  have hmap : ids.map (fun groupId => groups[groupId]?.getD []) = chosen := by
    induction hchosen with
    | nil => rfl
    | cons hhead _ ih =>
      rw [List.map_cons, ih ((List.sublist_cons_self _ _).trans hids), hhead, Option.getD_some]
  have hall : (List.range groups.length).map (fun groupId => groups[groupId]?.getD []) = groups := by
    apply List.ext_getElem
    · simp
    · intro i hi hi'
      simp [hi']
  have hmapped := hids.map fun groupId => groups[groupId]?.getD []
  rwa [hmap, hall] at hmapped

/-- A split is purged around its test groups. -/
theorem splitOf_isPurged {total embargo : ℕ} {groups : List (List ℕ)} {ids : List ℕ}
    {split : Split} (hflatten : groups.flatten = List.range total)
    (hblocks : ∀ group ∈ groups, IsBlock group)
    (hids : ids.Sublist (List.range groups.length))
    (h : splitOf total embargo groups ids = .ok split) :
    IsPurged total embargo groups ids split := by
  simp only [splitOf, Except.bind_eq_ok, mapM_eq_ok, require_eq_ok, reject_eq_ok,
    Except.pure_eq_ok] at h
  obtain ⟨chosen, hchosen, mask, hmask, -, -, rfl⟩ := h
  have hsublist := chosen_sublist hids hchosen
  have hkeeps := ((keeps_replicate total).maskAt chosen.flatten).purgeGroups
    (fun group hgroup => hblocks group (hsublist.subset hgroup)) (fun i _ hP => hP.2) hmask
  refine ⟨?_, fun i => ?_, ?_⟩
  · have hsorted := hflatten ▸ List.pairwise_lt_range (n := total)
    exact hsorted.sublist hsublist.flatten
  · rw [List.mem_flatten]
    constructor
    · rintro ⟨group, hgroup, hi⟩
      obtain ⟨groupId, hgroupId, hget⟩ := forall₂_exists_left hchosen hgroup
      exact ⟨groupId, hgroupId, group, hget, hi⟩
    · rintro ⟨groupId, hgroupId, group, hget, hi⟩
      obtain ⟨group', hgroup', hget'⟩ := forall₂_exists_right hchosen hgroupId
      have heq : group = group' := Option.some.inj (hget.symm.trans hget')
      exact ⟨group', hgroup', heq ▸ hi⟩
  · have hclear : Keeps mask total (Clear embargo chosen.flatten) := by
      apply hkeeps.congr
      intro i _
      constructor
      · exact fun hboth => hboth.2
      · intro hclear
        refine ⟨⟨trivial, fun hmem => ?_⟩, hclear⟩
        have hself := hclear i hmem
        simp only [sub_self, abs_zero] at hself
        omega
    exact hclear.flatnonzero

/-! ### All splits -/

/-- Lists that correspond have as many elements with properties that correspond. -/
theorem forall₂_countP {α β : Type} {R : α → β → Prop} {p : α → Bool} {q : β → Bool}
    {xs : List α} {ys : List β} (h : List.Forall₂ R xs ys)
    (hpq : ∀ x y, R x y → p x = q y) : xs.countP p = ys.countP q := by
  induction h with
  | nil => rfl
  | cons hhead _ ih => rw [List.countP_cons, List.countP_cons, ih, hpq _ _ hhead]

/-- Every observation lies in exactly one group. -/
theorem IsPartition.existsUnique_group {total sections : ℕ} {groups : List (List ℕ)}
    (h : IsPartition total sections groups) {i : ℕ} (hi : i < total) :
    ∃ groupId < sections,
      ∀ other group, groups[other]? = some group → (i ∈ group ↔ other = groupId) := by
  have hnodup : groups.flatten.Nodup := h.flatten ▸ List.nodup_range
  have hdisjoint := (List.nodup_flatten.mp hnodup).2
  have hmem : i ∈ groups.flatten := by
    rw [h.flatten]
    exact List.mem_range.mpr hi
  obtain ⟨group, hgroup, hin⟩ := List.mem_flatten.mp hmem
  obtain ⟨groupId, hlt, rfl⟩ := List.getElem_of_mem hgroup
  refine ⟨groupId, h.length ▸ hlt, fun other group hget => ⟨fun hin' => ?_, ?_⟩⟩
  · obtain ⟨hother, rfl⟩ := List.getElem?_eq_some_iff.mp hget
    rw [List.pairwise_iff_getElem] at hdisjoint
    rcases Nat.lt_trichotomy other groupId with hless | heq | hless
    · exact absurd hin (hdisjoint other groupId hother hlt hless hin')
    · exact heq
    · exact absurd hin' (hdisjoint groupId other hlt hother hless hin)
  · rintro rfl
    rw [List.getElem?_eq_getElem hlt, Option.some.injEq] at hget
    exact hget ▸ hin

/-- The group of an observation is chosen exactly when the observation is tested. -/
theorem IsPurged.mem_test_iff {total embargo groupId i : ℕ} {groups : List (List ℕ)}
    {ids : List ℕ} {split : Split} (h : IsPurged total embargo groups ids split)
    (hids : ∀ id ∈ ids, id < groups.length)
    (hgroup : ∀ other group, groups[other]? = some group → (i ∈ group ↔ other = groupId)) :
    i ∈ split.test ↔ groupId ∈ ids := by
  rw [h.mem_test]
  constructor
  · rintro ⟨id, hid, group, hget, hi⟩
    exact (hgroup id group hget).mp hi ▸ hid
  · intro hid
    have hget := List.getElem?_eq_getElem (hids groupId hid)
    exact ⟨groupId, hid, _, hget, (hgroup groupId _ hget).mpr rfl⟩

/-- Accepted parameters give one purged split for every combination of test groups, in
lexicographic order, over a partition into contiguous groups, and every observation is
tested equally often. -/
theorem cpcvSplits_exact {nObservations nGroups nTestGroups embargo : ℤ} {splits : List Split}
    (h : cpcvSplits nObservations nGroups nTestGroups embargo = .ok splits) :
    ∃ groups testGroups : List (List ℕ),
      IsPartition nObservations.toNat nGroups.toNat groups ∧
      testGroups.Pairwise (· < ·) ∧
      (∀ ids, ids ∈ testGroups ↔
        ids.Pairwise (· < ·) ∧ ids.length = nTestGroups.toNat ∧ ∀ id ∈ ids, id < nGroups.toNat) ∧
      List.Forall₂ (IsPurged nObservations.toNat embargo.toNat groups) testGroups splits ∧
      ∀ i < nObservations.toNat, splits.countP (fun split => decide (i ∈ split.test)) =
        (nGroups.toNat - 1).choose (nTestGroups.toNat - 1) := by
  simp only [cpcvSplits, requirePositiveInteger, Except.bind_eq_ok, reject_eq_ok, mapM_eq_ok] at h
  obtain ⟨-, -, -, hgroups, -, htest, -, -, -, -, -, hobservations, -, -, -, -, hsplits⟩ := h
  obtain ⟨k, hk⟩ : ∃ k, nTestGroups.toNat = k + 1 := ⟨nTestGroups.toNat - 1, by omega⟩
  have hpositive : 0 < nGroups.toNat := by omega
  have hle : nGroups.toNat ≤ nObservations.toNat := by omega
  have hpartition := @arraySplit_isPartition nObservations.toNat _ hpositive
  have hblocks (group) := @isBlock_of_mem_arraySplit _ _ hpositive hle group
  generalize arraySplit nObservations.toNat nGroups.toNat = groups at *
  have hmem (ids : List ℕ) : ids ∈ combinations nTestGroups.toNat (List.range nGroups.toNat) ↔
      ids.Pairwise (· < ·) ∧ ids.length = nTestGroups.toNat ∧ ∀ id ∈ ids, id < nGroups.toNat := by
    rw [mem_combinations_of_pairwise List.pairwise_lt_range]
    simp only [List.mem_range]
  have hpurged : List.Forall₂ (fun ids split => (∀ id ∈ ids, id < groups.length) ∧
      IsPurged nObservations.toNat embargo.toNat groups ids split)
      (combinations nTestGroups.toNat (List.range nGroups.toNat)) splits := by
    apply forall₂_imp_mem hsplits
    intro ids hids split _ hsplit
    rw [hpartition.length]
    have hsublist := (mem_combinations.mp hids).1
    rw [← hpartition.length] at hsublist
    exact ⟨((hmem ids).mp hids).2.2,
      splitOf_isPurged hpartition.flatten hblocks hsublist hsplit⟩
  refine ⟨groups, _, hpartition, combinations_pairwise_lt List.pairwise_lt_range, hmem,
    hpurged.imp fun _ _ hboth => hboth.2, ?_⟩
  intro i hi
  obtain ⟨groupId, hlt, hgroup⟩ := hpartition.existsUnique_group hi
  have htested : (combinations nTestGroups.toNat (List.range nGroups.toNat)).countP
      (fun ids => decide (groupId ∈ ids)) =
        splits.countP (fun split => decide (i ∈ split.test)) := by
    apply forall₂_countP hpurged
    intro ids split hboth
    exact decide_eq_decide.mpr (hboth.2.mem_test_iff hboth.1 hgroup).symm
  rw [← htested, hk, countP_mem_combinations List.nodup_range (List.mem_range.mpr hlt),
    List.length_range, Nat.add_sub_cancel]

/-- Twelve observations in four groups: each is tested in three of the splits. -/
theorem cpcvSplits_exact_twelve :
    ∃ splits, cpcvSplits 12 4 2 1 = .ok splits ∧
      ∀ i < 12, splits.countP (fun split => decide (i ∈ split.test)) = 3 := by
  obtain ⟨splits, hsplits⟩ : ∃ splits, cpcvSplits 12 4 2 1 = .ok splits :=
    Except.isOk_iff.mp (by decide +kernel)
  obtain ⟨groups, testGroups, -, -, -, -, hcount⟩ := cpcvSplits_exact hsplits
  exact ⟨splits, hsplits, hcount⟩

end AutoBit.Validation
