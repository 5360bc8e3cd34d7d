import AutoBit.Data.Canonical

/-!
# Canonicalization does not look ahead

The beginning of a raw frame, up to a bar that was observed, is made into the beginning of
the canonical frame: a gap is only filled or left blank once the bar after it is known, and
the flags of a bar depend on no later one.
-/

namespace AutoBit.Data

open Library Risk

/-- The raw rows up to and including an instant. -/
def RawFrame.upTo {Cell : Type} (raw : RawFrame Cell) (t : ℤ) : RawFrame Cell where
  columns := raw.columns
  rows := raw.rows.filter fun row => row.1.time?.all (· ≤ t)
  duplicates := raw.duplicates
  conflictingDuplicates := raw.conflictingDuplicates
  aligned := fun row hrow => raw.aligned row (List.mem_of_mem_filter hrow)

section Gaps

variable {time : ℤ} {row : ObservedRow}

/-- A run of inserted rows ends at the observed one. -/
theorem gap_append (rest later : List (ℤ × Option ObservedRow)) :
    (rest ++ (time, some row) :: later).takeWhile inserted = rest.takeWhile inserted ∧
      (rest ++ (time, some row) :: later).dropWhile inserted =
        rest.dropWhile inserted ++ (time, some row) :: later := by
  induction rest with
  | nil => simp [inserted]
  | cons cell rest ih =>
    cases hcell : inserted cell
    · simp [hcell]
    · simpa [hcell] using ih

/-- What the walk over the gaps makes of the rows up to an observed one does not depend on
what comes later. -/
theorem fillSingleGaps_beginning (cells later : List (ℤ × Option ObservedRow))
    (priorClose : Option Reading) (segmentId : ℕ) :
    (fillSingleGaps (cells ++ [(time, some row)]) priorClose segmentId).rows <+:
      (fillSingleGaps (cells ++ (time, some row) :: later) priorClose segmentId).rows := by
  fun_induction fillSingleGaps cells priorClose segmentId with
  | case1 priorClose segmentId => simp [fillSingleGaps]
  | case2 seen before rest priorClose segmentId tail ih => simpa using ih
  | case3 instant rest priorClose segmentId gap close hclose tail ih =>
    have hfills : ∀ others, fillingClose ((instant, none) ::
        (rest ++ (time, some row) :: others).takeWhile inserted).length priorClose = some close := by
      intro others
      rw [(gap_append rest others).1]
      exact hclose
    rw [List.cons_append, List.cons_append, fillSingleGaps_filled (hfills []),
      fillSingleGaps_filled (hfills later)]
    exact List.prefix_cons_inj _ |>.mpr ih
  | case4 instant rest priorClose segmentId gap hclose tail ih =>
    have hblank : ∀ others, fillingClose ((instant, none) ::
        (rest ++ (time, some row) :: others).takeWhile inserted).length priorClose = none := by
      intro others
      rw [(gap_append rest others).1]
      exact hclose
    rw [List.cons_append, List.cons_append, fillSingleGaps_blank (hblank []),
      fillSingleGaps_blank (hblank later), (gap_append rest []).1, (gap_append rest []).2,
      (gap_append rest later).1, (gap_append rest later).2]
    exact (List.prefix_append_right_inj _).mpr ih

end Gaps

/-- The flags of the bars so far do not depend on later ones. -/
theorem setEntryDataValid_causal : Causal setEntryDataValid :=
  Causal.id.zipWith _ recentContamination_causal

section Completed

variable {Cell : Type} {pd : Pandas Cell} {raw : RawFrame Cell} {t now now' : ℤ}
  {complete beginning : List ObservedRow}

/-- An observed row has the instant of its original. -/
theorem observe_time {columns : List String} {original : Stamp × List Cell} {row : ObservedRow}
    (h : observe pd columns original = some row) : original.1 = .time row.time := by
  obtain ⟨time, bar, hstamp, _, rfl⟩ := observe_eq_some.mp h
  exact hstamp

/-- The completed rows of the beginning are those of the whole that are not later. -/
theorem completed_upTo (hwhole : Completed pd raw now complete)
    (hbeginning : Completed pd (raw.upTo t) now' beginning) (hnow : t + frequency ≤ now)
    (hnow' : t + frequency ≤ now') :
    beginning = complete.filter fun row => row.time ≤ t := by
  refine eq_of_increasing hbeginning.increasing (hwhole.increasing.filter _) ?_
  intro row
  rw [hbeginning.mem_iff, List.mem_filter, hwhole.mem_iff, decide_eq_true_iff]
  constructor
  · rintro ⟨⟨original, horiginal, hseen⟩, _⟩
    obtain ⟨hmem, hkept⟩ := List.mem_filter.mp horiginal
    rw [observe_time hseen] at hkept
    have hle : row.time ≤ t := by simpa [Stamp.time?] using hkept
    exact ⟨⟨⟨original, hmem, hseen⟩, by omega⟩, hle⟩
  · rintro ⟨⟨⟨original, horiginal, hseen⟩, _⟩, hle⟩
    refine ⟨⟨original, List.mem_filter.mpr ⟨horiginal, ?_⟩, hseen⟩, by omega⟩
    rw [observe_time hseen]
    simpa [Stamp.time?] using hle

/-- The grid of the rows up to an observed one is the beginning of the whole grid. -/
theorem reindexAndFillSingleGaps_beginning
    (haligned : ∀ row ∈ complete, row.time % frequency = 0)
    (hobserved : ∃ row ∈ complete, row.time = t) :
    (reindexAndFillSingleGaps (complete.filter fun row => row.time ≤ t)).rows <+:
      (reindexAndFillSingleGaps complete).rows := by
  obtain ⟨seen, hseen, rfl⟩ := hobserved
  have hseen' : seen ∈ complete.filter fun row => row.time ≤ seen.time :=
    List.mem_filter.mpr ⟨hseen, by simp⟩
  obtain ⟨first, hfirst, last, hlast, hbounds, hgrid⟩ :=
    reindexAndFillSingleGaps_eq (List.ne_nil_of_mem hseen)
  obtain ⟨first', hfirst', last', hlast', hbounds', hgrid'⟩ :=
    reindexAndFillSingleGaps_eq (List.ne_nil_of_mem hseen')
  have hfirstTime : first'.time = first.time := by
    have hle := (hbounds first' (List.mem_filter.mp hfirst').1).1
    have hkept : first ∈ complete.filter fun row => row.time ≤ seen.time :=
      List.mem_filter.mpr ⟨hfirst, decide_eq_true (hbounds seen hseen).1⟩
    exact le_antisymm (hbounds' first hkept).1 hle
  have hlastTime : last'.time = seen.time := by
    have hle : last'.time ≤ seen.time := of_decide_eq_true (List.mem_filter.mp hlast').2
    exact le_antisymm hle (hbounds' seen hseen').2
  have hfirstLe := (hbounds seen hseen).1
  rw [hgrid, hgrid', hfirstTime, hlastTime]
  have hsame : reindex (complete.filter fun row => row.time ≤ seen.time)
      (dateRange first.time seen.time) = reindex complete (dateRange first.time seen.time) := by
    refine List.map_congr_left ?_
    intro instant hinstant
    have hle := mem_dateRange_le hfirstLe hinstant
    rw [List.find?_filter]
    congr 2
    funext row
    by_cases htime : row.time = instant
    · simp [htime, hle]
    · simp [htime]
  have hend : (reindex complete (dateRange first.time seen.time)).getLast? =
      some (seen.time, complete.find? fun row => row.time = seen.time) := by
    rw [reindex, List.getLast?_map,
      dateRange_getLast hfirstLe (haligned first hfirst) (haligned seen hseen), Option.map_some]
  obtain ⟨init, hinit⟩ := List.getLast?_eq_some_iff.mp hend
  obtain ⟨row, hrow⟩ := Option.isSome_iff_exists.mp
    (by simpa [inserted] using not_inserted hseen :
      (complete.find? fun row => decide (row.time = seen.time)).isSome = true)
  obtain ⟨later, hlater⟩ : dateRange first.time seen.time <+: dateRange first.time last.time :=
    dateRange_beginning (hbounds seen hseen).2
  have hwhole : reindex complete (dateRange first.time last.time) =
      init ++ (seen.time, some row) :: reindex complete later := by
    rw [← hlater, reindex, List.map_append]
    change reindex complete (dateRange first.time seen.time) ++ reindex complete later = _
    rw [hinit, hrow, List.append_assoc, List.singleton_append]
  rw [hsame, hinit, hrow, hwhole]
  exact fillSingleGaps_beginning init _ none 0

/-- The canonical frame of the beginning is the beginning of the canonical frame, and ends at
the instant itself. -/
theorem canonical_beginning [DecidableEq Cell] {ratio : Reading} {whole start : QualityResult}
    (hobserved : ∃ row ∈ raw.rows, row.1 = .time t) (hnow : t + frequency ≤ now)
    (hnow' : t + frequency ≤ now')
    (hwhole : canonicalizeOhlcv pd raw (some now) ratio = .ok whole)
    (hstart : canonicalizeOhlcv pd (raw.upTo t) (some now') ratio = .ok start) :
    start.frame <+: whole.frame ∧ (whole.frame.map fun row => row.time).Pairwise (· < ·) ∧
      (∀ row ∈ start.frame, row.time ≤ t) ∧ ∃ row ∈ start.frame, row.time = t := by
  obtain ⟨_, _, complete, ⟨⟩, hcomplete, hframe⟩ := canonicalizeOhlcv_eq_ok hwhole
  obtain ⟨_, _, beginning, ⟨⟩, hbeginning, hframe'⟩ := canonicalizeOhlcv_eq_ok hstart
  obtain rfl := completed_upTo hcomplete hbeginning hnow hnow'
  obtain ⟨seen, hseen, hseenTime⟩ : ∃ row ∈ complete, row.time = t := by
    obtain ⟨original, horiginal, hstamp⟩ := hobserved
    obtain ⟨row, hrow⟩ := hcomplete.readable original horiginal
    have htime : t = row.time := Stamp.time.inj (hstamp.symm.trans (observe_time hrow))
    exact ⟨row, (hcomplete.mem_iff row).mpr ⟨⟨original, horiginal, hrow⟩, by omega⟩, htime.symm⟩
  have hseen' : seen ∈ complete.filter fun row => row.time ≤ t :=
    List.mem_filter.mpr ⟨hseen, by simp [hseenTime]⟩
  obtain ⟨first, _, last, _, _, hgrid⟩ := reindexAndFillSingleGaps_eq (List.ne_nil_of_mem hseen)
  obtain ⟨first', hfirst', last', hlast', hbounds', hgrid'⟩ :=
    reindexAndFillSingleGaps_eq (List.ne_nil_of_mem hseen')
  have htimes := canonicalFrame_times ratio hgrid
  have htimes' := canonicalFrame_times ratio hgrid'
  rw [← hframe] at htimes
  rw [← hframe'] at htimes'
  have hlastTime : last'.time = t := by
    have hle : last'.time ≤ t := of_decide_eq_true (List.mem_filter.mp hlast').2
    have hge := (hbounds' seen hseen').2
    omega
  have hfirstLe := (hbounds' last' hlast').1
  refine ⟨?_, ?_, ?_, ?_⟩
  · rw [hframe, hframe']
    exact setEntryDataValid_causal.beginning
      ((reindexAndFillSingleGaps_beginning hcomplete.aligned ⟨seen, hseen, hseenTime⟩).map _)
  · rw [htimes]
    exact dateRange_pairwise _ _
  · intro row hrow
    have hmem := List.mem_map_of_mem (f := fun row : QualityRow => row.time) hrow
    rw [htimes'] at hmem
    exact (mem_dateRange_le hfirstLe hmem).trans hlastTime.le
  · have hmem := List.mem_of_getLast? (dateRange_getLast hfirstLe
      (hbeginning.aligned first' hfirst') (hbeginning.aligned last' hlast'))
    rw [← htimes', hlastTime] at hmem
    exact List.mem_map.mp hmem

end Completed

end AutoBit.Data
