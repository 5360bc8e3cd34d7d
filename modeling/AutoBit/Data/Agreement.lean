import AutoBit.Data.Canonical
import AutoBit.Data.Surface

/-!
# Canonical frames pass the walk-forward checks

Each row of a canonical frame is an observed one, a blank one of a long gap, or one that was
filled. The walk that makes them and the walk that checks them take the same turns, so the
second accepts what the first leaves.
-/

namespace AutoBit.Data

open Library Risk

/-- An observed row without infinities: quarantined and cleared, or a valid candle. -/
def ObservedRow.Sound (row : ObservedRow) : Prop :=
  row.isQuarantined = true ∧ row.values = .unavailable ∨
    row.isQuarantined = false ∧ isInvalid row.values = false ∧
      ∀ value ∈ row.values.toList, ∃ q, value = .number q

/-- A row of the grid: observed, blank or filled. -/
inductive GridRow.Sound (row : GridRow) : Prop where
  | observed (hfilled : row.isFilled = false) (hsound : row.toObservedRow.Sound)
  | blank (hfilled : row.isFilled = false) (hquarantined : row.isQuarantined = false)
      (hvalues : row.values = .unavailable)
  | filled (hfilled : row.isFilled = true) (hquarantined : row.isQuarantined = false)
      (close : ℚ) (hclose : 0 < close) (hvalues : row.values = .flat (.number close))

/-- A candle that is not invalid: its values, and how they lie. -/
theorem of_valid {bar : Ohlcv Reading} (hvalid : isInvalid bar = false) :
    bar.isAvailable = true ∧ isImpossible bar = false ∧ isNonpositive bar = false ∧
      isNegativeVolume bar = false := by
  simp only [isInvalid, Bool.or_eq_false_iff] at hvalid
  obtain ⟨⟨⟨hmissing, himpossible⟩, hnonpositive⟩, hnegative⟩ := hvalid
  refine ⟨?_, himpossible, hnonpositive, hnegative⟩
  simpa [isMissing, Ohlcv.isAvailable, Ohlcv.toList, Ohlcv.prices, and_assoc] using hmissing

namespace ObservedRow.Sound

variable {row : ObservedRow}

/-- A sound row that is not quarantined has its values. -/
theorem isAvailable (h : row.Sound) (hquarantined : row.isQuarantined = false) :
    row.values.isAvailable = true := by
  rcases h with ⟨hq, _⟩ | ⟨_, hvalid, _⟩
  · simp [hquarantined] at hq
  · exact (of_valid hvalid).1

/-- A sound row that stands in the grid is observed. -/
theorem isObserved (h : row.Sound) (segmentId : ℕ) :
    GridRow.isObserved ⟨row, false, segmentId⟩ = true := by
  cases hq : row.isQuarantined with
  | true => simp [GridRow.isObserved, hq]
  | false => simp [GridRow.isObserved, h.isAvailable hq]

/-- A sound row that stands in the grid is no long gap. -/
theorem not_isLongGap (h : row.Sound) (segmentId : ℕ) :
    GridRow.isLongGap ⟨row, false, segmentId⟩ = false := by
  rcases h with ⟨hq, _⟩ | ⟨_, _, hnumbers⟩
  · simp [GridRow.isLongGap, hq]
  · obtain ⟨close, hnumber⟩ := hnumbers row.values.close (by simp [Ohlcv.toList, Ohlcv.prices])
    simp [GridRow.isLongGap, Ohlcv.isUnavailable, Ohlcv.toList, Ohlcv.prices, hnumber]

/-- The close of a valid candle is a positive price. -/
theorem close_pos (h : row.Sound) (hclose : row.values.close.isNan = false) :
    row.isQuarantined = false ∧ ∃ close, 0 < close ∧ row.values.close = .number close := by
  rcases h with ⟨_, hvalues⟩ | ⟨hq, hvalid, hnumbers⟩
  · simp [hvalues, Ohlcv.unavailable] at hclose
  · obtain ⟨close, hnumber⟩ := hnumbers row.values.close (by simp [Ohlcv.toList, Ohlcv.prices])
    have hpositive := (of_valid hvalid).2.2.1
    simp only [isNonpositive, Ohlcv.prices, List.any_cons, Bool.or_eq_false_iff, hnumber,
      Reading.le, Reading.lt, Reading.eq] at hpositive
    refine ⟨hq, close, ?_, hnumber⟩
    have hle := hpositive.2.2.2.1
    simp only [decide_eq_false_iff_not, Reading.number.injEq] at hle
    exact lt_of_le_of_ne (not_lt.mp hle.1) (Ne.symm hle.2)

end ObservedRow.Sound

section Walk

variable {cells : List (ℤ × Option ObservedRow)} {prior : Option GridRow}
  {priorClose : Option Reading} {segmentId : ℕ}

/-- The rows that were observed are sound. -/
def AllSound (cells : List (ℤ × Option ObservedRow)) : Prop :=
  ∀ time row, (time, some row) ∈ cells → row.Sound

/-- Before a gap stands an observed row of the current segment. -/
def Follows (prior : Option GridRow) (priorClose : Option Reading) (segmentId : ℕ)
    (cells : List (ℤ × Option ObservedRow)) : Prop :=
  ∀ time rest, cells = (time, none) :: rest →
    ∃ before, prior = some before ∧ before.isFilled = false ∧ before.toObservedRow.Sound ∧
      before.segmentId = segmentId ∧ priorClose = some before.values.close

/-- The later cells of sound cells are sound. -/
theorem AllSound.tail {cell : ℤ × Option ObservedRow} (h : AllSound (cell :: cells)) :
    AllSound cells := fun time row hmem => h time row (List.mem_cons_of_mem _ hmem)

/-- Sound cells stay sound when the first of them are dropped. -/
theorem AllSound.dropWhile (h : AllSound cells) (p : ℤ × Option ObservedRow → Bool) :
    AllSound (cells.dropWhile p) :=
  fun time row hmem => h time row ((List.dropWhile_suffix p).subset hmem)

/-- A sound row may be followed by what its close fills. -/
theorem follows_observed (row : ObservedRow) (hsound : row.Sound) :
    Follows (some ⟨row, false, segmentId⟩) (some row.values.close) segmentId cells :=
  fun _ _ _ => ⟨_, rfl, rfl, hsound, rfl, rfl⟩

/-- Where the next row was observed, nothing is asked of the one before. -/
theorem follows_of_cons_some {time : ℤ} {row : ObservedRow} :
    Follows prior priorClose segmentId ((time, some row) :: cells) := by
  intro _ _ heq
  cases heq

/-- A gap of one row that is followed by an observed one. -/
theorem single_gap {time : ℤ} {rest : List (ℤ × Option ObservedRow)}
    (hanchored : Anchored ((time, none) :: rest)) (hempty : rest.takeWhile inserted = []) :
    ∃ after row later, rest = (after, some row) :: later := by
  obtain ⟨after, row, later, hlater⟩ := hanchored.after_gap rfl
  have hsplit := List.takeWhile_append_dropWhile (p := inserted) (l := rest)
  rw [hempty, hlater, List.nil_append] at hsplit
  exact ⟨after, row, later, hsplit.symm⟩

/-- Every row of the grid is sound. -/
theorem fillSingleGaps_sound (hsound : AllSound cells)
    (hfollows : Follows prior priorClose segmentId cells) (hanchored : Anchored cells) :
    ∀ row ∈ (fillSingleGaps cells priorClose segmentId).rows, row.Sound := by
  induction cells, priorClose, segmentId using fillSingleGaps_induction generalizing prior with
  | nil => simp
  | observed time row rest priorClose segmentId ih =>
    have hrow := hsound time row List.mem_cons_self
    have htail := ih hsound.tail (follows_observed row hrow) hanchored.tail
    exact List.forall_mem_cons.mpr ⟨.observed rfl hrow, htail⟩
  | filled time rest close segmentId hempty hnan ih =>
    obtain ⟨before, _, _, hbefore, _, hcloses⟩ := hfollows time rest rfl
    obtain rfl : close = before.values.close := Option.some.inj hcloses
    obtain ⟨_, price, hprice, hnumber⟩ := hbefore.close_pos hnan
    obtain ⟨after, row, later, rfl⟩ := single_gap hanchored hempty
    have htail := @ih none hsound.tail follows_of_cons_some hanchored.tail
    refine List.forall_mem_cons.mpr ⟨.filled rfl rfl price hprice ?_, htail⟩
    rw [hnumber]
  | blank time rest priorClose segmentId _ ih =>
    obtain ⟨after, row, later, hlater⟩ := hanchored.after_gap rfl
    have htail := @ih none (hsound.tail.dropWhile _)
      (by rw [hlater]; exact follows_of_cons_some) (hanchored.tail.dropWhile _)
    intro blank hblank
    rcases List.mem_append.mp hblank with hgap | hrest
    · obtain ⟨cell, _, rfl⟩ := List.mem_map.mp hgap
      exact .blank rfl rfl rfl
    · exact htail blank hrest

/-- Rows that were not filled are passed over. -/
theorem checkFilledRows_append {xs ys : List GridRow} (h : ∀ row ∈ xs, row.isFilled = false)
    (hprior : ∀ prior, checkFilledRows prior ys = .ok ()) :
    checkFilledRows prior (xs ++ ys) = .ok () := by
  induction xs generalizing prior with
  | nil => exact hprior prior
  | cons row xs ih =>
    obtain ⟨hrow, hxs⟩ := List.forall_mem_cons.mp h
    rw [List.cons_append, checkFilledRows]
    simpa [hrow] using ih hxs

/-- Every filled row stands where the loop over the filled rows allows it. -/
theorem checkFilledRows_fillSingleGaps (hsound : AllSound cells)
    (hfollows : Follows prior priorClose segmentId cells) (hanchored : Anchored cells) :
    checkFilledRows prior (fillSingleGaps cells priorClose segmentId).rows = .ok () := by
  induction cells, priorClose, segmentId using fillSingleGaps_induction generalizing prior with
  | nil => simp [checkFilledRows]
  | observed time row rest priorClose segmentId ih =>
    have hrow := hsound time row List.mem_cons_self
    have htail := ih hsound.tail (follows_observed row hrow) hanchored.tail
    rw [checkFilledRows]
    simpa using htail
  | filled time rest close segmentId hempty hnan ih =>
    obtain ⟨before, rfl, hbeforeFilled, hbefore, hsegment, hcloses⟩ := hfollows time rest rfl
    obtain rfl : close = before.values.close := Option.some.inj hcloses
    obtain ⟨hquarantined, price, hprice, hnumber⟩ := hbefore.close_pos hnan
    have havailable := hbefore.isAvailable hquarantined
    obtain ⟨after, row, later, rfl⟩ := single_gap hanchored hempty
    have hobserved := (hsound.tail after row List.mem_cons_self).isObserved segmentId
    have htail := fun prior => @ih prior hsound.tail follows_of_cons_some hanchored.tail
    rw [fillSingleGaps_some] at htail ⊢
    have hflat : ∀ value ∈ (Ohlcv.flat before.values.close).prices,
        value.eq before.values.close = true := by
      simp [Ohlcv.flat, Ohlcv.prices, hnumber, Reading.eq]
    have hnormal : before.isNormalObserved = true := by
      simp [GridRow.isNormalObserved, havailable, hbeforeFilled, hquarantined]
    rw [checkFilledRows]
    simpa [checkFilledRow, htail, hbeforeFilled, hobserved, hsegment, hnormal] using hflat
  | blank time rest priorClose segmentId _ ih =>
    obtain ⟨after, row, later, hlater⟩ := hanchored.after_gap rfl
    refine checkFilledRows_append ?_ ?_
    · intro blank hblank
      obtain ⟨cell, _, rfl⟩ := List.mem_map.mp hblank
      rfl
    · intro prior
      exact ih (hsound.tail.dropWhile _) (by rw [hlater]; exact follows_of_cons_some)
        (hanchored.tail.dropWhile _)

/-- A run of blank rows ends where the next row was observed. -/
theorem blank_run (segmentId : ℕ) (gap : List (ℤ × Option ObservedRow)) {row : GridRow}
    (later : List GridRow) (hrow : row.isLongGap = false) :
    (gap.map (blankRow segmentId) ++ row :: later).takeWhile (·.isLongGap) =
        gap.map (blankRow segmentId) ∧
      (gap.map (blankRow segmentId) ++ row :: later).dropWhile (·.isLongGap) = row :: later := by
  have hgap : ∀ blank ∈ gap.map (blankRow segmentId), blank.isLongGap = true := by
    intro blank hblank
    obtain ⟨cell, _, rfl⟩ := List.mem_map.mp hblank
    rfl
  rw [List.takeWhile_append_of_pos hgap, List.dropWhile_append_of_pos hgap,
    List.takeWhile_cons_of_neg (by simp [hrow]), List.dropWhile_cons_of_neg (by simp [hrow])]
  simp

/-- The segments that the walk over the gaps makes are those that the checks count. -/
theorem checkSegments_fillSingleGaps (hsound : AllSound cells)
    (hfollows : Follows prior priorClose segmentId cells) (hanchored : Anchored cells) :
    checkSegments prior segmentId (fillSingleGaps cells priorClose segmentId).rows = .ok () := by
  induction cells, priorClose, segmentId using fillSingleGaps_induction generalizing prior with
  | nil => simp [checkSegments]
  | observed time row rest priorClose segmentId ih =>
    have hrow := hsound time row List.mem_cons_self
    have htail := ih hsound.tail (follows_observed row hrow) hanchored.tail
    rw [checkSegments]
    simpa [hrow.not_isLongGap segmentId] using htail
  | filled time rest close segmentId hempty hnan ih =>
    obtain ⟨before, rfl, _, hbefore, _, hcloses⟩ := hfollows time rest rfl
    obtain rfl : close = before.values.close := Option.some.inj hcloses
    obtain ⟨_, price, _, hnumber⟩ := hbefore.close_pos hnan
    obtain ⟨after, row, later, rfl⟩ := single_gap hanchored hempty
    have htail := fun prior => @ih prior hsound.tail follows_of_cons_some hanchored.tail
    have havailable : GridRow.isLongGap
        ⟨⟨time, Ohlcv.flat before.values.close, false⟩, true, segmentId⟩ = false := by
      simp [GridRow.isLongGap, Ohlcv.isUnavailable, Ohlcv.flat, Ohlcv.toList, Ohlcv.prices, hnumber]
    rw [checkSegments]
    simpa [havailable] using htail _
  | blank time rest priorClose segmentId hunfilled ih =>
    obtain ⟨⟨before, _, segmentId⟩, rfl, rfl, hbefore, rfl, rfl⟩ := hfollows time rest rfl
    obtain ⟨after, row, later, hlater⟩ := hanchored.after_gap rfl
    have hrow : row.Sound :=
      hsound.tail.dropWhile inserted after row (by rw [hlater]; exact List.mem_cons_self)
    have htail := fun prior => @ih prior (hsound.tail.dropWhile _)
      (by rw [hlater]; exact follows_of_cons_some) (hanchored.tail.dropWhile _)
    rw [hlater, fillSingleGaps_some] at htail ⊢
    obtain ⟨htake, hdrop⟩ := blank_run segmentId (rest.takeWhile inserted)
      (fillSingleGaps later (some row.values.close) (segmentId + 1)).rows
      (hrow.not_isLongGap (segmentId + 1))
    have hlong : (blankRow segmentId (time, none)).isLongGap = true := rfl
    have hnumbered : ∀ blank ∈ ((time, none) :: rest.takeWhile inserted).map (blankRow segmentId),
        blank.segmentId = segmentId := by
      intro blank hblank
      obtain ⟨cell, _, rfl⟩ := List.mem_map.mp hblank
      rfl
    have hlength : ¬(((time, none) :: rest.takeWhile inserted).map (blankRow segmentId)).length = 1 ∨
        before.isQuarantined = true := by
      by_contra hshort
      obtain ⟨hone, hquarantined⟩ := not_or.mp hshort
      have hnan := hunfilled (by simpa using hone) _ rfl
      have havailable := hbefore.isAvailable (by simpa using hquarantined)
      simp [Ohlcv.isAvailable, Ohlcv.toList, Ohlcv.prices, hnan] at havailable
    rw [List.map_cons] at hnumbered hlength ⊢
    rw [List.cons_append, checkSegments, htake, hdrop, if_pos hlong]
    simp only [Except.bind_eq_ok, reject_eq_ok, require_eq_ok]
    refine ⟨(), by simp [blankRow], _, Option.filter_eq_some_iff.mpr ⟨rfl, hbefore.isObserved _⟩, (),
      ?_, (), ?_, _, Option.filter_eq_some_iff.mpr ⟨rfl, hrow.isObserved _⟩, (),
      by simp, htail _⟩
    · rintro ⟨blank, hblank, hnumber⟩
      exact hnumber (hnumbered blank hblank)
    · rintro ⟨hone, hquarantined⟩
      rcases hlength with hmany | htrue
      · exact hmany hone
      · cases htrue.symm.trans hquarantined

end Walk

namespace GridRow.Sound

variable {row : GridRow} {ratio : Reading}

/-- A row has all its values or none of them, and none is infinite. -/
theorem available_or_unavailable (h : row.Sound) :
    (row.values.isAvailable || row.values.isUnavailable) = true ∧
      ∀ value ∈ row.values.toList, value.isInfinite = false := by
  cases h with
  | observed _ hsound =>
    rcases hsound with ⟨_, hvalues⟩ | ⟨_, hvalid, hnumbers⟩
    · rw [hvalues]
      decide
    · refine ⟨by simp [(of_valid hvalid).1], ?_⟩
      intro value hvalue
      obtain ⟨q, rfl⟩ := hnumbers value hvalue
      rfl
  | blank _ _ hvalues =>
    rw [hvalues]
    decide
  | filled _ _ close _ hvalues =>
    rw [hvalues]
    simp [Ohlcv.isAvailable, Ohlcv.flat, Ohlcv.toList, Ohlcv.prices, Reading.isInfinite]

/-- A candle that is available is valid. -/
theorem valid_of_available (h : row.Sound) (havailable : row.values.isAvailable = true) :
    isImpossible row.values = false ∧ isNonpositive row.values = false ∧
      isNegativeVolume row.values = false := by
  cases h with
  | observed _ hsound =>
    rcases hsound with ⟨_, hvalues⟩ | ⟨_, hvalid, _⟩
    · simp [hvalues] at havailable
    · exact (of_valid hvalid).2
  | blank _ _ hvalues => simp [hvalues] at havailable
  | filled _ _ close hclose hvalues =>
    rw [hvalues]
    refine ⟨?_, ?_, ?_⟩
    · simp [isImpossible, Ohlcv.flat, Reading.maximum, Reading.minimum, Reading.larger,
        Reading.smaller, Reading.lt]
    · simp [isNonpositive, Ohlcv.flat, Ohlcv.prices, Reading.le, Reading.lt, Reading.eq, hclose.le,
        hclose.ne']
    · simp [isNegativeVolume, Ohlcv.flat, Reading.lt]

/-- A row without values carries no flag but that of quarantine. -/
theorem unflagged_of_unavailable (h : row.Sound) (hunavailable : row.values.isUnavailable = true) :
    row.isFilled = false ∧ row.values.prices.all (!·.isNan) = false := by
  refine ⟨?_, ?_⟩
  · cases h with
    | observed hfilled _ => exact hfilled
    | blank hfilled _ _ => exact hfilled
    | filled _ _ close _ hvalues =>
      simp [hvalues, Ohlcv.isUnavailable, Ohlcv.flat, Ohlcv.toList, Ohlcv.prices] at hunavailable
  · simp_all [Ohlcv.isUnavailable, Ohlcv.toList, Ohlcv.prices]

/-- A sound row that has its values is not quarantined. -/
theorem not_quarantined_of_available (h : row.Sound) (havailable : row.values.isAvailable = true) :
    row.isQuarantined = false := by
  cases h with
  | observed _ hsound =>
    rcases hsound with ⟨_, hvalues⟩ | ⟨hquarantined, _, _⟩
    · simp [hvalues] at havailable
    · exact hquarantined
  | blank _ hquarantined _ => exact hquarantined
  | filled _ hquarantined _ _ _ => exact hquarantined

/-- The close of a row that has one is a positive price. -/
theorem close_pos (h : row.Sound) (hclose : row.values.close.isNan = false) :
    ∃ close, 0 < close ∧ row.values.close = .number close := by
  cases h with
  | observed _ hsound => exact (hsound.close_pos hclose).2
  | blank _ _ hvalues => simp [hvalues, Ohlcv.unavailable] at hclose
  | filled _ _ close hpositive hvalues => exact ⟨close, hpositive, by simp [hvalues, Ohlcv.flat]⟩

/-- A candle without a range is no spike. -/
theorem not_spike_of_no_range (h : row.Sound) (hratio : (Reading.number 0).lt ratio = true)
    (hrange : row.values.high.sub row.values.low = .number 0) :
    (flagSpikesAndFlatBars ratio row).anomalySpike = false := by
  by_cases hclose : row.values.close.isNan = true
  · simp [flagSpikesAndFlatBars, Ohlcv.prices, hclose]
  · obtain ⟨close, hpositive, hnumber⟩ := h.close_pos (by simpa using hclose)
    simp [flagSpikesAndFlatBars, hrange, hnumber, Reading.zero_div_number hpositive.ne',
      Reading.lt_asymm hratio]

/-- What the flags of a row exclude. -/
theorem flags (h : row.Sound) (hratio : (Reading.number 0).lt ratio = true) :
    (row.isFilled = true → (flagSpikesAndFlatBars ratio row).anomalySpike = false ∧
      (flagSpikesAndFlatBars ratio row).anomalyFlat = false) ∧
    ((flagSpikesAndFlatBars ratio row).anomalyFlat = true →
      (flagSpikesAndFlatBars ratio row).anomalySpike = false) := by
  refine ⟨?_, ?_⟩
  · intro hfilled
    refine ⟨h.not_spike_of_no_range hratio ?_, by simp [flagSpikesAndFlatBars, hfilled]⟩
    cases h with
    | observed hunfilled _ => simp [hfilled] at hunfilled
    | blank hunfilled _ _ => simp [hfilled] at hunfilled
    | filled _ _ close _ hvalues => simp [hvalues, Ohlcv.flat]
  · intro hflat
    simp only [flagSpikesAndFlatBars, Bool.and_eq_true] at hflat
    exact h.not_spike_of_no_range hratio (Reading.eq_number.mp hflat.1.2)

end GridRow.Sound

/-- What the flags and the values of a row of a canonical frame say about each other. -/
structure QualityRow.Consistent (row : QualityRow) : Prop where
  filled_unflagged : row.isFilled = true → row.anomalySpike = false ∧ row.anomalyFlat = false
  filled_not_quarantined : row.isFilled = true → row.isQuarantined = false
  filled_flat : row.isFilled = true → ∃ close, row.values = .flat (.number close)
  flat_not_spike : row.anomalyFlat = true → row.anomalySpike = false
  unavailable_unflagged : row.values.isUnavailable = true →
    row.isFilled = false ∧ row.anomalySpike = false ∧ row.anomalyFlat = false
  available_not_quarantined : row.values.isAvailable = true → row.isQuarantined = false

/-- A sound row is consistent when it has been flagged. -/
theorem GridRow.Sound.quality {original : GridRow} {row : QualityRow} {ratio : Reading}
    (h : original.Sound) (hratio : (Reading.number 0).lt ratio = true)
    (heq : row.toFlaggedRow = flagSpikesAndFlatBars ratio original) : row.Consistent := by
  obtain ⟨flagged, entryDataValid⟩ := row
  obtain rfl : flagged = flagSpikesAndFlatBars ratio original := heq
  obtain ⟨hfilled, hflat⟩ := h.flags hratio
  refine ⟨hfilled, ?_, ?_, hflat, ?_, h.not_quarantined_of_available⟩
  · intro hf
    cases h with
    | observed hunfilled _ => cases hf.symm.trans hunfilled
    | blank hunfilled _ _ => cases hf.symm.trans hunfilled
    | filled _ hquarantined _ _ _ => exact hquarantined
  · intro hf
    cases h with
    | observed hunfilled _ => cases hf.symm.trans hunfilled
    | blank hunfilled _ _ => cases hf.symm.trans hunfilled
    | filled _ _ close _ hvalues => exact ⟨close, hvalues⟩
  · intro hunavailable
    obtain ⟨hf, hprices⟩ := h.unflagged_of_unavailable hunavailable
    exact ⟨hf, by simp [flagSpikesAndFlatBars, hprices], by simp [flagSpikesAndFlatBars, hprices]⟩

section Frame

variable {Cell : Type} {pd : Pandas Cell} {ratio : Reading} {grid : List GridRow}

/-- The rows of a canonical frame are the flagged rows of the grid. -/
theorem exists_grid_row {row : QualityRow}
    (h : row ∈ setEntryDataValid (grid.map (flagSpikesAndFlatBars ratio))) :
    ∃ original ∈ grid, row.toFlaggedRow = flagSpikesAndFlatBars ratio original := by
  have hflagged : row.toFlaggedRow ∈ grid.map (flagSpikesAndFlatBars ratio) := by
    rw [← setEntryDataValid_flagged (grid.map (flagSpikesAndFlatBars ratio))]
    exact List.mem_map_of_mem h
  obtain ⟨original, hmem, heq⟩ := List.mem_map.mp hflagged
  exact ⟨original, hmem, heq.symm⟩

/-- The entry flags are those that the checks expect. -/
theorem expectedEntry_setEntryDataValid (rows : List FlaggedRow) :
    (setEntryDataValid rows).map (fun row => row.entryDataValid) =
      expectedEntry (setEntryDataValid rows) := by
  have hrecent : recentContamination rows =
      transformGroups (fun row : QualityRow => row.segmentId)
        (fun segment => rolling 200 (·.any id) (segment.map fun row =>
          row.isFilled || row.isQuarantined || row.anomalySpike || row.anomalyFlat))
        (setEntryDataValid rows) := by
    conv_lhs => rw [← setEntryDataValid_flagged rows, recentContamination, transformGroups_map]
    simp only [List.map_map, Function.comp_def, FlaggedRow.isContaminated, entryLookback,
      Bool.or_assoc]
  have hvalues : (setEntryDataValid rows).map (fun row => row.entryDataValid) =
      List.zipWith (fun row recent => row.values.isAvailable && !recent) rows
        (recentContamination rows) := by
    rw [setEntryDataValid, List.map_zipWith]
  rw [hvalues, expectedEntry, ← hrecent]
  conv_lhs => rw [← setEntryDataValid_flagged rows, List.zipWith_map_left]
  rw [setEntryDataValid_flagged]

/-- The checks of the quality rows accept a sound grid whose walks they accept. -/
theorem validateQualityRows_setEntryDataValid (hratio : (Reading.number 0).lt ratio = true)
    (hsound : ∀ row ∈ grid, row.Sound) (hfilled : checkFilledRows none grid = .ok ())
    (hstart : ∀ row ∈ grid.head?, row.segmentId = 0)
    (hsegments : checkSegments none 0 grid = .ok ()) :
    validateQualityRows (setEntryDataValid (grid.map (flagSpikesAndFlatBars ratio))) = .ok () := by
  simp only [validateQualityRows, Except.bind_eq_ok, reject_eq_ok, setEntryDataValid_grid]
  refine ⟨(), ?_, (), ?_, (), ?_, (), ?_, (), hfilled, (), ?_, (), hsegments, ?_⟩
  · rintro ⟨row, hrow, hflags⟩
    obtain ⟨original, horiginal, heq⟩ := exists_grid_row hrow
    have hquality := (hsound original horiginal).quality hratio heq
    cases hf : row.isFilled
    · cases hflat : row.anomalyFlat
      · simp [hf, hflat] at hflags
      · simp [hf, hflat, hquality.flat_not_spike hflat] at hflags
    · obtain ⟨hspike, hflat⟩ := hquality.filled_unflagged hf
      simp [hspike, hflat, hquality.filled_not_quarantined hf] at hflags
  · rintro ⟨row, hrow, hflags⟩
    obtain ⟨original, horiginal, heq⟩ := exists_grid_row hrow
    have hquality := (hsound original horiginal).quality hratio heq
    obtain ⟨hunavailable, hflags⟩ := Bool.and_eq_true_iff.mp hflags
    obtain ⟨hf, hspike, hflat⟩ := hquality.unavailable_unflagged hunavailable
    simp [hf, hspike, hflat] at hflags
  · rintro ⟨row, hrow, hflags⟩
    obtain ⟨original, horiginal, heq⟩ := exists_grid_row hrow
    have hquality := (hsound original horiginal).quality hratio heq
    obtain ⟨havailable, hquarantined⟩ := Bool.and_eq_true_iff.mp hflags
    simp [hquality.available_not_quarantined havailable] at hquarantined
  · rintro ⟨row, hrow, hf, hvalues⟩
    obtain ⟨original, horiginal, heq⟩ := exists_grid_row hrow
    obtain ⟨close, hflat⟩ := ((hsound original horiginal).quality hratio heq).filled_flat hf
    simp [hflat, Ohlcv.flat, Reading.eq] at hvalues
  · rintro ⟨row, hrow, hnumber⟩
    exact hnumber (hstart row hrow)
  · exact not_not.mpr (expectedEntry_setEntryDataValid _)

/-- The candles of a sound grid that are available are valid. -/
theorem validateAvailableOhlcv_sound {rows : List (Ohlcv Reading)}
    (h : ∀ bar ∈ rows, ∃ row : GridRow, row.Sound ∧ row.values = bar ∧ bar.isAvailable = true) :
    validateAvailableOhlcv rows = .ok () := by
  have hvalid : ∀ bar ∈ rows, isImpossible bar = false ∧ isNonpositive bar = false ∧
      isNegativeVolume bar = false := by
    intro bar hbar
    obtain ⟨row, hsound, rfl, havailable⟩ := h bar hbar
    exact hsound.valid_of_available havailable
  simp only [validateAvailableOhlcv, Except.bind_eq_ok, reject_eq_ok]
  refine ⟨(), ?_, (), ?_, ?_⟩
  · rintro ⟨bar, hbar, price, hprice, hle⟩
    have hnonpositive := List.any_eq_false.mp (hvalid bar hbar).2.1 price hprice
    exact hnonpositive hle
  · rintro ⟨bar, hbar, hnegative⟩
    cases hnegative.symm.trans (hvalid bar hbar).2.2
  · rintro (⟨bar, hbar, himpossible⟩ | ⟨bar, hbar, himpossible⟩)
    · simpa [isImpossible, himpossible] using (hvalid bar hbar).1
    · simpa [isImpossible, himpossible] using (hvalid bar hbar).1

/-- The frame of canonical rows has their values. -/
theorem ohlcv_frameOf (rows : List QualityRow) :
    (frameOf rows : Frame Cell).ohlcv pd = rows.map fun row => row.values := by
  simp [Frame.ohlcv, Frame.numeric, Frame.column, frameOf, Column.numeric, List.zip_map',
    Function.comp_def]

/-- The frame of canonical rows reads back as the rows. -/
theorem qualityRows_frameOf (rows : List QualityRow) :
    (frameOf rows : Frame Cell).qualityRows pd (rows.map fun row => row.time)
      (rows.map fun row => row.values) = rows := by
  simp [Frame.qualityRows, Frame.flags, Frame.numeric, Frame.column, frameOf, Column.numeric,
    Column.flags, List.zip_map', Function.comp_def, segmentNumber]

/-- The columns of the frame of canonical rows are numeric. -/
theorem withNumeric_frameOf (rows : List QualityRow) :
    (frameOf rows : Frame Cell).withNumeric pd = frameOf rows := by
  simp [Frame.withNumeric, frameOf, ohlcvColumns, Column.numeric]

/-- The frame of canonical rows passes the check of its quality columns. -/
theorem validateQualitySurface_frameOf {rows : List QualityRow}
    (h : validateQualityRows rows = .ok ()) :
    validateQualitySurface pd (frameOf rows : Frame Cell) (rows.map fun row => row.time)
      (rows.map fun row => row.values) = .ok () := by
  simp only [validateQualitySurface, Except.bind_eq_ok, reject_eq_ok, qualityRows_frameOf]
  refine ⟨(), ?_, (), ?_, h⟩
  · rw [Except.forM_eq_ok]
    simp [qualityBooleanColumns, Frame.column, frameOf, Column.flags]
  · simp [Frame.numeric, Frame.column, frameOf, Column.numeric, isSegmentNumber]

/-- The index of the frame of canonical rows passes its checks. -/
theorem validatedUtcIndex_frameOf {rows : List QualityRow} {name : String}
    (hincreasing : (rows.map fun row => row.time).Pairwise (· < ·))
    (hspacing : (rows.map fun row => row.time).IsChain fun a b => b - a = frequency)
    (haligned : ∀ time ∈ rows.map fun row => row.time, time % frequency = 0) :
    validatedUtcIndex (frameOf rows : Frame Cell).index name =
      .ok (rows.map fun row => row.time) := by
  have hvalues : (rows.map fun row => some row.time).reduceOption = rows.map fun row => row.time := by
    simp [List.reduceOption, List.filterMap_map]
  simp only [validatedUtcIndex, frameOf, Except.bind_eq_ok, reject_eq_ok, Except.pure_eq_ok, hvalues]
  refine ⟨(), by simp, (), ?_, (), not_not.mpr hspacing, (), ?_, trivial⟩
  · rintro (hmissing | hrepeated | hunsorted)
    · simp at hmissing
    · exact hrepeated (hincreasing.imp ne_of_lt)
    · exact hunsorted (hincreasing.imp le_of_lt)
  · rintro ⟨time, htime, hoff⟩
    exact hoff (haligned time htime)

end Frame

section Agreement

variable {Cell : Type} {pd : Pandas Cell} {raw : RawFrame Cell} {now : ℤ}

/-- `whose numeric values are finite or missing`: no OHLCV cell reads as an infinity. -/
def RawFrame.FiniteOrMissing (pd : Pandas Cell) (raw : RawFrame Cell) : Prop :=
  ∀ row ∈ raw.rows, ∀ cell ∈ selectOhlcv (raw.columns.map normalizeColumn) row.2,
    (pd.toNumeric cell).isInfinite = false

/-- The cells of a bar are those that it was made of. -/
theorem Ohlcv.toList_of_ofList {cells : List Cell} {bar : Ohlcv Cell}
    (h : Ohlcv.ofList cells = some bar) : bar.toList = cells := by
  unfold Ohlcv.ofList at h
  split at h
  · cases h
    rfl
  · cases h

/-- What is observed at a raw row without infinities is sound. -/
theorem sound_of_observe (hfinite : raw.FiniteOrMissing pd) {original : Stamp × List Cell}
    (horiginal : original ∈ raw.rows) {row : ObservedRow}
    (h : observe pd raw.columns original = some row) : row.Sound := by
  obtain ⟨time, bar, _, hbar, rfl⟩ := observe_eq_some.mp h
  have hcells := Ohlcv.toList_of_ofList hbar
  cases hinvalid : isInvalid (bar.map pd.toNumeric) with
  | true => exact .inl ⟨hinvalid, by simp [quarantineInvalidValues, hinvalid]⟩
  | false =>
    refine .inr ⟨hinvalid, by simp [quarantineInvalidValues, hinvalid], ?_⟩
    intro value hvalue
    have havailable := (of_valid hinvalid).1
    rw [quarantineInvalidValues, if_neg (by simp [hinvalid])] at hvalue
    have hnan := List.all_eq_true.mp havailable value hvalue
    refine Reading.exists_number (by simpa using hnan) ?_
    have hcell : value ∈ bar.toList.map pd.toNumeric := by
      simpa [Ohlcv.toList, Ohlcv.prices, Ohlcv.map] using hvalue
    rw [hcells] at hcell
    obtain ⟨cell, hmem, rfl⟩ := List.mem_map.mp hcell
    exact hfinite original horiginal cell hmem

/-- A frame on the grid whose rows are sound and consistent with each other. -/
structure SoundFrame (frame : List QualityRow) : Prop where
  nonempty : frame ≠ []
  increasing : (frame.map fun row => row.time).Pairwise (· < ·)
  spacing : (frame.map fun row => row.time).IsChain fun a b => b - a = frequency
  aligned : ∀ time ∈ frame.map fun row => row.time, time % frequency = 0
  sound : ∀ row ∈ frame, row.toGridRow.Sound
  quality : validateQualityRows frame = .ok ()

/-- Sound rows that were observed make a sound frame. -/
theorem soundFrame_of_observed {complete : List ObservedRow} {ratio : Reading}
    (hratio : (Reading.number 0).lt ratio = true) (hrows : complete ≠ [])
    (hobserved : ∀ row ∈ complete, row.Sound)
    (haligned : ∀ row ∈ complete, row.time % frequency = 0) :
    SoundFrame (setEntryDataValid
      ((reindexAndFillSingleGaps complete).rows.map (flagSpikesAndFlatBars ratio))) := by
  obtain ⟨first, hfirst, last, hlast, hbounds, hgrid⟩ := reindexAndFillSingleGaps_eq hrows
  obtain ⟨seen, later, hhead⟩ := reindex_head last.time hfirst
  have hanchored := reindex_anchored hlast (hbounds last hlast).1 (haligned first hfirst)
    (haligned last hlast)
  have hcells : AllSound (reindex complete (dateRange first.time last.time)) :=
    fun time row hmem => hobserved row (of_mem_reindex hmem).1
  have hfollows : Follows none none 0 (reindex complete (dateRange first.time last.time)) := by
    rw [hhead]
    exact follows_of_cons_some
  have htimes := canonicalFrame_times ratio hgrid
  rw [hgrid] at htimes ⊢
  set grid := (fillSingleGaps (reindex complete (dateRange first.time last.time)) none 0).rows
  set frame := setEntryDataValid (grid.map (flagSpikesAndFlatBars ratio))
  have hgridRows : frame.map (fun row => row.toGridRow) = grid := setEntryDataValid_grid grid ratio
  have hsound := fillSingleGaps_sound hcells hfollows hanchored
  refine ⟨?_, ?_, ?_, ?_, ?_, ?_⟩
  · intro hempty
    obtain ⟨rest, hrest⟩ := dateRange_head first.time last.time
    rw [hempty, hrest] at htimes
    cases htimes
  · rw [htimes]
    exact dateRange_pairwise _ _
  · rw [htimes]
    exact dateRange_isChain _ _
  · rw [htimes]
    exact fun time => mem_dateRange_aligned (haligned first hfirst)
  · intro row hrow
    refine hsound _ ?_
    have hmem := List.mem_map_of_mem (f := fun row : QualityRow => row.toGridRow) hrow
    rwa [hgridRows] at hmem
  · refine validateQualityRows_setEntryDataValid hratio hsound
      (checkFilledRows_fillSingleGaps hcells hfollows hanchored) ?_
      (checkSegments_fillSingleGaps hcells hfollows hanchored)
    intro row hrow
    simp only [grid, hhead, fillSingleGaps_some, List.head?_cons, Option.mem_some_iff] at hrow
    rw [← hrow]

/-- A sound frame is accepted for a walk-forward run as it is. -/
theorem SoundFrame.accepted {frame : List QualityRow} (h : SoundFrame frame) :
    validateWalkForwardFrame pd (frameOf frame : Frame Cell) = .ok (frameOf frame) := by
  have hindex : validatedUtcIndex (frameOf frame : Frame Cell).index "frame" =
      .ok (frame.map fun row => row.time) :=
    validatedUtcIndex_frameOf h.increasing h.spacing h.aligned
  have hpresent : qualityColumns.filter (fun name =>
      ((frameOf frame : Frame Cell).column name).isSome) = qualityColumns := by
    simp [qualityColumns, qualityBooleanColumns, frameOf, Frame.column]
  have hbars : ∀ bar ∈ frame.map (fun row => row.values), ∃ row : GridRow, row.Sound ∧
      row.values = bar := by
    intro bar hbar
    obtain ⟨row, hrow, rfl⟩ := List.mem_map.mp hbar
    exact ⟨_, h.sound row hrow, rfl⟩
  simp only [validateWalkForwardFrame, Except.bind_eq_ok, reject_eq_ok, ohlcv_frameOf,
    withNumeric_frameOf, hpresent]
  refine ⟨(), by simp [frameOf, Frame.column, ohlcvColumns], _, hindex, (),
    by simpa using h.nonempty, (), ?_, (), ?_, (), ?_, (), ?_, (), by simp, (),
    by simp [qualityColumns], ?_⟩
  · simp [ohlcvColumns, frameOf, Frame.column, Column.coercedMissing]
  · rintro ⟨bar, hbar, value, hvalue, hinfinite⟩
    obtain ⟨row, hrow, rfl⟩ := hbars bar hbar
    cases hinfinite.symm.trans (hrow.available_or_unavailable.2 value hvalue)
  · rintro ⟨bar, hbar, hpartial⟩
    obtain ⟨row, hrow, rfl⟩ := hbars bar hbar
    exact hpartial hrow.available_or_unavailable.1
  · refine validateAvailableOhlcv_sound ?_
    intro bar hbar
    obtain ⟨hmem, havailable⟩ := List.mem_filter.mp hbar
    obtain ⟨row, hrow, hvalues⟩ := hbars bar hmem
    exact ⟨row, hrow, hvalues, havailable⟩
  · rw [if_pos (by simp [qualityColumns]), Except.bind_eq_ok]
    exact ⟨(), validateQualitySurface_frameOf h.quality, rfl⟩

/-- Every frame that canonicalization makes of values that are finite or missing, with a
completed bar in it, is accepted for a walk-forward run as it is. -/
theorem canonical_frame_accepted [DecidableEq Cell] (pd : Pandas Cell) (raw : RawFrame Cell)
    (now : ℤ) (ratio : Reading) (result : QualityResult) (hfinite : raw.FiniteOrMissing pd)
    (hcompleted : ∃ row ∈ raw.rows, ∃ time, row.1 = .time time ∧ time + frequency ≤ now)
    (h : canonicalizeOhlcv pd raw (some now) ratio = .ok result) :
    validateWalkForwardFrame pd (frameOf result.frame : Frame Cell) =
      .ok (frameOf result.frame) := by
  obtain ⟨⟨_, hratio⟩, _, complete, ⟨⟩, hcomplete, hframe⟩ := canonicalizeOhlcv_eq_ok h
  have hrows : complete ≠ [] := by
    obtain ⟨original, horiginal, time, hstamp, hle⟩ := hcompleted
    obtain ⟨row, hrow⟩ := hcomplete.readable original horiginal
    obtain ⟨time', bar, hstamp', _, hseen⟩ := observe_eq_some.mp hrow
    obtain rfl : time = time' := Stamp.time.inj (hstamp.symm.trans hstamp')
    have hmem := (hcomplete.mem_iff row).mpr ⟨⟨original, horiginal, hrow⟩, by rw [hseen]; exact hle⟩
    exact List.ne_nil_of_mem hmem
  have hobserved : ∀ row ∈ complete, row.Sound := by
    intro row hrow
    obtain ⟨⟨original, horiginal, hseen⟩, _⟩ := (hcomplete.mem_iff row).mp hrow
    exact sound_of_observe hfinite horiginal hseen
  rw [hframe]
  exact (soundFrame_of_observed hratio hrows hobserved hcomplete.aligned).accepted

/-- Two bars with one missing between them, the later one first. -/
def oneMissing : RawFrame ℤ where
  columns := ["Open", " high", "low", "close", "volume"]
  rows := [(.time (2 * frequency), [3, 4, 2, 3, 1]), (.time 0, [30, 40, 20, 30, 1])]
  aligned := by decide

/-- A frame with one candle missing is filled and accepted. -/
theorem canonical_frame_accepted_one_missing :
    ∃ result, result.report.shortGapBars = 1 ∧
      canonicalizeOhlcv wholeNumbers oneMissing (some (3 * frequency)) defaultSpikeRangeRatio =
        .ok result ∧
      validateWalkForwardFrame wholeNumbers (frameOf result.frame) = .ok (frameOf result.frame) := by
  have hrun : (canonicalizeOhlcv wholeNumbers oneMissing (some (3 * frequency))
      defaultSpikeRangeRatio).toOption.any (fun result => result.report.shortGapBars = 1) = true := by
    decide +kernel
  obtain ⟨result, hresult, hgap⟩ := (Option.any_eq_true _ _).mp hrun
  replace hresult := Except.toOption_eq_some.mp hresult
  have hfinite : oneMissing.FiniteOrMissing wholeNumbers := fun _ _ _ _ => rfl
  exact ⟨result, of_decide_eq_true hgap, hresult, canonical_frame_accepted wholeNumbers oneMissing
    (3 * frequency) defaultSpikeRangeRatio result hfinite
    ⟨_, List.mem_cons_self, 2 * frequency, rfl, by decide⟩ hresult⟩

end Agreement

end AutoBit.Data
