import AutoBit.Data.Agreement

/-!
# Cutting a walk-forward frame off at an instant

A validated frame is cut before an instant, and the rows left are validated again. The
walks over filled rows and over gaps look at the row after, so what is left is accepted
unless its last row is one of those that need a successor.
-/

namespace AutoBit.Data

open Library Risk

section Cut

variable {Cell : Type}

/-- The rows of a column at which a mask is true. -/
def Column.loc (mask : List Bool) : Column Cell → Column Cell
  | numbers values => numbers (keep mask values)
  | integers values => integers (keep mask values)
  | booleans values => booleans (keep mask values)
  | objects values => objects (keep mask values)

/-- The instants of an index at which a mask is true. -/
def FrameIndex.loc (mask : List Bool) : FrameIndex → FrameIndex
  | other length => other (keep mask (List.replicate length ())).length
  | datetime utc asi8 => datetime utc (keep mask asi8)

/-- A mask keeps as many cells of a column as of the index. -/
theorem length_loc (mask : List Bool) {column : Column Cell} {index : FrameIndex}
    (h : column.length = index.length) : (column.loc mask).length = (index.loc mask).length := by
  cases column <;> cases index <;>
    exact length_keep mask (by simpa [Column.length, FrameIndex.length] using h)

/-- `frame.loc[mask]`. -/
def Frame.loc (mask : List Bool) (frame : Frame Cell) : Frame Cell where
  index := frame.index.loc mask
  columns := frame.columns.map fun column => (column.1, column.2.loc mask)
  unique := by simpa [Function.comp_def] using frame.unique
  aligned := by
    intro column hcolumn
    obtain ⟨original, horiginal, rfl⟩ := List.mem_map.mp hcolumn
    exact length_loc mask (frame.aligned original horiginal)

/-- The instants of an index, in its own units. -/
def FrameIndex.values : FrameIndex → List (Option ℤ)
  | other _ => []
  | datetime _ asi8 => asi8

/-- `_apply_walk_forward_end`, on an index whose unit is a number of nanoseconds. -/
def applyWalkForwardEnd (unit : ℤ) (frame : Frame Cell) (endUtc : Option ℤ) :
    Except Failure (Frame Cell) :=
  match endUtc with
  | none => .ok frame
  | some stop => do
    let last ← require frame.index.values.getLast?
      (.value "index -1 is out of bounds for axis 0 with size 0")
    reject (∃ instant ∈ last, instant * unit + frequency < stop)
      (.value "end-utc exceeds completed input coverage")
    let filtered := frame.loc (frame.index.values.map fun value =>
      value.any fun instant => instant * unit < stop)
    reject (filtered.index.length = 0) (.value "end-utc excludes all input candles")
    return filtered

end Cut

section Walks

/-- The check of filled rows is that of the first row and that of the rest after it. -/
theorem checkFilledRows_cons {prior : Option GridRow} {row : GridRow} {rest : List GridRow} :
    checkFilledRows prior (row :: rest) = .ok () ↔
      (row.isFilled = true → checkFilledRow row prior rest.head? = .ok ()) ∧
        checkFilledRows (some row) rest = .ok () := by
  rw [checkFilledRows]
  cases hfilled : row.isFilled with
  | false => simp
  | true =>
    rw [if_pos rfl, Except.bind_eq_ok]
    constructor
    · rintro ⟨⟨⟩, hrow, hrest⟩
      exact ⟨fun _ => hrow, hrest⟩
    · rintro ⟨hrow, hrest⟩
      exact ⟨(), hrow rfl, hrest⟩

/-- The filled rows of a beginning pass, unless the last row is one of them. -/
theorem checkFilledRows_beginning {prior : Option GridRow} {xs ys : List GridRow}
    (h : checkFilledRows prior (xs ++ ys) = .ok ()) :
    checkFilledRows prior xs = .ok () ↔ ∀ row ∈ xs.getLast?, row.isFilled = false := by
  induction xs generalizing prior with
  | nil => simp [checkFilledRows]
  | cons row rest ih =>
    rw [List.cons_append, checkFilledRows_cons] at h
    obtain ⟨hrow, hrest⟩ := h
    rw [checkFilledRows_cons]
    cases rest with
    | nil =>
      cases hfilled : row.isFilled with
      | true => cases prior <;> simp [checkFilledRow, hfilled]
      | false => simp [checkFilledRows, hfilled]
    | cons next rest =>
      have htail := ih hrest
      rw [List.getLast?_cons_cons]
      constructor
      · rintro ⟨_, hok⟩
        exact htail.mp hok
      · intro hlast
        exact ⟨hrow, htail.mpr hlast⟩

/-- What a walk over the segments finds at a row that is not in a gap. -/
theorem checkSegments_row {prior : Option GridRow} {segment : ℕ} {row : GridRow}
    {rest : List GridRow} (hgap : row.isLongGap = false) :
    checkSegments prior segment (row :: rest) = .ok () ↔
      row.segmentId = segment ∧ checkSegments (some row) segment rest = .ok () := by
  rw [checkSegments]
  simp [hgap]

/-- What is asked of a gap and of the rows around it: an observed row on each side, of
segments that follow each other. -/
def GapAccepted (prior : Option GridRow) (segment : ℕ) (gap : List GridRow) (after : GridRow) :
    Prop :=
  (∀ blank ∈ gap, blank.segmentId = segment) ∧
    (∃ before, prior.filter (·.isObserved) = some before ∧
      (gap.length = 1 → before.isQuarantined = true)) ∧
    after.isObserved = true ∧ after.segmentId = segment + 1

/-- What a walk over the segments finds at a gap that ends. -/
theorem checkSegments_gap {prior : Option GridRow} {segment : ℕ} {row after : GridRow}
    {gap later : List GridRow} (hgap : ∀ blank ∈ row :: gap, blank.isLongGap = true)
    (hafter : after.isLongGap = false) :
    checkSegments prior segment (row :: (gap ++ after :: later)) = .ok () ↔
      GapAccepted prior segment (row :: gap) after ∧
        checkSegments (row :: gap).getLast? (segment + 1) (after :: later) = .ok () := by
  obtain ⟨hrow, hrest⟩ := List.forall_mem_cons.mp hgap
  have htake : (gap ++ after :: later).takeWhile (·.isLongGap) = gap := by
    rw [List.takeWhile_append_of_pos hrest]
    simp [hafter]
  have hdrop : (gap ++ after :: later).dropWhile (·.isLongGap) = after :: later := by
    rw [List.dropWhile_append_of_pos hrest]
    simp [hafter]
  rw [checkSegments]
  simp only [hrow, if_true, Except.bind_eq_ok, reject_eq_ok, require_eq_ok, htake, hdrop,
    List.head?_cons, Option.filter_eq_some_iff, Option.some.injEq]
  constructor
  · rintro ⟨_, _, before, hbefore, _, hstable, _, hsingle, _, ⟨rfl, hobserved⟩, _, hnext, hok⟩
    refine ⟨⟨?_, ⟨before, Option.filter_eq_some_iff.mpr hbefore, ?_⟩, hobserved,
      not_not.mp hnext⟩, hok⟩
    · intro blank hblank
      by_contra hne
      exact hstable ⟨blank, hblank, hne⟩
    · intro hone
      by_contra hquarantined
      exact hsingle ⟨hone, by simpa using hquarantined⟩
  · rintro ⟨⟨hstable, ⟨before, hbefore, hsingle⟩, hobserved, hnext⟩, hok⟩
    refine ⟨(), not_not.mpr (hstable row (by simp)), before, Option.filter_eq_some_iff.mp hbefore,
      (), ?_, (), ?_, after, ⟨rfl, hobserved⟩, (), not_not.mpr hnext, hok⟩
    · rintro ⟨blank, hblank, hne⟩
      exact hne (hstable blank hblank)
    · rintro ⟨hone, hquarantined⟩
      rw [hsingle hone] at hquarantined
      cases hquarantined

/-- A walk over the segments does not pass a gap that does not end. -/
theorem checkSegments_open_gap {prior : Option GridRow} {segment : ℕ} {row : GridRow}
    {gap : List GridRow} (hgap : ∀ blank ∈ row :: gap, blank.isLongGap = true) :
    checkSegments prior segment (row :: gap) ≠ .ok () := by
  obtain ⟨hrow, hrest⟩ := List.forall_mem_cons.mp hgap
  have hdrop : gap.dropWhile (·.isLongGap) = [] := List.dropWhile_eq_nil_iff.mpr hrest
  intro hok
  rw [checkSegments] at hok
  simp [hrow, hdrop, Option.filter] at hok

/-- A list has an element without a property, and before it only such that have it, unless
all of them have it. -/
theorem exists_first_without {α : Type*} (p : α → Bool) (xs : List α) :
    (∀ x ∈ xs, p x = true) ∨
      ∃ start x rest, xs = start ++ x :: rest ∧ (∀ y ∈ start, p y = true) ∧ p x = false := by
  induction xs with
  | nil => exact .inl (by simp)
  | cons x xs ih =>
    cases hx : p x with
    | false => exact .inr ⟨[], x, xs, rfl, by simp, hx⟩
    | true =>
      rcases ih with hall | ⟨start, y, rest, rfl, hstart, hy⟩
      · exact .inl (List.forall_mem_cons.mpr ⟨hx, hall⟩)
      · exact .inr ⟨x :: start, y, rest, rfl, List.forall_mem_cons.mpr ⟨hx, hstart⟩, hy⟩

/-- The gaps of a beginning pass, unless the last row is in one of them. -/
theorem checkSegments_beginning {prior : Option GridRow} {segment : ℕ} {xs ys : List GridRow}
    (h : checkSegments prior segment (xs ++ ys) = .ok ()) :
    checkSegments prior segment xs = .ok () ↔ ∀ row ∈ xs.getLast?, row.isLongGap = false := by
  induction hlength : xs.length using Nat.strong_induction_on generalizing prior segment xs with
  | _ n ih =>
    subst hlength
    match xs, h with
    | [], _ => simp [checkSegments]
    | row :: rest, h =>
      cases hrow : row.isLongGap with
      | false =>
        rw [List.cons_append, checkSegments_row hrow] at h
        have htail := ih rest.length (by simp) h.2 rfl
        rw [checkSegments_row hrow, htail]
        cases rest with
        | nil => simp [h.1, hrow]
        | cons next rest => simp [h.1, List.getLast?_cons_cons]
      | true =>
        rcases exists_first_without (·.isLongGap) rest with hall | ⟨gap, after, later, rfl, hgap, hafter⟩
        · -- the cut lies in a gap or right after it
          have hblank : ∀ blank ∈ row :: rest, blank.isLongGap = true :=
            List.forall_mem_cons.mpr ⟨hrow, hall⟩
          have hlast := hblank _ (List.getLast_mem (l := row :: rest) (by simp))
          refine iff_of_false (checkSegments_open_gap hblank) ?_
          intro hclear
          rw [hclear _ (List.getLast?_eq_some_getLast _)] at hlast
          cases hlast
        · have hblank : ∀ blank ∈ row :: gap, blank.isLongGap = true :=
            List.forall_mem_cons.mpr ⟨hrow, hgap⟩
          rw [List.cons_append, List.append_assoc, List.cons_append,
            checkSegments_gap hblank hafter] at h
          have hshorter : (after :: later).length < (row :: (gap ++ after :: later)).length := by
            simp only [List.length_cons, List.length_append]
            omega
          have htail := ih (after :: later).length hshorter h.2 rfl
          have hlast : (row :: (gap ++ after :: later)).getLast? = (after :: later).getLast? := by
            rw [← List.cons_append, List.getLast?_append_of_ne_nil _ (List.cons_ne_nil _ _)]
          rw [checkSegments_gap hblank hafter, htail, hlast, and_iff_right h.1]

end Walks

section Rows

/-- The expected validity for entries does not look ahead. -/
theorem expectedEntry_causal : Causal expectedEntry :=
  Causal.zipWith (fun (row : QualityRow) (recent : Bool) => row.values.isAvailable && !recent)
    Causal.id (transformGroups_causal ((rolling_causal 200 (·.any id)).comp (Causal.map _)))

/-- A row after which the rows may end: neither filled nor in a long gap. -/
def GridRow.MayBeLast (row : GridRow) : Prop := row.isFilled = false ∧ row.isLongGap = false

instance (row : GridRow) : Decidable row.MayBeLast := inferInstanceAs (Decidable (_ ∧ _))

/-- The first rows of a surface that passes do so exactly when the last of them needs no
successor. -/
theorem validateQualityRows_beginning {xs ys : List QualityRow}
    (h : validateQualityRows (xs ++ ys) = .ok ()) :
    validateQualityRows xs = .ok () ↔ ∀ row ∈ xs.getLast?, row.toGridRow.MayBeLast := by
  simp only [validateQualityRows, Except.bind_eq_ok, reject_eq_ok, List.map_append] at h ⊢
  obtain ⟨_, hflags, _, hunavailable, _, hquarantined, _, hflat, _, hfilled, _, hstart, _, hsegments,
    hentry⟩ := h
  have hlastFilled := checkFilledRows_beginning hfilled
  have hlastGap := checkSegments_beginning hsegments
  have hentryStart : xs.map (fun row => row.entryDataValid) = expectedEntry xs := by
    obtain ⟨zs, hzs⟩ := expectedEntry_causal.stable xs ys
    rw [← hzs] at hentry
    exact (List.append_inj (not_not.mp hentry)
      (by rw [List.length_map, expectedEntry_causal.length])).1
  have hsame : (∀ row ∈ xs.getLast?, row.toGridRow.MayBeLast) ↔
      checkFilledRows none (xs.map fun row => row.toGridRow) = .ok () ∧
        checkSegments none 0 (xs.map fun row => row.toGridRow) = .ok () := by
    rw [hlastFilled, hlastGap]
    simp only [List.getLast?_map, Option.mem_def, Option.map_eq_some_iff, GridRow.MayBeLast]
    constructor
    · intro hlast
      constructor
      · rintro _ ⟨row, hrow, rfl⟩
        exact (hlast row hrow).1
      · rintro _ ⟨row, hrow, rfl⟩
        exact (hlast row hrow).2
    · rintro ⟨hnotFilled, hnotGap⟩ row hrow
      exact ⟨hnotFilled _ ⟨row, hrow, rfl⟩, hnotGap _ ⟨row, hrow, rfl⟩⟩
  rw [hsame]
  constructor
  · rintro ⟨_, _, _, _, _, _, _, _, _, hok, _, _, _, hsegmentsOk, _⟩
    exact ⟨hok, hsegmentsOk⟩
  · rintro ⟨hok, hsegmentsOk⟩
    refine ⟨(), ?_, (), ?_, (), ?_, (), ?_, (), hok, (), ?_, (), hsegmentsOk, not_not.mpr hentryStart⟩
    · rintro ⟨row, hrow, hbad⟩
      exact hflags ⟨row, List.mem_append_left _ hrow, hbad⟩
    · rintro ⟨row, hrow, hbad⟩
      exact hunavailable ⟨row, List.mem_append_left _ hrow, hbad⟩
    · rintro ⟨row, hrow, hbad⟩
      exact hquarantined ⟨row, List.mem_append_left _ hrow, hbad⟩
    · rintro ⟨row, hrow, hbad⟩
      exact hflat ⟨row, List.mem_append_left _ hrow, hbad⟩
    · rintro ⟨row, hrow, hne⟩
      refine hstart ⟨row, ?_, hne⟩
      rw [List.head?_append, Option.mem_def.mp hrow]
      rfl

end Rows

section Frames

variable {Cell : Type} {pd : Pandas Cell} {n : ℕ} {part whole : Frame Cell}

/-- The first values of a column. -/
def Column.take (n : ℕ) : Column Cell → Column Cell
  | numbers values => numbers (values.take n)
  | integers values => integers (values.take n)
  | booleans values => booleans (values.take n)
  | objects values => objects (values.take n)

/-- The numbers of the beginning of a column are the beginning of its numbers. -/
theorem Column.numeric_take (column : Column Cell) :
    (column.take n).numeric pd = (column.numeric pd).take n := by
  cases column <;> simp [Column.take, Column.numeric]

/-- The flags of the beginning of a column are the beginning of its flags. -/
theorem Column.flags_take (column : Column Cell) :
    (column.take n).flags = column.flags.map (List.take n) := by
  cases column <;> rfl

/-- A missing number in the beginning of a column is missing in the column. -/
theorem Column.coercedMissing_of_take {column : Column Cell}
    (h : (column.take n).coercedMissing pd = true) : column.coercedMissing pd = true := by
  cases column with
  | objects values =>
    simp only [Column.take, Column.coercedMissing, List.any_eq_true] at h ⊢
    obtain ⟨value, hvalue, hmissing⟩ := h
    exact ⟨value, List.mem_of_mem_take hvalue, hmissing⟩
  | numbers | integers | booleans => cases h

/-- A frame that has the columns of another, with their first values. -/
structure Frame.Beginning (n : ℕ) (part whole : Frame Cell) : Prop where
  index : ∀ utc asi8, whole.index = .datetime utc asi8 → part.index = .datetime utc (asi8.take n)
  column : ∀ name, part.column name = (whole.column name).map (Column.take n)

namespace Frame.Beginning

variable (h : Frame.Beginning n part whole)
include h

/-- The beginning of a frame has the same columns. -/
theorem isSome (name : String) : (part.column name).isSome = (whole.column name).isSome := by
  rw [h.column, Option.isSome_map]

/-- The beginning of a frame has the beginning of each numeric column. -/
theorem numeric (name : String) : part.numeric pd name = (whole.numeric pd name).take n := by
  rw [Frame.numeric, Frame.numeric, h.column]
  cases whole.column name with
  | none => simp
  | some column => exact column.numeric_take

/-- The beginning of a frame has the beginning of each column of flags. -/
theorem flags (name : String) : part.flags name = (whole.flags name).take n := by
  rw [Frame.flags, Frame.flags, h.column]
  cases whole.column name with
  | none => simp
  | some column =>
    rw [Option.map_some, Option.bind_some, Option.bind_some, column.flags_take]
    cases column.flags <;> simp

/-- The beginning of a frame has the beginning of its bars. -/
theorem ohlcv : part.ohlcv pd = (whole.ohlcv pd).take n := by
  simp only [Frame.ohlcv, h.numeric, List.zip, ← List.take_zipWith, List.map_take]

/-- The beginning of a frame has the beginning of its quality rows. -/
theorem qualityRows (times : List ℤ) (bars : List (Ohlcv Reading)) :
    part.qualityRows pd (times.take n) (bars.take n) = (whole.qualityRows pd times bars).take n := by
  simp only [Frame.qualityRows, h.numeric, h.flags, List.zip, ← List.take_zipWith, List.map_take]

end Frame.Beginning

/-- Cutting a frame with increasing instants off at one of them leaves its first rows. -/
theorem loc_beginning {unit stop : ℤ} {times : List ℤ} (hunit : 0 < unit)
    (hindex : whole.index = .datetime true (times.map some)) (htimes : times.Pairwise (· < ·)) :
    Frame.Beginning (times.countP fun instant => instant * unit < stop)
      (whole.loc (whole.index.values.map fun value =>
        value.any fun instant => instant * unit < stop)) whole := by
  have hmask : (whole.index.values.map fun value =>
      value.any fun instant => decide (instant * unit < stop)) =
      times.map fun instant => decide (instant * unit < stop) := by
    simp [hindex, FrameIndex.values, Function.comp_def]
  have hdecreasing : times.Pairwise fun a b =>
      decide (b * unit < stop) = true → decide (a * unit < stop) = true := by
    refine htimes.imp ?_
    intro a b hab hb
    have hmul := mul_lt_mul_of_pos_right hab hunit
    simp only [decide_eq_true_eq] at hb ⊢
    omega
  rw [hmask]
  constructor
  · intro utc asi8 hwhole
    obtain ⟨rfl, rfl⟩ := FrameIndex.datetime.inj (hindex.symm.trans hwhole)
    have hkept := @keep_beginning _ _ _ _ hdecreasing (times.map some) (by simp)
    calc (whole.loc _).index = whole.index.loc _ := rfl
      _ = .datetime true _ := by rw [hindex, FrameIndex.loc, hkept]
  · intro name
    have hlength : ∀ column ∈ whole.columns, column.2.length = times.length := by
      intro column hcolumn
      simpa [hindex, FrameIndex.length] using whole.aligned column hcolumn
    have hloc : ∀ column : Column Cell, column.length = times.length →
        column.loc (times.map fun instant => decide (instant * unit < stop)) =
          column.take (times.countP fun instant => instant * unit < stop) := by
      intro column hcolumn
      cases column <;>
        exact congrArg _ (keep_beginning hdecreasing (by simpa [Column.length] using hcolumn))
    simp only [Frame.column, Frame.loc, List.find?_map, Option.map_map, Function.comp_def]
    cases hfind : whole.columns.find? fun column => decide (column.1 = name) with
    | none => rfl
    | some column =>
      have hmem := List.mem_of_find?_eq_some hfind
      simpa using hloc column.2 (hlength column hmem)

/-- `present_quality`. -/
def Frame.presentQuality (frame : Frame Cell) : List String :=
  qualityColumns.filter fun name => (frame.column name).isSome

/-- A frame with numeric columns has the same columns. -/
theorem column_withNumeric (pd : Pandas Cell) (frame : Frame Cell) (name : String) :
    (frame.withNumeric pd).column name = (frame.column name).map fun column =>
      if name ∈ ohlcvColumns then .numbers (column.numeric pd) else column := by
  rw [Frame.column, Frame.column, Frame.withNumeric, List.find?_map, Option.map_map, Option.map_map]
  change Option.map _ (frame.columns.find? fun column => column.1 = name) = _
  cases hfind : frame.columns.find? fun column => column.1 = name with
  | none => rfl
  | some column =>
    obtain rfl : column.1 = name := by simpa using List.find?_some hfind
    rfl

/-- The numbers in them are the same. -/
theorem numeric_withNumeric (pd : Pandas Cell) (frame : Frame Cell) {name : String}
    (hname : name ∈ ohlcvColumns) :
    (frame.withNumeric pd).numeric pd name = frame.numeric pd name := by
  rw [Frame.numeric, Frame.numeric, column_withNumeric]
  cases frame.column name with
  | none => rfl
  | some column => simp [hname, Column.numeric]

/-- So are the bars. -/
theorem ohlcv_withNumeric (pd : Pandas Cell) (frame : Frame Cell) :
    (frame.withNumeric pd).ohlcv pd = frame.ohlcv pd := by
  have hsame {name : String} (hname : name ∈ ohlcvColumns) :=
    numeric_withNumeric pd frame hname
  rw [Frame.ohlcv, Frame.ohlcv, @hsame "open" (by decide), @hsame "high" (by decide),
    @hsame "low" (by decide), @hsame "close" (by decide), @hsame "volume" (by decide)]

/-- So are the quality columns. -/
theorem presentQuality_withNumeric (pd : Pandas Cell) (frame : Frame Cell) :
    (frame.withNumeric pd).presentQuality = frame.presentQuality := by
  simp only [Frame.presentQuality, column_withNumeric, Option.isSome_map]

/-- What a frame that is accepted for a walk-forward run satisfies. -/
structure Acceptable (pd : Pandas Cell) (frame : Frame Cell) (times : List ℤ) : Prop where
  present : ∀ name ∈ ohlcvColumns, (frame.column name).isSome = true
  index : validatedUtcIndex frame.index "frame" = .ok times
  nonempty : times ≠ []
  numeric : ∀ name ∈ ohlcvColumns, ∀ column ∈ frame.column name, column.coercedMissing pd = false
  finite : ∀ bar ∈ frame.ohlcv pd, ∀ value ∈ bar.toList, value.isInfinite = false
  whole : ∀ bar ∈ frame.ohlcv pd, (bar.isAvailable || bar.isUnavailable) = true
  available : validateAvailableOhlcv ((frame.ohlcv pd).filter (·.isAvailable)) = .ok ()
  complete : frame.presentQuality = [] ∨ frame.presentQuality = qualityColumns
  flagged : (∃ bar ∈ frame.ohlcv pd, bar.isUnavailable = true) → frame.presentQuality ≠ []
  quality : frame.presentQuality ≠ [] →
    validateQualitySurface pd frame times (frame.ohlcv pd) = .ok ()

/-- Validation accepts exactly the acceptable frames, and returns them with numeric columns. -/
theorem validateWalkForwardFrame_eq_ok {frame accepted : Frame Cell} :
    validateWalkForwardFrame pd frame = .ok accepted ↔
      accepted = frame.withNumeric pd ∧ ∃ times, Acceptable pd frame times := by
  simp only [validateWalkForwardFrame, Except.bind_eq_ok, reject_eq_ok]
  constructor
  · rintro ⟨_, hpresent, times, hindex, _, hnonempty, _, hnumeric, _, hfinite, _, hwhole, _,
      havailable, _, hcomplete, _, hflagged, hquality⟩
    have hsplit : accepted = frame.withNumeric pd ∧ (frame.presentQuality ≠ [] →
        validateQualitySurface pd frame times (frame.ohlcv pd) = .ok ()) := by
      split at hquality
      · obtain ⟨_, hsurface, hreturn⟩ := Except.bind_eq_ok.mp hquality
        exact ⟨(Except.pure_eq_ok.mp hreturn).symm, fun _ => hsurface⟩
      · next habsent => exact ⟨(Except.pure_eq_ok.mp hquality).symm, fun h => absurd h habsent⟩
    refine ⟨hsplit.1, times, ?_, hindex, hnonempty, ?_, ?_, ?_, havailable, ?_, ?_, hsplit.2⟩
    · simpa [List.filter_eq_nil_iff, Option.isSome_iff_ne_none] using hpresent
    · intro name hname column hcolumn
      by_contra hmissing
      exact hnumeric ⟨column, List.mem_filterMap.mpr ⟨name, hname, hcolumn⟩, by simpa using hmissing⟩
    · intro bar hbar value hvalue
      by_contra hinfinite
      exact hfinite ⟨bar, hbar, value, hvalue, by simpa using hinfinite⟩
    · intro bar hbar
      by_contra hpartial
      exact hwhole ⟨bar, hbar, hpartial⟩
    · exact (em (frame.presentQuality = [])).imp id fun h => not_not.mp fun hne => hcomplete ⟨h, hne⟩
    · exact fun hunavailable habsent => hflagged ⟨hunavailable, habsent⟩
  · rintro ⟨rfl, times, h⟩
    refine ⟨(), ?_, times, h.index, (), h.nonempty, (), ?_, (), ?_, (), ?_, (), h.available, (), ?_,
      (), ?_, ?_⟩
    · simpa [List.filter_eq_nil_iff, Option.isSome_iff_ne_none] using h.present
    · rintro ⟨column, hcolumn, hmissing⟩
      obtain ⟨name, hname, hcolumn⟩ := List.mem_filterMap.mp hcolumn
      rw [h.numeric name hname column hcolumn] at hmissing
      cases hmissing
    · rintro ⟨bar, hbar, value, hvalue, hinfinite⟩
      rw [h.finite bar hbar value hvalue] at hinfinite
      cases hinfinite
    · rintro ⟨bar, hbar, hpartial⟩
      exact hpartial (h.whole bar hbar)
    · rintro ⟨hpresent, hincomplete⟩
      rcases h.complete with hnil | hall
      · exact hpresent hnil
      · exact hincomplete hall
    · rintro ⟨hunavailable, habsent⟩
      exact h.flagged hunavailable habsent
    · change (if frame.presentQuality ≠ [] then _ else _) = _
      by_cases hpresent : frame.presentQuality = []
      · rw [if_neg (not_not.mpr hpresent)]
        rfl
      · rw [if_pos hpresent, Except.bind_eq_ok]
        exact ⟨(), h.quality hpresent, rfl⟩

/-- What `validateAvailableOhlcv` accepts, it accepts in part. -/
theorem validateAvailableOhlcv_subset {rows others : List (Ohlcv Reading)} (hsub : rows ⊆ others)
    (h : validateAvailableOhlcv others = .ok ()) : validateAvailableOhlcv rows = .ok () := by
  simp only [validateAvailableOhlcv, Except.bind_eq_ok, reject_eq_ok, not_or] at h ⊢
  obtain ⟨_, hpositive, _, hvolume, hhigh, hlow⟩ := h
  refine ⟨(), ?_, (), ?_, ?_, ?_⟩
  · rintro ⟨bar, hbar, hbad⟩
    exact hpositive ⟨bar, hsub hbar, hbad⟩
  · rintro ⟨bar, hbar, hbad⟩
    exact hvolume ⟨bar, hsub hbar, hbad⟩
  · rintro ⟨bar, hbar, hbad⟩
    exact hhigh ⟨bar, hsub hbar, hbad⟩
  · rintro ⟨bar, hbar, hbad⟩
    exact hlow ⟨bar, hsub hbar, hbad⟩

/-- The rows of a frame with quality columns. -/
def Frame.rows (pd : Pandas Cell) (frame : Frame Cell) : List QualityRow :=
  frame.qualityRows pd frame.index.values.reduceOption (frame.ohlcv pd)

/-- The instants of an acceptable frame are those of its index. -/
theorem Acceptable.times_eq {frame : Frame Cell} {times : List ℤ} (h : Acceptable pd frame times) :
    frame.index.values.reduceOption = times := by
  obtain ⟨hindex, _⟩ := validatedUtcIndex_eq_ok.mp h.index
  rw [hindex, FrameIndex.values, reduceOption_map_some]

/-- Without quality columns there are no such rows. -/
theorem Frame.rows_of_absent {frame : Frame Cell} (h : frame.presentQuality = []) :
    frame.rows pd = [] := by
  have habsent : frame.column "is_filled" = none := by
    have hall := List.filter_eq_nil_iff.mp h "is_filled" (by decide)
    simpa using hall
  simp [Frame.rows, Frame.qualityRows, Frame.flags, habsent]

/-- The beginning of a frame has the same quality columns. -/
theorem Frame.Beginning.presentQuality (h : Frame.Beginning n part whole) :
    part.presentQuality = whole.presentQuality := by
  simp only [Frame.presentQuality, h.isSome]

/-- The surface of a beginning passes exactly when its last row needs no successor. -/
theorem validateQualitySurface_beginning (h : Frame.Beginning n part whole) {times : List ℤ}
    {bars : List (Ohlcv Reading)}
    (hwhole : validateQualitySurface pd whole times bars = .ok ()) :
    validateQualitySurface pd part (times.take n) (bars.take n) = .ok () ↔
      ∀ row ∈ (part.qualityRows pd (times.take n) (bars.take n)).getLast?,
        row.toGridRow.MayBeLast := by
  simp only [validateQualitySurface, Except.bind_eq_ok, reject_eq_ok, Except.forM_eq_ok] at hwhole ⊢
  obtain ⟨_, hflags, _, hsegments, hrows⟩ := hwhole
  have hlast := @validateQualityRows_beginning ((whole.qualityRows pd times bars).take n)
    ((whole.qualityRows pd times bars).drop n) (by rw [List.take_append_drop]; exact hrows)
  rw [h.qualityRows, ← hlast]
  constructor
  · rintro ⟨_, _, _, _, hok⟩
    exact hok
  · intro hok
    refine ⟨(), ?_, (), ?_, hok⟩
    · intro name hname
      have hboolean := hflags name hname
      rw [h.column]
      cases hcolumn : whole.column name with
      | none => simp [hcolumn] at hboolean
      | some column => simpa [hcolumn, column.flags_take] using hboolean
    · rintro ⟨value, hvalue, hbad⟩
      rw [h.numeric] at hvalue
      exact hsegments ⟨value, List.mem_of_mem_take hvalue, hbad⟩

/-- The beginning of an acceptable frame is acceptable exactly when its last row needs no
successor. -/
theorem Acceptable.beginning {times : List ℤ} (hwhole : Acceptable pd whole times)
    (h : Frame.Beginning n part whole) (hn : 0 < n) :
    (∃ times, Acceptable pd part times) ↔
      ∀ row ∈ (part.rows pd).getLast?, row.toGridRow.MayBeLast := by
  obtain ⟨hindex, hincreasing, hspacing, haligned⟩ := validatedUtcIndex_eq_ok.mp hwhole.index
  have hpart : part.index = .datetime true ((times.take n).map some) := by
    rw [h.index _ _ hindex, List.map_take]
  have htimes : part.index.values.reduceOption = times.take n := by
    rw [hpart, FrameIndex.values, reduceOption_map_some]
  have hsurface : whole.presentQuality ≠ [] →
      (validateQualitySurface pd part (times.take n) (part.ohlcv pd) = .ok () ↔
        ∀ row ∈ (part.rows pd).getLast?, row.toGridRow.MayBeLast) := by
    intro hpresent
    rw [Frame.rows, htimes, h.ohlcv]
    exact validateQualitySurface_beginning h (hwhole.quality hpresent)
  constructor
  · rintro ⟨others, hothers⟩
    obtain rfl : times.take n = others := htimes.symm.trans hothers.times_eq
    by_cases habsent : part.presentQuality = []
    · simp [Frame.rows_of_absent habsent]
    · exact (hsurface (by rwa [← h.presentQuality])).mp (hothers.quality habsent)
  · intro hlast
    have hsubset : part.ohlcv pd ⊆ whole.ohlcv pd := by
      rw [h.ohlcv]
      exact List.take_subset n _
    refine ⟨times.take n, ?_, ?_, ?_, ?_, ?_, ?_, ?_, ?_, ?_, ?_⟩
    · intro name hname
      rw [h.isSome]
      exact hwhole.present name hname
    · exact validatedUtcIndex_eq_ok.mpr ⟨hpart, hincreasing.take, hspacing.take n,
        fun value hvalue => haligned value (List.mem_of_mem_take hvalue)⟩
    · obtain ⟨first, rest, rfl⟩ := List.exists_cons_of_ne_nil hwhole.nonempty
      obtain ⟨m, rfl⟩ := Nat.exists_eq_succ_of_ne_zero hn.ne'
      simp
    · intro name hname column hcolumn
      rw [h.column, Option.mem_def, Option.map_eq_some_iff] at hcolumn
      obtain ⟨original, horiginal, rfl⟩ := hcolumn
      by_contra hmissing
      have hcoerced := Column.coercedMissing_of_take (Bool.not_eq_false _ |>.mp hmissing)
      rw [hwhole.numeric name hname original horiginal] at hcoerced
      cases hcoerced
    · exact fun bar hbar => hwhole.finite bar (hsubset hbar)
    · exact fun bar hbar => hwhole.whole bar (hsubset hbar)
    · refine validateAvailableOhlcv_subset ?_ hwhole.available
      intro bar hbar
      obtain ⟨hmem, havailable⟩ := List.mem_filter.mp hbar
      exact List.mem_filter.mpr ⟨hsubset hmem, havailable⟩
    · rw [h.presentQuality]
      exact hwhole.complete
    · rw [h.presentQuality]
      rintro ⟨bar, hbar, hunavailable⟩
      exact hwhole.flagged ⟨bar, hsubset hbar, hunavailable⟩
    · rw [h.presentQuality]
      exact fun hpresent => (hsurface hpresent).mpr hlast

/-- An end after the first instant and not after the close of the last candle leaves the
rows before it. -/
theorem applyWalkForwardEnd_inside {unit stop first last : ℤ} {times : List ℤ} (hunit : 0 < unit)
    (hindex : whole.index = .datetime true (times.map some)) (htimes : times.Pairwise (· < ·))
    (hfirst : first ∈ times.head?) (hlast : last ∈ times.getLast?) (hstart : first * unit < stop)
    (hend : stop ≤ last * unit + frequency) :
    ∃ kept, applyWalkForwardEnd unit whole (some stop) = .ok kept ∧
      Frame.Beginning (times.countP fun instant => instant * unit < stop) kept whole ∧
      0 < times.countP fun instant => instant * unit < stop := by
  have hbeginning : Frame.Beginning (times.countP fun instant => instant * unit < stop)
      (whole.loc (whole.index.values.map fun value =>
        value.any fun instant => instant * unit < stop)) whole :=
    loc_beginning hunit hindex htimes
  have hpos : 0 < times.countP fun instant => instant * unit < stop :=
    List.countP_pos_iff.mpr ⟨first, List.mem_of_mem_head? hfirst, by simpa using hstart⟩
  have hlength : times.countP (fun instant => instant * unit < stop) ≤ times.length :=
    List.countP_le_length
  refine ⟨_, ?_, hbeginning, hpos⟩
  simp only [applyWalkForwardEnd, Except.bind_eq_ok, require_eq_ok, reject_eq_ok, Except.pure_eq_ok]
  refine ⟨some last, ?_, (), ?_, (), ?_, trivial⟩
  · simp [hindex, FrameIndex.values, List.getLast?_map, Option.mem_def.mp hlast]
  · simpa using hend
  · rw [hbeginning.index _ _ hindex]
    simp only [FrameIndex.length, List.length_take, List.length_map]
    omega

/-- For every end inside the coverage of an accepted frame, the rows before it are again
accepted exactly when the last of them, if there are quality columns, is neither filled nor in
a long gap. -/
theorem walk_forward_end_iff (pd : Pandas Cell) (frame accepted : Frame Cell) (unit : ℤ)
    (times : List ℤ) (first last stop : ℤ)
    (haccepted : validateWalkForwardFrame pd frame = .ok accepted)
    (hunit : 0 < unit) (htimes : frame.index.values = times.map some)
    (hfirst : first ∈ times.head?) (hlast : last ∈ times.getLast?)
    (hstart : first * unit < stop) (hend : stop ≤ last * unit + frequency) :
    ∃ kept, applyWalkForwardEnd unit frame (some stop) = .ok kept ∧
      ((∃ again, validateWalkForwardFrame pd kept = .ok again) ↔
        ∀ row ∈ (kept.rows pd).getLast?, row.toGridRow.MayBeLast) := by
  obtain ⟨_, times', hframe⟩ := validateWalkForwardFrame_eq_ok.mp haccepted
  obtain ⟨hindex, hincreasing, _, _⟩ := validatedUtcIndex_eq_ok.mp hframe.index
  obtain rfl : times = times' := by
    have hvalues := hframe.times_eq
    rwa [htimes, reduceOption_map_some] at hvalues
  obtain ⟨kept, hkept, hbeginning, hpos⟩ := applyWalkForwardEnd_inside hunit hindex hincreasing
    hfirst hlast hstart hend
  refine ⟨kept, hkept, ?_⟩
  rw [← hframe.beginning hbeginning hpos]
  constructor
  · rintro ⟨again, hagain⟩
    exact (validateWalkForwardFrame_eq_ok.mp hagain).2
  · rintro hacceptable
    exact ⟨_, validateWalkForwardFrame_eq_ok.mpr ⟨rfl, hacceptable⟩⟩

end Frames

/-- Two candles with one missing between them. -/
def aroundGap : List ObservedRow :=
  [⟨0, ⟨.number 30, .number 40, .number 20, .number 30, .number 1⟩, false⟩,
    ⟨2 * frequency, ⟨.number 3, .number 4, .number 2, .number 3, .number 1⟩, false⟩]

/-- The same with the missing candle filled. -/
def oneFilled : List QualityRow :=
  setEntryDataValid ((reindexAndFillSingleGaps aroundGap).rows.map
    (flagSpikesAndFlatBars defaultSpikeRangeRatio))

/-- A frame with one filled row is accepted. -/
theorem oneFilled_accepted :
    validateWalkForwardFrame wholeNumbers (frameOf oneFilled : Frame ℤ) =
      .ok (frameOf oneFilled) := by
  refine (soundFrame_of_observed (by decide +kernel) (by simp [aroundGap]) ?_ (by decide)).accepted
  intro row hrow
  refine .inr ⟨?_, ?_, ?_⟩
  · revert row
    decide
  · revert row
    decide +kernel
  · intro value hvalue
    simp only [aroundGap, List.mem_cons, List.not_mem_nil, or_false] at hrow
    rcases hrow with rfl | rfl <;>
      · simp only [Ohlcv.toList, Ohlcv.prices, List.cons_append, List.nil_append, List.mem_cons,
          List.not_mem_nil, or_false] at hvalue
        rcases hvalue with rfl | rfl | rfl | rfl | rfl <;> exact ⟨_, rfl⟩

/-- Cutting an accepted frame off after a filled candle leaves one that is refused. -/
theorem not_walk_forward_end_accepted :
    ¬∀ (frame accepted : Frame ℤ) (times : List ℤ) (first last stop : ℤ),
      validateWalkForwardFrame wholeNumbers frame = .ok accepted →
      frame.index.values = times.map some → first ∈ times.head? → last ∈ times.getLast? →
      stop % frequency = 0 → first < stop → stop ≤ last + frequency →
      ∃ kept again, applyWalkForwardEnd 1 frame (some stop) = .ok kept ∧
        validateWalkForwardFrame wholeNumbers kept = .ok again := by
  intro hclaim
  obtain ⟨kept, again, hkept, hagain⟩ := hclaim (frameOf oneFilled) _
    [0, frequency, 2 * frequency] 0 (2 * frequency) (2 * frequency) oneFilled_accepted
    (by decide +kernel) (by decide) (by decide) (by decide) (by decide) (by decide)
  have hrefused : ((applyWalkForwardEnd 1 (frameOf oneFilled : Frame ℤ)
      (some (2 * frequency))).bind (validateWalkForwardFrame wholeNumbers)).isOk = false := by
    decide +kernel
  rw [hkept, Except.bind, hagain] at hrefused
  cases hrefused

/-- An end after the first row of a frame with one filled row. -/
theorem walk_forward_end_iff_one_filled :
    ∃ kept, applyWalkForwardEnd 1 (frameOf oneFilled : Frame ℤ) (some frequency) = .ok kept ∧
      ((∃ again, validateWalkForwardFrame wholeNumbers kept = .ok again) ↔
        ∀ row ∈ (kept.rows wholeNumbers).getLast?, row.toGridRow.MayBeLast) :=
  walk_forward_end_iff wholeNumbers (frameOf oneFilled) (frameOf oneFilled) 1
    [0, frequency, 2 * frequency] 0 (2 * frequency) frequency oneFilled_accepted (by decide)
    (by decide +kernel) (by decide) (by decide) (by decide) (by decide)

end AutoBit.Data
