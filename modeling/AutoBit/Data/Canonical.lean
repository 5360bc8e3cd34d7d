import AutoBit.Data.Quality
import AutoBit.Library.Loop

/-!
# What canonicalization makes of the raw rows

The completed rows are in strictly increasing order, and each comes from a raw row, so they
are determined by the set of raw rows alone. The grid then runs from the first of them to
the last.
-/

namespace AutoBit.Data

open Library Risk

section Unique

variable {α : Type}

/-- What is kept of duplicates is among the rows. -/
theorem mem_of_mem_keepFirst {rows : List (ℤ × α)} {row : ℤ × α} (h : row ∈ keepFirst rows) :
    row ∈ rows := by
  induction rows with
  | nil => exact h
  | cons first rest ih =>
    rcases List.mem_cons.mp h with rfl | h
    · exact List.mem_cons_self
    · exact List.mem_cons_of_mem _ (ih (List.mem_filter.mp h).1)

/-- Rows that do not conflict are kept, up to repetition. -/
theorem mem_keepFirst {rows : List (ℤ × α)} {row : ℤ × α}
    (hsame : ∀ a ∈ rows, ∀ b ∈ rows, a.1 = b.1 → a.2 = b.2) (h : row ∈ rows) :
    row ∈ keepFirst rows := by
  induction rows with
  | nil => exact h
  | cons first rest ih =>
    rw [keepFirst, List.mem_cons]
    by_cases htime : row.1 = first.1
    · exact .inl (Prod.ext htime (hsame row h first List.mem_cons_self htime))
    · rcases List.mem_cons.mp h with rfl | hrest
      · exact absurd rfl htime
      · have hkept := ih (fun a ha b hb => hsame a (by simp [ha]) b (by simp [hb])) hrest
        exact .inr (List.mem_filter.mpr ⟨hkept, by simpa using htime⟩)

/-- What is left of sorted rows increases strictly. -/
theorem keepFirst_pairwise {rows : List (ℤ × α)} (h : rows.Pairwise fun a b => a.1 ≤ b.1) :
    (keepFirst rows).Pairwise fun a b => a.1 < b.1 := by
  induction rows with
  | nil => exact List.Pairwise.nil
  | cons first rest ih =>
    obtain ⟨hfirst, hrest⟩ := List.pairwise_cons.mp h
    refine List.pairwise_cons.mpr ⟨?_, (ih hrest).filter _⟩
    intro row hrow
    obtain ⟨hkept, hother⟩ := List.mem_filter.mp hrow
    have hle := hfirst row (mem_of_mem_keepFirst hkept)
    have hne : row.1 ≠ first.1 := by simpa using hother
    omega

/-- Sorted rows are in order. -/
theorem sortIndex_pairwise (rows : List (ℤ × α)) :
    (sortIndex rows).Pairwise fun a b => a.1 ≤ b.1 := by
  have : Std.Total fun a b : ℤ × α => a.1 ≤ b.1 := ⟨fun a b => le_total a.1 b.1⟩
  have : IsTrans (ℤ × α) fun a b => a.1 ≤ b.1 := ⟨fun _ _ _ => le_trans⟩
  exact List.pairwise_insertionSort _ _

/-- Sorting keeps the rows. -/
theorem mem_sortIndex {rows : List (ℤ × α)} {row : ℤ × α} : row ∈ sortIndex rows ↔ row ∈ rows :=
  List.mem_insertionSort _

end Unique

/-- Rows in strictly increasing order are determined by which rows there are. -/
theorem eq_of_increasing {xs ys : List ObservedRow}
    (hxs : xs.Pairwise fun a b => a.time < b.time) (hys : ys.Pairwise fun a b => a.time < b.time)
    (h : ∀ row, row ∈ xs ↔ row ∈ ys) : xs = ys := by
  have : Std.Irrefl fun a b : ObservedRow => a.time < b.time := ⟨fun a => lt_irrefl a.time⟩
  have : Std.Antisymm fun a b : ObservedRow => a.time < b.time :=
    ⟨fun _ _ hab hba => absurd hab hba.asymm⟩
  exact List.Pairwise.eq_of_mem_iff hxs hys h

section Complete

variable {Cell : Type} {pd : Pandas Cell} {raw : RawFrame Cell}

/-- The row that is observed where a raw row stands, values quarantined. -/
def observe (pd : Pandas Cell) (columns : List String) (row : Stamp × List Cell) :
    Option ObservedRow := do
  let time ← row.1.time?
  let bar ← Ohlcv.ofList (selectOhlcv (columns.map normalizeColumn) row.2)
  return quarantineInvalidValues (time, bar.map pd.toNumeric)

/-- An observed row has an instant and a bar, whose numbers are its values. -/
theorem observe_eq_some {columns : List String} {row : Stamp × List Cell} {seen : ObservedRow} :
    observe pd columns row = some seen ↔ ∃ time bar, row.1 = .time time ∧
      Ohlcv.ofList (selectOhlcv (columns.map normalizeColumn) row.2) = some bar ∧
      seen = quarantineInvalidValues (time, bar.map pd.toNumeric) := by
  obtain ⟨stamp, cells⟩ := row
  simp only [observe, Option.bind_eq_bind, Option.bind_eq_some_iff, Option.pure_def,
    Option.some.injEq, eq_comm (b := seen)]
  cases stamp <;> simp [Stamp.time?]

/-- The rows that were complete at an instant: they come from the raw rows, in strictly
increasing order. -/
structure Completed (pd : Pandas Cell) (raw : RawFrame Cell) (now : ℤ)
    (complete : List ObservedRow) : Prop where
  increasing : complete.Pairwise fun a b => a.time < b.time
  aligned : ∀ row ∈ complete, row.time % frequency = 0
  mem_iff : ∀ row, row ∈ complete ↔
    (∃ original ∈ raw.rows, observe pd raw.columns original = some row) ∧
      row.time + frequency ≤ now
  readable : ∀ original ∈ raw.rows, ∃ row, observe pd raw.columns original = some row

/-- A row is indexed by its instant. -/
theorem asUtcIndex_eq_ok {timed : List (ℤ × List Cell)} (h : asUtcIndex raw = .ok timed) :
    (∀ row ∈ raw.rows, ∃ time, row.1 = .time time) ∧
      ∀ time cells, (time, cells) ∈ timed ↔ (Stamp.time time, cells) ∈ raw.rows := by
  simp only [asUtcIndex, Except.bind_eq_ok, reject_eq_ok, Except.pure_eq_ok] at h
  obtain ⟨_, hreadable, _, hpresent, _, _, rfl⟩ := h
  have hnone : (raw.rows.map Prod.fst).findSome? Stamp.error? = none := by
    unfold raiseUnreadable at hreadable
    split at hreadable
    · cases hreadable
    · assumption
  constructor
  · intro row hrow
    have hmem : row.1 ∈ raw.rows.map Prod.fst := List.mem_map_of_mem hrow
    have herror := List.findSome?_eq_none_iff.mp hnone row.1 hmem
    cases hstamp : row.1 with
    | unreadable message => simp [hstamp, Stamp.error?] at herror
    | missing => exact absurd (hstamp ▸ hmem) hpresent
    | time nanoseconds => exact ⟨nanoseconds, rfl⟩
  · intro time cells
    rw [List.mem_filterMap]
    constructor
    · rintro ⟨⟨stamp, other⟩, hrow, heq⟩
      cases stamp <;> simp_all [Stamp.time?]
    · intro hrow
      exact ⟨_, hrow, rfl⟩

/-- Coerced rows have the numbers of their cells. -/
theorem coerceFloat64_eq_ok {columns : List String} {rows : List (ℤ × List Cell)}
    {coerced : List (ℤ × Ohlcv Reading)} (h : coerceFloat64 pd columns rows = .ok coerced) :
    List.Forall₂ (fun row out => ∃ bar, Ohlcv.ofList row.2 = some bar ∧
      out = (row.1, bar.map pd.toNumeric)) rows coerced := by
  simp only [coerceFloat64, Except.bind_eq_ok, reject_eq_ok] at h
  obtain ⟨_, _, h⟩ := h
  refine (mapM_eq_ok.mp h).imp ?_
  intro row out hout
  obtain ⟨bar, hbar, rfl⟩ := Option.map_eq_some_iff.mp (require_eq_ok.mp hout)
  exact ⟨bar, hbar, rfl⟩

/-- Conversion and quarantine leave the instants of the rows. -/
theorem times_of_coerced {rows : List (ℤ × List Cell)} {coerced : List (ℤ × Ohlcv Reading)}
    (h : List.Forall₂ (fun row out => ∃ bar, Ohlcv.ofList row.2 = some bar ∧
      out = (row.1, bar.map pd.toNumeric)) rows coerced) :
    (coerced.map quarantineInvalidValues).map (fun row => row.time) = rows.map Prod.fst := by
  induction h with
  | nil => rfl
  | cons hhead _ ih =>
    obtain ⟨bar, _, rfl⟩ := hhead
    simpa [quarantineInvalidValues] using ih

/-- The rows that are quarantined one by one are those seen at the raw rows. -/
theorem mem_observed {columns : List String} {timed : List (ℤ × List Cell)}
    {coerced : List (ℤ × Ohlcv Reading)}
    (htimed : ∀ time cells, (time, cells) ∈ timed ↔ (Stamp.time time, cells) ∈ raw.rows)
    (hsame : ∀ a ∈ sortIndex (timed.map fun row => (row.1, selectOhlcv columns row.2)),
      ∀ b ∈ sortIndex (timed.map fun row => (row.1, selectOhlcv columns row.2)),
        a.1 = b.1 → a.2 = b.2)
    (hcoerced : List.Forall₂ (fun row out => ∃ bar, Ohlcv.ofList row.2 = some bar ∧
      out = (row.1, bar.map pd.toNumeric))
      (keepFirst (sortIndex (timed.map fun row => (row.1, selectOhlcv columns row.2)))) coerced)
    (hcolumns : columns = raw.columns.map normalizeColumn) :
    (∀ row, row ∈ coerced.map quarantineInvalidValues ↔
      ∃ original ∈ raw.rows, observe pd raw.columns original = some row) ∧
    ∀ time cells, (Stamp.time time, cells) ∈ raw.rows →
      ∃ row, observe pd raw.columns (.time time, cells) = some row := by
  subst hcolumns
  have hkept : ∀ time cells, (Stamp.time time, cells) ∈ raw.rows →
      ∃ bar, Ohlcv.ofList (selectOhlcv (raw.columns.map normalizeColumn) cells) = some bar ∧
        (time, bar.map pd.toNumeric) ∈ coerced := by
    intro time cells hraw
    have hsorted := mem_sortIndex.mpr
      (List.mem_map_of_mem (f := fun row : ℤ × List Cell =>
        (row.1, selectOhlcv (raw.columns.map normalizeColumn) row.2)) ((htimed _ _).mpr hraw))
    obtain ⟨out, hout, bar, hbar, rfl⟩ :=
      forall₂_exists_right hcoerced (mem_keepFirst hsame hsorted)
    exact ⟨bar, hbar, hout⟩
  refine ⟨fun row => ⟨?_, ?_⟩, ?_⟩
  · intro hrow
    obtain ⟨out, hout, rfl⟩ := List.mem_map.mp hrow
    obtain ⟨source, hsource, bar, hbar, rfl⟩ := forall₂_exists_left hcoerced hout
    obtain ⟨⟨time, cells⟩, hraw, rfl⟩ :=
      List.mem_map.mp (mem_sortIndex.mp (mem_of_mem_keepFirst hsource))
    exact ⟨_, (htimed _ _).mp hraw, observe_eq_some.mpr ⟨time, bar, rfl, hbar, rfl⟩⟩
  · rintro ⟨⟨stamp, cells⟩, hraw, hseen⟩
    obtain ⟨time, bar, hstamp, hbar, rfl⟩ := observe_eq_some.mp hseen
    obtain rfl : stamp = .time time := hstamp
    obtain ⟨bar', hbar', hout⟩ := hkept time cells hraw
    obtain rfl : bar' = bar := by
      rw [hbar] at hbar'
      exact (Option.some.inj hbar').symm
    exact List.mem_map_of_mem hout
  · intro time cells hraw
    obtain ⟨bar, hbar, _⟩ := hkept time cells hraw
    exact ⟨_, observe_eq_some.mpr ⟨time, bar, rfl, hbar, rfl⟩⟩

/-- The steps of an accepted canonicalization. -/
theorem canonicalizeOhlcv_eq_ok [DecidableEq Cell] {nowUtc : Option ℤ} {ratio : Reading}
    {result : QualityResult} (h : canonicalizeOhlcv pd raw nowUtc ratio = .ok result) :
    (ratio.isFinite = true ∧ (Reading.number 0).lt ratio = true) ∧
    ∃ now complete, nowUtc = some now ∧ Completed pd raw now complete ∧
      result.frame = setEntryDataValid
        ((reindexAndFillSingleGaps complete).rows.map (flagSpikesAndFlatBars ratio)) := by
  simp only [canonicalizeOhlcv, validateSpikeRangeRatio, validateFourHourBoundaries,
    deduplicateOrRaise, dropUnclosedLastBar, Except.bind_eq_ok, reject_eq_ok,
    require_eq_ok, Except.pure_eq_ok, not_not] at h
  obtain ⟨_, hratio, timed, htimed, _, hgrid, _, _, unique, ⟨_, hconflict, rfl⟩,
    coerced, hcoerced, complete, ⟨now, hnow, _, _, rfl⟩, rfl⟩ := h
  obtain ⟨hstamps, htimed⟩ := asUtcIndex_eq_ok htimed
  replace hcoerced := coerceFloat64_eq_ok hcoerced
  have htimes := times_of_coerced hcoerced
  obtain ⟨hmem, hread⟩ := mem_observed htimed
    (fun a ha b hb htime => by_contra fun hne => hconflict ⟨a, ha, b, hb, htime, hne⟩)
    hcoerced rfl
  refine ⟨hratio, now, _, hnow, ⟨?_, ?_, ?_, ?_⟩, rfl⟩
  · have hsorted := keepFirst_pairwise (sortIndex_pairwise
      (timed.map fun row => (row.1, selectOhlcv (raw.columns.map normalizeColumn) row.2)))
    rw [← List.pairwise_map, ← htimes, List.pairwise_map] at hsorted
    exact hsorted.filter _
  · intro row hrow
    obtain ⟨⟨stamp, cells⟩, hraw, hseen⟩ := (hmem row).mp (List.mem_filter.mp hrow).1
    obtain ⟨time, bar, hstamp, _, rfl⟩ := observe_eq_some.mp hseen
    obtain rfl : stamp = .time time := hstamp
    have hfst : time ∈ timed.map Prod.fst := List.mem_map.mpr ⟨_, (htimed _ _).mpr hraw, rfl⟩
    have haligned : time % frequency = 0 := by
      simpa using List.filter_eq_nil_iff.mp hgrid time hfst
    exact haligned
  · intro row
    rw [List.mem_filter, hmem]
    simp
  · rintro ⟨stamp, cells⟩ hraw
    obtain ⟨time, hstamp⟩ := hstamps _ hraw
    obtain rfl : stamp = .time time := hstamp
    exact hread time cells hraw

end Complete

section Grid

/-- The frequency is positive. -/
theorem frequency_pos : 0 < frequency := by decide

/-- The instants of a range are one bar apart. -/
theorem dateRange_isChain (first last : ℤ) :
    (dateRange first last).IsChain fun a b => b - a = frequency := by
  unfold dateRange
  rw [List.isChain_map]
  refine (List.isChain_range_succ _ _).mpr ?_
  intro k _
  push_cast
  ring

/-- A date range increases. -/
theorem dateRange_pairwise (first last : ℤ) : (dateRange first last).Pairwise (· < ·) := by
  unfold dateRange
  rw [List.pairwise_map]
  refine List.pairwise_lt_range.imp ?_
  intro i j hij
  have hlt : (i : ℤ) < j := by exact_mod_cast hij
  have := mul_lt_mul_of_pos_right hlt frequency_pos
  linarith

/-- A date range from a boundary holds boundaries only. -/
theorem mem_dateRange_aligned {first last time : ℤ} (hfirst : first % frequency = 0)
    (h : time ∈ dateRange first last) : time % frequency = 0 := by
  obtain ⟨k, _, rfl⟩ := List.mem_map.mp h
  simpa using hfirst

/-- A date range ends with its last instant. -/
theorem mem_dateRange_le {first last time : ℤ} (hle : first ≤ last)
    (h : time ∈ dateRange first last) : time ≤ last := by
  obtain ⟨k, hk, rfl⟩ := List.mem_map.mp h
  have hpos := frequency_pos
  have hquotient : (k : ℤ) ≤ (last - first) / frequency := by
    have hlt := List.mem_range.mp hk
    have hnonneg : 0 ≤ (last - first) / frequency := Int.ediv_nonneg (by omega) hpos.le
    omega
  have hproduct := (Int.le_ediv_iff_mul_le hpos).mp hquotient
  omega

/-- A date range begins with its first instant. -/
theorem dateRange_head (first last : ℤ) : ∃ rest, dateRange first last = first :: rest := by
  unfold dateRange
  rw [List.range_succ_eq_map]
  simp

/-- Between two instants of the grid the range ends at the later one. -/
theorem dateRange_getLast {first last : ℤ} (hle : first ≤ last) (hfirst : first % frequency = 0)
    (hlast : last % frequency = 0) : (dateRange first last).getLast? = some last := by
  unfold dateRange
  rw [List.range_succ, List.map_append, List.map_singleton, List.getLast?_append]
  have hpos := frequency_pos
  have hdvd : frequency ∣ last - first :=
    Int.dvd_sub (Int.dvd_of_emod_eq_zero hlast) (Int.dvd_of_emod_eq_zero hfirst)
  have hnonneg : 0 ≤ (last - first) / frequency := Int.ediv_nonneg (by omega) hpos.le
  simp only [List.getLast?_singleton, Option.some_or, Option.some.injEq]
  rw [Int.toNat_of_nonneg hnonneg, Int.ediv_mul_cancel hdvd]
  ring

/-- A range that ends earlier is the beginning of the range. -/
theorem dateRange_beginning {first middle last : ℤ} (hle : middle ≤ last) :
    dateRange first middle <+: dateRange first last := by
  unfold dateRange
  have hdiv : (middle - first) / frequency ≤ (last - first) / frequency :=
    Int.ediv_le_ediv frequency_pos (by omega)
  exact (range_beginning (by omega)).map _

/-- The rows on the grid from the first to the last instant that was observed. -/
theorem reindexAndFillSingleGaps_eq {rows : List ObservedRow} (hrows : rows ≠ []) :
    ∃ first ∈ rows, ∃ last ∈ rows,
      (∀ row ∈ rows, first.time ≤ row.time ∧ row.time ≤ last.time) ∧
      reindexAndFillSingleGaps rows =
        fillSingleGaps (reindex rows (dateRange first.time last.time)) none 0 := by
  have htimes : rows.map (fun row => row.time) ≠ [] := by simpa using hrows
  obtain ⟨low, hlow⟩ := Option.isSome_iff_exists.mp (List.isSome_min?_iff.mpr htimes)
  obtain ⟨high, hhigh⟩ := Option.isSome_iff_exists.mp (List.isSome_max?_iff.mpr htimes)
  obtain ⟨hlowmem, hlowle⟩ := List.min?_eq_some_iff.mp hlow
  obtain ⟨hhighmem, hhighle⟩ := List.max?_eq_some_iff.mp hhigh
  obtain ⟨first, hfirst, rfl⟩ := List.mem_map.mp hlowmem
  obtain ⟨last, hlast, rfl⟩ := List.mem_map.mp hhighmem
  refine ⟨first, hfirst, last, hlast, ?_, by simp [reindexAndFillSingleGaps, hlow, hhigh]⟩
  intro row hrow
  have hmem : row.time ∈ rows.map fun row => row.time := List.mem_map_of_mem hrow
  exact ⟨hlowle _ hmem, hhighle _ hmem⟩

/-- Reindexed rows have the instants of the index. -/
@[simp] theorem reindex_fst (rows : List ObservedRow) (index : List ℤ) :
    (reindex rows index).map Prod.fst = index := by
  simp [reindex, Function.comp_def]

/-- What stands at an instant of the grid was observed then. -/
theorem of_mem_reindex {rows : List ObservedRow} {index : List ℤ} {time : ℤ} {row : ObservedRow}
    (h : (time, some row) ∈ reindex rows index) : row ∈ rows ∧ row.time = time := by
  obtain ⟨instant, _, heq⟩ := List.mem_map.mp h
  obtain ⟨rfl, hfind⟩ := Prod.mk.inj heq
  exact ⟨List.mem_of_find?_eq_some hfind, by simpa using List.find?_some hfind⟩

/-- An instant that was observed is not inserted. -/
theorem not_inserted {rows : List ObservedRow} {row : ObservedRow} (h : row ∈ rows) :
    inserted (row.time, rows.find? fun other => other.time = row.time) = false := by
  have hfound : (rows.find? fun other => decide (other.time = row.time)).isSome = true :=
    List.find?_isSome.mpr ⟨row, h, by simp⟩
  simpa [inserted] using hfound

/-- The grid starts where the first row was observed. -/
theorem reindex_head {rows : List ObservedRow} {first : ObservedRow} (last : ℤ)
    (hfirst : first ∈ rows) :
    ∃ row later, reindex rows (dateRange first.time last) = (first.time, some row) :: later := by
  obtain ⟨rest, hrest⟩ := dateRange_head first.time last
  have hseen := not_inserted hfirst
  obtain ⟨row, hrow⟩ := Option.isSome_iff_exists.mp
    (by simpa [inserted] using hseen :
      (rows.find? fun other => decide (other.time = first.time)).isSome = true)
  refine ⟨row, reindex rows rest, ?_⟩
  rw [hrest, reindex, List.map_cons, hrow]
  rfl

/-- The grid ends with an observed row. -/
def Anchored (cells : List (ℤ × Option ObservedRow)) : Prop :=
  ∀ cell, cells.getLast? = some cell → inserted cell = false

/-- The later cells of anchored cells are anchored. -/
theorem Anchored.tail {cell : ℤ × Option ObservedRow} {rest : List (ℤ × Option ObservedRow)}
    (h : Anchored (cell :: rest)) : Anchored rest := by
  intro last hlast
  exact h last (by rw [List.getLast?_cons, hlast]; rfl)

/-- Anchored cells stay anchored when the first of them are dropped. -/
theorem Anchored.dropWhile {cells : List (ℤ × Option ObservedRow)} (h : Anchored cells)
    (p : ℤ × Option ObservedRow → Bool) : Anchored (cells.dropWhile p) := by
  induction cells with
  | nil => exact h
  | cons cell rest ih =>
    rw [List.dropWhile_cons]
    split_ifs
    · exact ih h.tail
    · exact h

/-- A gap is followed by an observed row. -/
theorem Anchored.after_gap {cell : ℤ × Option ObservedRow}
    {rest : List (ℤ × Option ObservedRow)} (h : Anchored (cell :: rest))
    (hcell : inserted cell = true) :
    ∃ time row later, rest.dropWhile inserted = (time, some row) :: later := by
  induction rest generalizing cell with
  | nil => exact absurd (h cell rfl) (by simp [hcell])
  | cons next later ih =>
    obtain ⟨time, _ | row⟩ := next
    · rw [List.dropWhile_cons_of_pos rfl]
      exact ih h.tail rfl
    · exact ⟨time, row, later, List.dropWhile_cons_of_neg (by simp [inserted])⟩

/-- The grid of rows that were observed ends where the last of them was. -/
theorem reindex_anchored {rows : List ObservedRow} {first last : ObservedRow}
    (hlast : last ∈ rows) (hle : first.time ≤ last.time)
    (hfirst : first.time % frequency = 0) (hgrid : last.time % frequency = 0) :
    Anchored (reindex rows (dateRange first.time last.time)) := by
  intro cell hcell
  rw [reindex, List.getLast?_map, dateRange_getLast hle hfirst hgrid] at hcell
  obtain rfl := Option.some.inj hcell
  exact not_inserted hlast

/-- A gap of one candle is filled with the close before it, when there is one. -/
theorem fillingClose_eq_some {gapSize : ℕ} {priorClose : Option Reading} {close : Reading} :
    fillingClose gapSize priorClose = some close ↔
      gapSize = 1 ∧ priorClose = some close ∧ close.isNan = false := by
  unfold fillingClose
  split_ifs with hsize
  · simp [hsize, Option.filter_eq_some_iff]
  · simp [hsize]

/-- Induction on the walk over the gaps: what comes next was observed, or is a gap that is
filled, or one that is left blank. -/
theorem fillSingleGaps_induction
    {motive : List (ℤ × Option ObservedRow) → Option Reading → ℕ → List GridRow → Prop}
    (nil : ∀ priorClose segmentId, motive [] priorClose segmentId [])
    (observed : ∀ time row rest priorClose segmentId,
      motive rest (some row.values.close) segmentId
        (fillSingleGaps rest (some row.values.close) segmentId).rows →
      motive ((time, some row) :: rest) priorClose segmentId
        (⟨row, false, segmentId⟩ :: (fillSingleGaps rest (some row.values.close) segmentId).rows))
    (filled : ∀ time rest close segmentId, rest.takeWhile inserted = [] → close.isNan = false →
      motive rest (some close) segmentId (fillSingleGaps rest (some close) segmentId).rows →
      motive ((time, none) :: rest) (some close) segmentId
        (⟨⟨time, Ohlcv.flat close, false⟩, true, segmentId⟩ ::
          (fillSingleGaps rest (some close) segmentId).rows))
    (blank : ∀ time rest priorClose segmentId,
      (rest.takeWhile inserted = [] → ∀ close, priorClose = some close → close.isNan = true) →
      motive (rest.dropWhile inserted) (some .nan) (segmentId + 1)
        (fillSingleGaps (rest.dropWhile inserted) (some .nan) (segmentId + 1)).rows →
      motive ((time, none) :: rest) priorClose segmentId
        (((time, none) :: rest.takeWhile inserted).map (blankRow segmentId) ++
          (fillSingleGaps (rest.dropWhile inserted) (some .nan) (segmentId + 1)).rows))
    (cells : List (ℤ × Option ObservedRow)) (priorClose : Option Reading) (segmentId : ℕ) :
    motive cells priorClose segmentId (fillSingleGaps cells priorClose segmentId).rows := by
  fun_induction fillSingleGaps with
  | case1 => exact nil _ _
  | case2 time row rest priorClose segmentId tail ih => exact observed _ _ _ _ _ ih
  | case3 time rest priorClose segmentId gap close hclose tail ih =>
    obtain ⟨hsize, rfl, hnan⟩ := fillingClose_eq_some.mp hclose
    exact filled _ _ _ _ (by simpa [gap] using hsize) hnan ih
  | case4 time rest priorClose segmentId gap hclose tail ih =>
    refine blank _ _ _ _ ?_ ih
    intro hempty close hprior
    by_contra hnan
    have hfilled := fillingClose_eq_some.mpr
      ⟨(by simp [gap, hempty] : gap.length = 1), hprior, Bool.eq_false_of_not_eq_true hnan⟩
    rw [hclose] at hfilled
    cases hfilled

/-- An observed row stays as it is. -/
@[simp] theorem fillSingleGaps_some (time : ℤ) (row : ObservedRow)
    (rest : List (ℤ × Option ObservedRow)) (priorClose : Option Reading) (segmentId : ℕ) :
    (fillSingleGaps ((time, some row) :: rest) priorClose segmentId).rows =
      ⟨row, false, segmentId⟩ :: (fillSingleGaps rest (some row.values.close) segmentId).rows := by
  rw [fillSingleGaps]

/-- A gap that is filled becomes one flat row. -/
theorem fillSingleGaps_filled {time : ℤ} {rest : List (ℤ × Option ObservedRow)}
    {priorClose : Option Reading} {segmentId : ℕ} {close : Reading}
    (h : fillingClose ((time, none) :: rest.takeWhile inserted).length priorClose = some close) :
    (fillSingleGaps ((time, none) :: rest) priorClose segmentId).rows =
      ⟨⟨time, Ohlcv.flat close, false⟩, true, segmentId⟩ ::
        (fillSingleGaps rest (some close) segmentId).rows := by
  rw [fillSingleGaps]
  simp only [h]

/-- A gap that is not filled becomes blank rows. -/
theorem fillSingleGaps_blank {time : ℤ} {rest : List (ℤ × Option ObservedRow)}
    {priorClose : Option Reading} {segmentId : ℕ}
    (h : fillingClose ((time, none) :: rest.takeWhile inserted).length priorClose = none) :
    (fillSingleGaps ((time, none) :: rest) priorClose segmentId).rows =
      ((time, none) :: rest.takeWhile inserted).map (blankRow segmentId) ++
        (fillSingleGaps (rest.dropWhile inserted) (some .nan) (segmentId + 1)).rows := by
  rw [fillSingleGaps]
  simp only [h]

/-- The walk over the gaps leaves the instants of the grid. -/
theorem fillSingleGaps_times (cells : List (ℤ × Option ObservedRow)) (priorClose : Option Reading)
    (segmentId : ℕ) (h : ∀ time row, (time, some row) ∈ cells → row.time = time) :
    (fillSingleGaps cells priorClose segmentId).rows.map (fun row => row.time) =
      cells.map Prod.fst := by
  induction cells, priorClose, segmentId using fillSingleGaps_induction with
  | nil => rfl
  | observed time row rest priorClose segmentId ih =>
    have hrow := h time row List.mem_cons_self
    have hrest := ih fun time row hmem => h time row (List.mem_cons_of_mem _ hmem)
    simp [hrow, hrest]
  | filled time rest close segmentId _ _ ih =>
    have hrest := ih fun time row hmem => h time row (List.mem_cons_of_mem _ hmem)
    simp [hrest]
  | blank time rest priorClose segmentId _ ih =>
    have hrest := ih fun time row hmem =>
      h time row (List.mem_cons_of_mem _ ((List.dropWhile_suffix inserted).subset hmem))
    have hsplit := congrArg (List.map Prod.fst)
      (List.takeWhile_append_dropWhile (p := inserted) (l := rest))
    rw [List.map_append] at hsplit
    simp only [List.map_append, List.map_map, hrest, List.map_cons, List.cons_append, ← hsplit]
    rfl

end Grid

section Frame

/-- Which bars were contaminated lately does not depend on later ones. -/
theorem recentContamination_causal : Causal recentContamination :=
  transformGroups_causal ((rolling_causal entryLookback (·.any id)).comp (Causal.map _))

/-- The validity for entries leaves the other fields of the rows. -/
theorem setEntryDataValid_flagged (rows : List FlaggedRow) :
    (setEntryDataValid rows).map (fun row => row.toFlaggedRow) = rows := by
  have hlength : rows.length ≤ (recentContamination rows).length := by
    exact (recentContamination_causal.length rows).ge
  have hfirst := List.map_fst_zip hlength
  rw [List.zip, List.map_zipWith] at hfirst
  rw [setEntryDataValid, List.map_zipWith]
  exact hfirst

/-- The rows of a canonical frame are the rows of the grid. -/
theorem setEntryDataValid_grid (grid : List GridRow) (ratio : Reading) :
    (setEntryDataValid (grid.map (flagSpikesAndFlatBars ratio))).map (fun row => row.toGridRow) =
      grid := by
  have hflagged := congrArg (List.map fun row : FlaggedRow => row.toGridRow)
    (setEntryDataValid_flagged (grid.map (flagSpikesAndFlatBars ratio)))
  simpa [List.map_map, Function.comp_def, flagSpikesAndFlatBars] using hflagged

/-- The instants of a canonical frame are those of the grid. -/
theorem canonicalFrame_times {complete : List ObservedRow} {first last : ℤ} (ratio : Reading)
    (hgrid : reindexAndFillSingleGaps complete =
      fillSingleGaps (reindex complete (dateRange first last)) none 0) :
    (setEntryDataValid ((reindexAndFillSingleGaps complete).rows.map
      (flagSpikesAndFlatBars ratio))).map (fun row => row.time) = dateRange first last := by
  have hwalk := fillSingleGaps_times (reindex complete (dateRange first last)) none 0
    fun time row hmem => (of_mem_reindex hmem).2
  have hrows := congrArg (List.map fun row : GridRow => row.time)
    (setEntryDataValid_grid (reindexAndFillSingleGaps complete).rows ratio)
  rw [List.map_map] at hrows
  rw [reindex_fst, ← hgrid, ← hrows] at hwalk
  exact hwalk

end Frame

end AutoBit.Data
