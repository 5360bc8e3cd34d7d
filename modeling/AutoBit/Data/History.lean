import AutoBit.Data.Canonical

/-!
# Windows of one history

Frames that show parts of one candle history canonicalize to candles of that history: where
a canonical candle has a value at all, it is the candle of the history, or stands for one
that the history lacks and repeats the close before it. So the window does not matter.
-/

namespace AutoBit.Data

open Library Risk

/-- What a history holds of each bar: its candle, or nothing. -/
abbrev CandleHistory := ℤ → Option (Ohlcv Reading)

/-- The high of the canonical candle of a bar. -/
def canonicalHigh (history : CandleHistory) (time : ℤ) : Reading :=
  match history time with
  | some bar => bar.high
  | none =>
    match history (time - frequency) with
    | some prior => prior.close
    | none => .nan

section Shows

variable {Cell : Type}

/-- The instant and the values of a raw row. -/
def readCandle (pd : Pandas Cell) (columns : List String) (row : Stamp × List Cell) :
    Option (ℤ × Ohlcv Reading) := do
  let time ← row.1.time?
  let bar ← Ohlcv.ofList (selectOhlcv (columns.map normalizeColumn) row.2)
  return (time, bar.map pd.toNumeric)

/-- A frame shows a history: its rows are candles of the history, and between two of its rows
it leaves no candle of the history out. -/
structure Shows (pd : Pandas Cell) (history : CandleHistory) (raw : RawFrame Cell) : Prop where
  candles : ∀ row ∈ raw.rows, ∀ time bar, readCandle pd raw.columns row = some (time, bar) →
    history time = some bar
  complete : ∀ first ∈ raw.rows, ∀ last ∈ raw.rows, ∀ start finish, first.1 = .time start →
    last.1 = .time finish → ∀ time, start ≤ time → time ≤ finish → history time ≠ none →
    ∃ row ∈ raw.rows, row.1 = .time time

variable {pd : Pandas Cell} {columns : List String} {row : Stamp × List Cell}

/-- An observed row is a candle that was read, cleared when it is invalid. -/
theorem readCandle_of_observe {seen : ObservedRow} (h : observe pd columns row = some seen) :
    ∃ bar, readCandle pd columns row = some (seen.time, bar) ∧
      (seen.values = bar ∨ seen.values = Ohlcv.unavailable) := by
  obtain ⟨time, bar, htime, hbar, rfl⟩ := observe_eq_some.mp h
  refine ⟨bar.map pd.toNumeric, by simp [readCandle, htime, hbar, Stamp.time?,
    quarantineInvalidValues], ?_⟩
  simp only [quarantineInvalidValues]
  split
  · exact Or.inr rfl
  · exact Or.inl rfl

/-- An observed row has the instant of its stamp. -/
theorem time_of_observe {seen : ObservedRow} (h : observe pd columns row = some seen) :
    row.1 = .time seen.time := by
  obtain ⟨time, bar, htime, -, rfl⟩ := observe_eq_some.mp h
  exact htime

end Shows

/-! ## Where the rows of the grid come from -/

/-- A row that was observed, or has no values, or repeats the close of the row before it. -/
def Origin (complete : List ObservedRow) (row : GridRow) : Prop :=
  row.isFilled = false ∧ (row.toObservedRow ∈ complete ∨ row.values = Ohlcv.unavailable) ∨
    row.isFilled = true ∧ ∃ prior ∈ complete, prior.time + frequency = row.time ∧
      row.values = Ohlcv.flat prior.values.close

/-- A row of the filled grid is observed, or carries the close before its gap, or is blank. -/
theorem fillSingleGaps_origin {complete : List ObservedRow}
    {cells : List (ℤ × Option ObservedRow)} {priorClose : Option Reading} {segmentId : ℕ}
    (hchain : (cells.map Prod.fst).IsChain fun a b => b - a = frequency)
    (hcells : ∀ time row, (time, some row) ∈ cells → row ∈ complete ∧ row.time = time)
    (hhead : ∀ time rest, cells = (time, none) :: rest → ∀ close, priorClose = some close →
      close.isNan = false → ∃ prior ∈ complete, prior.time + frequency = time ∧
        prior.values.close = close) :
    ∀ row ∈ (fillSingleGaps cells priorClose segmentId).rows,
      Origin complete row ∧ (row.isFilled = true → (row.time, none) ∈ cells) := by
  refine fillSingleGaps_induction (motive := fun cells priorClose _ rows =>
    (cells.map Prod.fst).IsChain (fun a b => b - a = frequency) →
    (∀ time row, (time, some row) ∈ cells → row ∈ complete ∧ row.time = time) →
    (∀ time rest, cells = (time, none) :: rest → ∀ close, priorClose = some close →
      close.isNan = false → ∃ prior ∈ complete, prior.time + frequency = time ∧
        prior.values.close = close) →
    ∀ row ∈ rows, Origin complete row ∧ (row.isFilled = true → (row.time, none) ∈ cells))
    ?_ ?_ ?_ ?_ cells priorClose segmentId hchain hcells hhead
  · intro _ _ _ _ _ row hrow
    cases hrow
  · intro time seen rest priorClose segmentId ih hchain hcells _ row hrow
    obtain ⟨hseen, htime⟩ := hcells time seen (by simp)
    rcases List.mem_cons.mp hrow with rfl | hrest
    · exact ⟨Or.inl ⟨rfl, Or.inl hseen⟩, fun hfilled => by cases hfilled⟩
    · obtain ⟨horigin, hmissing⟩ := ih hchain.tail
        (fun time row hmem => hcells time row (List.mem_cons_of_mem _ hmem)) (by
          rintro next later rfl close hclose -
          cases hclose
          have hstep := (List.isChain_cons_cons.mp hchain).1
          exact ⟨seen, hseen, by simp only at hstep; omega, rfl⟩) row hrest
      exact ⟨horigin, fun hfilled => List.mem_cons_of_mem _ (hmissing hfilled)⟩
  · intro time rest close segmentId hnext hclose ih hchain hcells hhead row hrow
    rcases List.mem_cons.mp hrow with rfl | hrest
    · obtain ⟨prior, hprior, htime, hvalue⟩ := hhead time rest rfl close rfl hclose
      exact ⟨Or.inr ⟨rfl, prior, hprior, htime, by rw [hvalue]⟩, fun _ => by simp⟩
    · -- the next bar was observed, so the close that fills this one fills no other
      obtain ⟨horigin, hmissing⟩ := ih hchain.tail
        (fun time row hmem => hcells time row (List.mem_cons_of_mem _ hmem)) (by
          rintro next later rfl
          simp [inserted] at hnext) row hrest
      exact ⟨horigin, fun hfilled => List.mem_cons_of_mem _ (hmissing hfilled)⟩
  · intro time rest priorClose segmentId _ ih hchain hcells _ row hrow
    rcases List.mem_append.mp hrow with hgap | hlater
    · obtain ⟨cell, -, rfl⟩ := List.mem_map.mp hgap
      exact ⟨Or.inl ⟨rfl, Or.inr rfl⟩, fun hfilled => by cases hfilled⟩
    · have hsuffix : rest.dropWhile inserted <:+ (time, none) :: rest :=
        (List.dropWhile_suffix _).trans (List.suffix_cons _ _)
      obtain ⟨horigin, hmissing⟩ := ih (hchain.suffix (hsuffix.map Prod.fst))
        (fun time row hmem => hcells time row (hsuffix.subset hmem)) (by
          intro next later hdrop
          have hhead := List.dropWhile_get_zero_not inserted rest (by rw [hdrop]; simp)
          simp [hdrop, inserted] at hhead) row hlater
      exact ⟨horigin, fun hfilled => hsuffix.subset (hmissing hfilled)⟩

/-- A row of the complete grid comes from the rows that were observed, and a filled one
stands where none was. -/
theorem grid_origin {complete : List ObservedRow}
    (haligned : ∀ row ∈ complete, row.time % frequency = 0) {row : GridRow}
    (hrow : row ∈ (reindexAndFillSingleGaps complete).rows) :
    Origin complete row ∧ row.time % frequency = 0 ∧ (row.isFilled = true →
      (∀ seen ∈ complete, seen.time ≠ row.time) ∧
      (∃ first ∈ complete, first.time ≤ row.time) ∧ ∃ last ∈ complete, row.time ≤ last.time) := by
  by_cases hempty : complete = []
  · subst hempty
    cases hrow
  obtain ⟨first, hfirst, last, hlast, hbounds, hgrid⟩ := reindexAndFillSingleGaps_eq hempty
  have hle := (hbounds first hfirst).2
  have htimes : (reindex complete (dateRange first.time last.time)).map Prod.fst =
      dateRange first.time last.time := by
    rw [reindex, List.map_map]
    exact List.map_id _
  rw [hgrid] at hrow
  obtain ⟨horigin, hmissing⟩ := fillSingleGaps_origin
    (by rw [htimes]; exact dateRange_isChain _ _) (fun time seen hmem => of_mem_reindex hmem)
    (fun _ _ _ _ hclose => by cases hclose) row hrow
  have hmem : row.time ∈ dateRange first.time last.time := by
    have hrows := fillSingleGaps_times (reindex complete (dateRange first.time last.time)) none 0
      fun time seen hmem => (of_mem_reindex hmem).2
    rw [htimes] at hrows
    rw [← hrows]
    exact List.mem_map_of_mem hrow
  refine ⟨horigin, mem_dateRange_aligned (haligned first hfirst) hmem, ?_⟩
  intro hfilled
  refine ⟨?_, ⟨first, hfirst, ?_⟩, last, hlast, mem_dateRange_le hle hmem⟩
  · intro seen hseen htime
    obtain ⟨time, -, hcell⟩ := List.mem_map.mp (hmissing hfilled)
    obtain ⟨rfl, hnone⟩ := Prod.mk.inj hcell
    have hother := List.find?_eq_none.mp hnone seen hseen
    exact hother (by simpa using htime)
  · obtain ⟨k, -, hk⟩ := List.mem_map.mp hmem
    have hpositive : 0 ≤ (k : ℤ) * frequency := by
      have hfrequency := frequency_pos
      positivity
    omega

/-! ## The canonical candles of a history -/

section Canonical

variable {Cell : Type} [DecidableEq Cell] {pd : Pandas Cell} {raw : RawFrame Cell}
  {history : CandleHistory} {now : Option ℤ} {ratio : Reading} {result : QualityResult}

/-- The grid row of a canonical row. -/
theorem grid_of_canonical (h : canonicalizeOhlcv pd raw now ratio = .ok result)
    {row : QualityRow} (hrow : row ∈ result.frame) :
    ∃ now complete, Completed pd raw now complete ∧
      row.toGridRow ∈ (reindexAndFillSingleGaps complete).rows := by
  obtain ⟨-, now, complete, -, hcompleted, hframe⟩ := canonicalizeOhlcv_eq_ok h
  refine ⟨now, complete, hcompleted, ?_⟩
  have hmem := List.mem_map_of_mem (f := fun row : QualityRow => row.toGridRow) hrow
  rw [hframe, setEntryDataValid_grid] at hmem
  exact hmem

/-- The rows of a canonical frame stand at boundaries. -/
theorem aligned_of_canonical (h : canonicalizeOhlcv pd raw now ratio = .ok result)
    {row : QualityRow} (hrow : row ∈ result.frame) : row.time % frequency = 0 := by
  obtain ⟨_, complete, hcompleted, hgrid⟩ := grid_of_canonical h hrow
  exact (grid_origin hcompleted.aligned hgrid).2.1

omit [DecidableEq Cell] in
/-- The values of an observed row are those of the history, unless they were cleared. -/
theorem observed_of_shows (hshows : Shows pd history raw) {now : ℤ} {complete : List ObservedRow}
    (hcompleted : Completed pd raw now complete) {seen : ObservedRow} (hseen : seen ∈ complete) :
    ∃ bar, history seen.time = some bar ∧
      (seen.values = bar ∨ seen.values = Ohlcv.unavailable) := by
  obtain ⟨⟨original, horiginal, hobserve⟩, -⟩ := (hcompleted.mem_iff seen).mp hseen
  obtain ⟨bar, hread, hvalues⟩ := readCandle_of_observe hobserve
  exact ⟨bar, hshows.candles original horiginal seen.time bar hread, hvalues⟩

/-- Whatever the window, a canonical candle with a high has the one of the history. -/
theorem canonicalHigh_of_shows (hshows : Shows pd history raw)
    (h : canonicalizeOhlcv pd raw now ratio = .ok result) {row : QualityRow}
    (hrow : row ∈ result.frame) {high : ℚ} (hhigh : row.values.high = .number high) :
    canonicalHigh history row.time = .number high := by
  obtain ⟨finish, complete, hcompleted, hgrid⟩ := grid_of_canonical h hrow
  obtain ⟨horigin, haligned, hfilled⟩ := grid_origin hcompleted.aligned hgrid
  rcases horigin with ⟨-, hseen | hblank⟩ | ⟨hgap, prior, hprior, htime, hvalues⟩
  · obtain ⟨bar, hbar, hvalues | hcleared⟩ := observed_of_shows hshows hcompleted hseen
    · have hbar : history row.time = some row.values := hvalues ▸ hbar
      rw [canonicalHigh, hbar]
      exact hhigh
    · have hcleared : row.values = Ohlcv.unavailable := hcleared
      rw [hcleared] at hhigh
      cases hhigh
  · have hblank : row.values = Ohlcv.unavailable := hblank
    rw [hblank] at hhigh
    cases hhigh
  · obtain ⟨hunseen, ⟨first, hfirst, hstart⟩, last, hlast, hend⟩ := hfilled hgap
    have hmissing : history row.time = none := by
      by_contra hknown
      obtain ⟨⟨before, hbefore, hbeforeSeen⟩, -⟩ := (hcompleted.mem_iff first).mp hfirst
      obtain ⟨⟨after, hafter, hafterSeen⟩, hmatured⟩ := (hcompleted.mem_iff last).mp hlast
      obtain ⟨original, horiginal, hinstant⟩ := hshows.complete before hbefore after hafter
        first.time last.time (time_of_observe hbeforeSeen) (time_of_observe hafterSeen) row.time
        hstart hend hknown
      obtain ⟨seen, hobserve⟩ := hcompleted.readable original horiginal
      have hsame : seen.time = row.time :=
        Stamp.time.inj ((time_of_observe hobserve).symm.trans hinstant)
      refine hunseen seen ((hcompleted.mem_iff seen).mpr ⟨⟨original, horiginal, hobserve⟩, ?_⟩) hsame
      have hend : row.time ≤ last.time := hend
      omega
    have hvalues : row.values = Ohlcv.flat prior.values.close := hvalues
    have htime : row.time - frequency = prior.time := by
      have htime : prior.time + frequency = row.time := htime
      omega
    rw [hvalues] at hhigh
    have hclose : prior.values.close = .number high := hhigh
    obtain ⟨bar, hbar, hsame | hcleared⟩ := observed_of_shows hshows hcompleted hprior
    · rw [canonicalHigh, hmissing, htime, hbar, ← hsame]
      exact hclose
    · rw [hcleared] at hclose
      cases hclose

end Canonical

end AutoBit.Data
