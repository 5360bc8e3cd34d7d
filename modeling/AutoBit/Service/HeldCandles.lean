import AutoBit.Data.History
import AutoBit.Service.CycleSteps

/-!
# The candles that an observation adds

A source that shows one candle history may be asked for any window of it. The candles of an
observation come from the window of the cycle or from a range that is loaded for it; either
way they are safe candles of every bar of the range, with the highs of the history.
-/

namespace AutoBit.Service

open Library Store Risk Data Strategy Broker

/-- A source whose frames show a candle history, whatever is asked of it. -/
structure Deterministic {Cell : Type} (pd : Pandas Cell) (history : CandleHistory)
    (source : CandleSource Cell) : Prop where
  completed : ∀ end_ raw, (source.loadCompletedCandles end_).frame = .ok raw →
    Shows pd history raw
  position : ∀ loader ∈ source.loadPositionCandles, ∀ start end_ raw,
    (loader start end_).frame = .ok raw → Shows pd history raw

/-- Enriched rows whose highs are those of a history. -/
def Reads (history : CandleHistory) (enriched : List TrendRow) : Prop :=
  ∀ row ∈ enriched, ∀ high, row.values.high = .number high →
    canonicalHigh history row.time = .number high

/-- The rows of a canonical window read the history that the window shows. -/
theorem reads_of_shows {Cell : Type} [DecidableEq Cell] {pd : Pandas Cell}
    {history : CandleHistory} {raw : RawFrame Cell} {now : Option ℤ} {ratio : Reading}
    {quality : QualityResult} (hshows : Shows pd history raw)
    (h : canonicalizeOhlcv pd raw now ratio = .ok quality) (kernels : TrendKernels)
    (config : IndicatorConfig) :
    Reads history (computeTrendIndicators kernels config quality.frame) := by
  intro row hrow high hhigh
  exact canonicalHigh_of_shows hshows h (mem_of_trend hrow) hhigh

/-- Candles of a history that end at a bar. -/
structure EndsAt (history : CandleHistory) (barAt : ℤ) (candles : List (ℤ × ℚ)) : Prop where
  highs : ∀ candle ∈ candles, canonicalHigh history (nanoseconds candle.1) = .number candle.2
  last : ∀ candle ∈ candles.getLast?, candle.1 = barAt

/-! ## Ranges -/

section Ranges

variable {start last time : ℤ}

/-- A boundary is aligned with the frequency. -/
theorem aligned_of_boundary (h : IsBoundary time) : nanoseconds time % frequency = 0 := by
  simp only [IsBoundary, fourHours_eq, nanoseconds, frequency] at *
  omega

/-- The instants of a range are whole microseconds. -/
theorem microseconds_of_range (h : time ∈ fourHourRange start last) :
    nanoseconds (microseconds time) = time := by
  unfold fourHourRange at h
  split at h
  · cases h
  · obtain ⟨k, -, rfl⟩ := List.mem_map.mp h
    simp only [nanoseconds, microseconds, frequency]
    omega

/-- A range whose first bar is on the grid ends at the last one. -/
theorem fourHourRange_getLast (hne : fourHourRange start last ≠ [])
    (haligned : ∀ time ∈ fourHourRange start last, time % frequency = 0)
    (hlast : IsBoundary last) : (fourHourRange start last).getLast? = some (nanoseconds last) := by
  have hle : ¬last < start := by
    intro hlt
    exact hne (if_pos hlt)
  have hrange : fourHourRange start last = dateRange (nanoseconds start) (nanoseconds last) :=
    if_neg hle
  rw [hrange] at haligned ⊢
  obtain ⟨rest, hrest⟩ := dateRange_head (nanoseconds start) (nanoseconds last)
  refine dateRange_getLast ?_ (haligned _ (by rw [hrest]; simp)) (aligned_of_boundary hlast)
  simp only [nanoseconds]
  omega

/-- A range names each boundary once. -/
theorem fourHourRange_nodup (start last : ℤ) : (fourHourRange start last).Nodup := by
  unfold fourHourRange
  split
  · exact List.nodup_nil
  · exact (dateRange_pairwise _ _).imp fun h => h.ne

end Ranges

/-! ## Validated frames -/

section Frames

/-- The bar that executes has the high of its row. -/
theorem high_of_executionBar {row : QualityRow} {bar : Ohlcv ℚ} (h : executionBar row = some bar) :
    row.values.high = .number bar.high := by
  simp only [executionBar, Option.filter_eq_some_iff, finiteBar] at h
  obtain ⟨hbar, -⟩ := h
  split at hbar
  · rename_i hopen hhigh hlow hclose hvolume
    cases hbar
    revert hhigh
    cases row.values.high <;> simp [finite]
  · cases hbar

/-- Every safe row gives one candle to an observation. -/
theorem candleHighs_of_safe {rows : List QualityRow}
    (h : ∀ row ∈ rows, safeExecutionRow row = true) :
    (candleHighs rows).map Prod.fst = rows.map (fun row => microseconds row.time) ∧
      ∀ candle ∈ candleHighs rows, ∃ row ∈ rows, candle.1 = microseconds row.time ∧
        row.values.high = .number candle.2 := by
  constructor
  · induction rows with
    | nil => rfl
    | cons row rows ih =>
      obtain ⟨bar, hbar⟩ := Option.isSome_iff_exists.mp (h row (by simp))
      have hrest := ih fun other hother => h other (List.mem_cons_of_mem _ hother)
      simp only [candleHighs, List.filterMap_cons, hbar, Option.map_some, List.map_cons]
      exact congrArg _ hrest
  · intro candle hcandle
    obtain ⟨row, hrow, hmap⟩ := List.mem_filterMap.mp hcandle
    obtain ⟨bar, hbar, rfl⟩ := Option.map_eq_some_iff.mp hmap
    exact ⟨row, hrow, rfl, high_of_executionBar hbar⟩

variable {Cell : Type} [DecidableEq Cell] {pd : Pandas Cell} {frame : RawFrame Cell}
  {start end_ : ℤ} {rows : List QualityRow}

/-- A position frame that passes its checks covers its range with canonical rows. -/
theorem validatedPositionFrame_eq_ok (h : validatedPositionFrame pd frame start end_ = .ok rows) :
    frame.rows.map Prod.fst = (fourHourRange start (end_ - fourHours)).map Stamp.time ∧
      (∃ quality, canonicalizeOhlcv pd frame (some (nanoseconds end_)) defaultSpikeRangeRatio =
        .ok quality ∧ quality.frame = rows) ∧
      rows.map (fun row => row.time) = fourHourRange start (end_ - fourHours) ∧
      ∀ row ∈ rows, safeExecutionRow row = true := by
  simp only [validatedPositionFrame, Except.bind_eq_ok, reject_eq_ok, Except.pure_eq_ok, not_or,
    not_not] at h
  obtain ⟨_, hexpected, quality, hquality, _, ⟨htimes, hsafe⟩, rfl⟩ := h
  refine ⟨hexpected, ⟨quality, hquality, rfl⟩, htimes, ?_⟩
  intro row hrow
  by_contra hunsafe
  exact hsafe ⟨row, hrow, by simpa using hunsafe⟩

/-- The candles of a validated frame end at the last bar, and where their highs are those of a
history, so are the candles of the observation. -/
theorem endsAt_of_validated {history : CandleHistory}
    (h : validatedPositionFrame pd frame start end_ = .ok rows) (hend : IsBoundary end_)
    (hhighs : ∀ row ∈ rows, ∀ high, row.values.high = .number high →
      canonicalHigh history row.time = .number high) :
    EndsAt history (end_ - fourHours) (candleHighs rows) := by
  obtain ⟨-, ⟨quality, hquality, rfl⟩, htimes, hsafe⟩ := validatedPositionFrame_eq_ok h
  obtain ⟨hinstants, hcandles⟩ := candleHighs_of_safe hsafe
  have hrange : ∀ row ∈ quality.frame, row.time ∈ fourHourRange start (end_ - fourHours) := by
    intro row hrow
    rw [← htimes]
    exact List.mem_map_of_mem (f := fun row : QualityRow => row.time) hrow
  constructor
  · intro candle hcandle
    obtain ⟨row, hrow, htime, hhigh⟩ := hcandles candle hcandle
    rw [htime, microseconds_of_range (hrange row hrow)]
    exact hhighs row hrow _ hhigh
  · intro last hlast
    have hne : quality.frame ≠ [] := by
      intro hempty
      rw [hempty] at hlast
      cases hlast
    have hlastTime : ((candleHighs quality.frame).map Prod.fst).getLast? = some last.1 := by
      rw [List.getLast?_map, Option.mem_def.mp hlast]
      rfl
    have hinstants : (candleHighs quality.frame).map Prod.fst =
        (fourHourRange start (end_ - fourHours)).map microseconds := by
      rw [hinstants, ← htimes, List.map_map]
      rfl
    rw [hinstants, List.getLast?_map, fourHourRange_getLast ?_ ?_ hend.sub_fourHours] at hlastTime
    · simp only [Option.map_some, Option.some.injEq] at hlastTime
      rw [← hlastTime]
      simp only [microseconds, nanoseconds]
      omega
    · rw [← htimes]
      simpa using hne
    · intro time htime
      rw [← htimes] at htime
      obtain ⟨row, hrow, rfl⟩ := List.mem_map.mp htime
      exact aligned_of_canonical hquality hrow

end Frames

/-! ## The held rows of a window -/

section Window

variable {Cell : Type} {pd : Pandas Cell} {history : CandleHistory}

/-- The history that some rows amount to. -/
def rowHistory (rows : List TrendRow) : CandleHistory := fun time =>
  (rows.find? fun row => row.time = time).map fun row => row.values

/-- The history of rows holds each of them. -/
theorem rowHistory_of_mem {rows : List TrendRow} (hnodup : (rows.map fun row => row.time).Nodup)
    {row : TrendRow} (hrow : row ∈ rows) : rowHistory rows row.time = some row.values := by
  cases hfound : rows.find? (fun other => other.time = row.time) with
  | none =>
    have hother := List.find?_eq_none.mp hfound row hrow
    simp at hother
  | some found =>
    have htime : found.time = row.time := by simpa using List.find?_some hfound
    have hsame : found = row :=
      List.inj_on_of_nodup_map hnodup (List.mem_of_find?_eq_some hfound) hrow htime
    simp [rowHistory, hfound, hsame]

/-- A held row reads as its candle. -/
theorem readCandle_of_held (row : TrendRow) :
    readCandle (enrichedCells pd) ohlcvColumns (.time row.time, row.values.toList) =
      some (row.time, row.values) := rfl

/-- The frame of held rows shows their history. -/
theorem shows_heldFrame {rows : List TrendRow} (hnodup : (rows.map fun row => row.time).Nodup) :
    Shows (enrichedCells pd) (rowHistory rows) (heldFrame rows) := by
  constructor
  · intro raw hraw time bar hread
    obtain ⟨row, hrow, rfl⟩ := List.mem_map.mp hraw
    have hread := (readCandle_of_held row).symm.trans hread
    obtain ⟨rfl, rfl⟩ := Prod.mk.inj (Option.some.inj hread)
    exact rowHistory_of_mem hnodup hrow
  · intro _ _ _ _ _ _ _ _ time _ _ hknown
    obtain ⟨bar, hbar⟩ := Option.ne_none_iff_exists'.mp hknown
    obtain ⟨row, hfound, -⟩ := Option.map_eq_some_iff.mp hbar
    have htime : row.time = time := by simpa using List.find?_some hfound
    refine ⟨(.time row.time, row.values.toList), ?_, by rw [htime]⟩
    exact List.mem_map_of_mem (f := fun row : TrendRow =>
      (Stamp.time row.time, row.values.toList)) (List.mem_of_find?_eq_some hfound)

/-- The held rows of a window keep the highs of the history when they are canonicalized
again. -/
theorem endsAt_of_held {enriched : List TrendRow} (hreads : Reads history enriched) {start end_ : ℤ}
    (hend : IsBoundary end_)
    (htimes : (heldRows enriched start end_).map (fun row => row.time) =
      fourHourRange start (end_ - fourHours)) {rows : List QualityRow}
    (h : validatedPositionFrame (enrichedCells pd) (heldFrame (heldRows enriched start end_)) start
      end_ = .ok rows) : EndsAt history (end_ - fourHours) (candleHighs rows) := by
  refine endsAt_of_validated h hend ?_
  intro row hrow high hhigh
  obtain ⟨-, ⟨quality, hquality, rfl⟩, hcanonical, -⟩ := validatedPositionFrame_eq_ok h
  have hnodup : ((heldRows enriched start end_).map fun row => row.time).Nodup := by
    rw [htimes]
    exact fourHourRange_nodup _ _
  have hagain := canonicalHigh_of_shows (shows_heldFrame hnodup) hquality hrow hhigh
  -- the row stands at the instant of a held row, which is the high that was read again
  have hmem : row.time ∈ (heldRows enriched start end_).map fun row => row.time := by
    rw [htimes, ← hcanonical]
    exact List.mem_map_of_mem (f := fun row : QualityRow => row.time) hrow
  obtain ⟨held, hheld, htime⟩ := List.mem_map.mp hmem
  rw [← htime, canonicalHigh, rowHistory_of_mem hnodup hheld] at hagain
  rw [← htime]
  exact hreads held (List.mem_of_mem_filter hheld) high hagain

end Window

/-! ## What an observation adds -/

/-- A source that is asked for its window adds quiet payloads and returns its frame. -/
theorem load_follows {Cell : Type} (feed : Feed Cell) (db : Database) :
    Follows (Grows Quiet) (load feed) (fun raw _ => feed.frame = .ok raw) db := by
  refine (Follows.of_respects (recorded_respects (records_quiet.atBar 0) feed.recorded)).trans_bind
    fun _ db' _ _ => ?_
  exact Follows.read (execute_lift _ _) (Grows.refl _) fun _ h => h

/-- The candles that an observation adds are those of the history, up to the bar. -/
theorem heldCandles_follows {Cell : Type} [DecidableEq Cell] (c : ServiceConfig Cell)
    (chances : Chances Cell) {history : CandleHistory}
    (hsource : Deterministic c.pd history chances.source) {enriched : List TrendRow}
    (hreads : Reads history enriched) {barAt : ℤ} (hbar : IsBoundary barAt) (start : ℤ)
    (db : Database) : Follows (Grows Quiet) (heldCandles c chances barAt enriched start)
      (fun rows _ => EndsAt history barAt (candleHighs rows)) db := by
  have hend : barAt + fourHours - fourHours = barAt := add_sub_cancel_right _ _
  unfold heldCandles
  dsimp only
  split
  · rename_i htimes
    refine Follows.read (execute_lift _ _) (Grows.refl _) fun rows hrows => ?_
    have hends := endsAt_of_held hreads hbar.add_fourHours (by rw [hend]; exact htimes) hrows
    rwa [hend] at hends
  · refine Follows.read_bind (execute_lift _ _) (Grows.refl _) fun loader hloader => ?_
    refine (load_follows _ db).trans_bind fun raw db' _ hraw => ?_
    refine Follows.read_bind (execute_lift _ _) (Grows.refl _) fun _ _ => ?_
    refine Follows.read (execute_lift _ _) (Grows.refl _) fun rows hrows => ?_
    have hshows := hsource.position loader (require_eq_ok.mp hloader) start _ raw hraw
    have hends := endsAt_of_validated hrows hbar.add_fourHours fun row hrow high hhigh => by
      obtain ⟨-, ⟨quality, hquality, rfl⟩, -, -⟩ := validatedPositionFrame_eq_ok hrows
      exact canonicalHigh_of_shows hshows hquality hrow hhigh
    rwa [hend] at hends

end AutoBit.Service
