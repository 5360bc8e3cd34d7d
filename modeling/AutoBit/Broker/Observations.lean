import AutoBit.Broker.Holding
import Mathlib.Data.List.Induction
import Mathlib.Order.Bounds.Basic

/-!
# The chain of position observations

An accepted ledger takes the observations of a position as one chain: each names the one
before it, their candles continue each other from the bar of the entry on, and the last
one holds the highest high of them all.
-/

namespace AutoBit.Broker

open Library Store Strategy

/-- The observations of a position in a log. -/
def observationsOf (log : List StoredEvent) (id : PaperId) : List (Stamped PositionObservation) :=
  (view readPosition log).filter (·.body.orderId = id)

/-- The candles of some observations, in order. -/
def candlesOf (observations : List (Stamped PositionObservation)) : List (ℤ × ℚ) :=
  observations.flatMap (·.body.candleHighs)

/-- The price of the first hard stop of an entry. -/
def firstHardStop (log : List StoredEvent) (id : PaperId) : Option ℚ :=
  ((view readStopSet log).find? fun stop =>
    stop.body.sourceId = id ∧ stop.body.reason = "HARD_STOP").map (·.body.stopPrice)

/-- Every observation names the one before it, and the first one the event given. -/
def Linked : Option EventId → List (Stamped PositionObservation) → Prop
  | _, [] => True
  | previous, event :: rest => event.body.previousEventId = previous ∧
      Linked (some event.eventId) rest

/-- The four-hour bars from one instant to another. -/
def barsBetween (first last : ℤ) : List ℤ :=
  (List.range (((last - first) / fourHours).toNat + 1)).map fun (k : ℕ) => first + k * fourHours

/-- A linked chain stays linked with an observation of its last event. -/
theorem linked_snoc {previous : Option EventId} {chain : List (Stamped PositionObservation)}
    {event : Stamped PositionObservation} (h : Linked previous chain)
    (hevent : event.body.previousEventId = match chain.getLast? with
      | some last => some last.eventId
      | none => previous) : Linked previous (chain ++ [event]) := by
  induction chain generalizing previous with
  | nil => exact ⟨hevent, trivial⟩
  | cons first rest ih =>
    refine ⟨h.1, ih h.2 ?_⟩
    rw [hevent]
    cases rest with
    | nil => rfl
    | cons second rest => rw [List.getLast?_cons_cons]; cases hlast : (second :: rest).getLast? with
      | none => simp at hlast
      | some last => rfl

/-! ## Candles that continue each other -/

/-- Candles are contiguous when two stretches are, the second after the first. -/
theorem contiguousFrom_append {start : ℤ} {xs ys : List (ℤ × ℚ)} :
    contiguousFrom start (xs ++ ys) = true ↔ contiguousFrom start xs = true ∧
      contiguousFrom (start + xs.length * fourHours) ys = true := by
  induction xs generalizing start with
  | nil => simp [contiguousFrom]
  | cons x xs ih =>
    have hshift : start + fourHours + (xs.length : ℤ) * fourHours =
        start + ((x :: xs).length : ℤ) * fourHours := by
      simp only [List.length_cons, Nat.cast_succ]
      ring
    simp only [List.cons_append, contiguousFrom, decide_eq_true_eq, ih, hshift]
    constructor
    · rintro ⟨htime, hhigh, hxs, hys⟩
      exact ⟨⟨htime, hhigh, hxs⟩, hys⟩
    · rintro ⟨⟨htime, hhigh, hxs⟩, hys⟩
      exact ⟨htime, hhigh, hxs, hys⟩

/-- Contiguous candles stand at the bars that follow each other. -/
theorem times_of_contiguous {start : ℤ} {candles : List (ℤ × ℚ)}
    (h : contiguousFrom start candles = true) :
    candles.map Prod.fst = (List.range candles.length).map (fun (k : ℕ) => start + k * fourHours) ∧
      ∀ candle ∈ candles, 0 < candle.2 := by
  induction candles generalizing start with
  | nil => simp
  | cons candle candles ih =>
    simp only [contiguousFrom, decide_eq_true_eq] at h
    obtain ⟨htime, hhigh, hrest⟩ := h
    obtain ⟨htimes, hpositive⟩ := ih hrest
    constructor
    · rw [List.map_cons, htimes, List.length_cons, List.range_succ_eq_map, List.map_cons,
        List.map_map, htime]
      congr 1
      · simp
      · refine List.map_congr_left ?_
        intro k _
        simp only [Function.comp_apply, Nat.cast_succ]
        ring
    · intro other hother
      rcases List.mem_cons.mp hother with rfl | hrest
      · exact hhigh
      · exact hpositive other hrest

/-- The highest of some positive highs. -/
theorem isGreatest_foldl_max {candles : List (ℤ × ℚ)} (hne : candles ≠ [])
    (hpositive : ∀ candle ∈ candles, 0 < candle.2) :
    IsGreatest {high | high ∈ candles.map Prod.snd}
      (candles.foldl (fun high item => max high item.2) 0) := by
  have hmax : ∀ (items : List (ℤ × ℚ)) (seed : ℚ),
      (items.foldl (fun high item => max high item.2) seed = seed ∨
        items.foldl (fun high item => max high item.2) seed ∈ items.map Prod.snd) ∧
      seed ≤ items.foldl (fun high item => max high item.2) seed ∧
      ∀ high ∈ items.map Prod.snd, high ≤ items.foldl (fun high item => max high item.2) seed := by
    intro items
    induction items with
    | nil => simp
    | cons item items ih =>
      intro seed
      obtain ⟨hvalue, hseed, hbound⟩ := ih (max seed item.2)
      simp only [List.foldl_cons, List.map_cons, List.mem_cons]
      refine ⟨?_, (le_max_left _ _).trans hseed, ?_⟩
      · rcases hvalue with hsame | hmem
        · rcases max_choice seed item.2 with hleft | hright
          · exact Or.inl (hsame.trans hleft)
          · exact Or.inr (Or.inl (hsame.trans hright))
        · exact Or.inr (Or.inr hmem)
      · rintro high (rfl | hmem)
        · exact (le_max_right _ _).trans hseed
        · exact hbound high hmem
  obtain ⟨hvalue, -, hbound⟩ := hmax candles 0
  refine ⟨?_, hbound⟩
  rcases hvalue with hzero | hmem
  · obtain ⟨candle, hcandle⟩ := List.exists_mem_of_ne_nil _ hne
    have hhigh := hbound candle.2 (List.mem_map_of_mem hcandle)
    rw [hzero] at hhigh
    exact absurd (hpositive candle hcandle) (not_lt.mpr hhigh)
  · exact hmem

/-! ## The chain of an accepted ledger -/

/-- What the observations of a position from its entry bar on come to. -/
structure Chained (fillTime : ℤ) (chain : List (Stamped PositionObservation)) : Prop where
  linked : Linked none chain
  contiguous : contiguousFrom fillTime (candlesOf chain) = true
  last : ∀ event ∈ chain.getLast?,
    event.occurredAtUtc + fourHours = fillTime + (candlesOf chain).length * fourHours ∧
      event.body.highWater = (candlesOf chain).foldl (fun high item => max high item.2) 0 ∧
      candlesOf chain ≠ []

/-- The candles of a longer chain end with those of its last observation. -/
theorem candlesOf_snoc (chain : List (Stamped PositionObservation))
    (event : Stamped PositionObservation) :
    candlesOf (chain ++ [event]) = candlesOf chain ++ event.body.candleHighs := by
  simp [candlesOf]

/-- The fill that an observation of a position refers to. -/
def observedFill (fills : List PaperFill) (id : PaperId) : Option PaperFill :=
  (fills.filter (·.side = .buy)).reverse.find? (·.orderId = id)

/-- One more observation continues the chain of its position. -/
theorem Chained.scan {log : List StoredEvent} {orders : List PaperOrder} {fills : List PaperFill}
    {observations observations' : List (Stamped PositionObservation)}
    {event : Stamped PositionObservation}
    (hround : scanPosition log orders fills observations event = .ok observations')
    {fill : PaperFill} (hfill : observedFill fills event.body.orderId = some fill)
    (h : Chained fill.fillTime (observations.filter (·.body.orderId = event.body.orderId))) :
    Chained fill.fillTime
      (observations.filter (·.body.orderId = event.body.orderId) ++ [event]) := by
  simp only [scanPosition, Except.bind_eq_ok, require_eq_ok, reject_eq_ok, not_not, not_or,
    Bool.not_eq_false] at hround
  obtain ⟨found, hfound, _, -, _, -, _, -, _, hprevious, _, -, _, hcandles, _, hcontiguous, _,
    ⟨hend, hhighWater⟩, -⟩ := hround
  obtain rfl : found = fill := Option.some.inj (hfound.symm.trans hfill)
  have hprior : latestObservation observations event.body.orderId =
      (observations.filter (·.body.orderId = event.body.orderId)).getLast? := rfl
  rw [hprior] at hprevious hcontiguous hend hhighWater
  generalize observations.filter (·.body.orderId = event.body.orderId) = chain at *
  cases hlast : chain.getLast? with
  | none =>
    obtain rfl := List.getLast?_eq_none_iff.mp hlast
    simp only [List.getLast?_nil, Option.map_none, Option.getD_none] at hprevious hcontiguous
    simp only [List.getLast?_nil, Option.map_none, Option.getD_none] at hend hhighWater
    refine ⟨⟨hprevious, trivial⟩, by simpa [candlesOf] using hcontiguous, ?_⟩
    intro last hmem
    obtain rfl : event = last := by simpa using hmem
    simp only [candlesOf, List.nil_append, List.flatMap_cons, List.flatMap_nil, List.append_nil]
    exact ⟨by omega, hhighWater, hcandles⟩
  | some before =>
    rw [hlast] at hprevious hcontiguous hend hhighWater
    simp only [Option.map_some, Option.getD_some] at hprevious hcontiguous hend hhighWater
    obtain ⟨htime, hhigh, -⟩ := h.last before hlast
    have hstart : before.occurredAtUtc + fourHours =
        found.fillTime + ((candlesOf chain).length : ℤ) * fourHours := htime
    refine ⟨linked_snoc h.linked (by rw [hlast]; exact hprevious), ?_, ?_⟩
    · rw [candlesOf_snoc, contiguousFrom_append]
      exact ⟨h.contiguous, hstart ▸ hcontiguous⟩
    · intro last hmem
      obtain rfl : event = last := by simpa using hmem
      rw [candlesOf_snoc, List.foldl_append, ← hhigh, List.length_append]
      refine ⟨?_, hhighWater, by simp [hcandles]⟩
      push_cast
      rw [add_mul, ← add_assoc, ← hstart]
      omega

/-- The observations that are accepted are those of the log. -/
theorem observations_of_scan {log : List StoredEvent} {orders : List PaperOrder}
    {fills : List PaperFill} {events observations : List (Stamped PositionObservation)}
    (h : events.foldlM (scanPosition log orders fills) [] = .ok observations) :
    observations = events ∧ ∀ id, ∀ fill ∈ observedFill fills id,
      Chained fill.fillTime (events.filter (·.body.orderId = id)) := by
  induction events using List.reverseRecOn generalizing observations with
  | nil =>
    cases h
    refine ⟨rfl, fun id fill _ => ⟨trivial, rfl, ?_⟩⟩
    intro event hevent
    cases hevent
  | append_singleton events event ih =>
    obtain ⟨before, hbefore, hround⟩ := foldlM_snoc_eq_ok.mp h
    obtain ⟨rfl, hchains⟩ := ih hbefore
    have hsame : observations = before ++ [event] := by
      simp only [scanPosition, Except.bind_eq_ok, Except.pure_eq_ok] at hround
      obtain ⟨_, -, _, -, _, -, _, -, _, -, _, -, _, -, _, -, _, -, rfl⟩ := hround
      rfl
    refine ⟨hsame, fun id fill hfill => ?_⟩
    rw [List.filter_append]
    by_cases hid : event.body.orderId = id
    · subst hid
      rw [List.filter_singleton]
      simp only [decide_true, cond_true]
      exact Chained.scan hround hfill (hchains _ fill hfill)
    · rw [List.filter_singleton]
      simp only [hid, decide_false, cond_false, List.append_nil]
      exact hchains id fill hfill

/-- The observations of an accepted ledger are those of its log. -/
theorem observations_of_ledger {db : Database} {ledger : Ledger}
    (h : buildLedger db = .ok ledger) :
    ledger.positionObservations = view readPosition db.events ∧
      ∀ id, ∀ fill ∈ observedFill ledger.fills id,
        Chained fill.fillTime (observationsOf db.events id) := by
  obtain ⟨scan, -, -, -, hfills, hpositions⟩ := buildLedger_inv h
  rw [hfills]
  exact observations_of_scan hpositions

/-! ## The entry of a position -/

/-- An order of an accepted ledger has no two fills. -/
theorem fill_unique {db : Database} {ledger : Ledger} (h : buildLedger db = .ok ledger)
    {fill other : PaperFill} (hfill : fill ∈ ledger.fills) (hother : other ∈ ledger.fills)
    (hid : fill.orderId = other.orderId) : fill = other := by
  obtain ⟨scan, -, -, hscan, hfills, -⟩ := buildLedger_inv h
  obtain ⟨found, hfound, hsame⟩ := scanFills_found hscan
  rw [hfills, hsame, List.nil_append] at hfill hother
  have horigin : ∀ paper ∈ found.flatMap Option.toList, ∃ raw ∈ view readFill db.events,
      ∃ order, findPaperOrder ledger.orders raw.body.orderId = some order ∧
        raw.body.orderId = paper.orderId ∧
        paperFillOf db.events raw (some order) = .ok (some paper) := by
    intro paper hpaper
    obtain ⟨result, hresult, hmem⟩ := List.mem_flatMap.mp hpaper
    obtain rfl : result = some paper := by simpa using hmem
    obtain ⟨raw, hraw, hpaper⟩ := forall₂_exists_left hfound hresult
    cases horder : findPaperOrder ledger.orders raw.body.orderId with
    | none =>
      rw [horder] at hpaper
      cases hpaper
    | some order =>
      rw [horder] at hpaper
      refine ⟨raw, hraw, order, horder, ?_, hpaper⟩
      simp only [paperFillOf, Except.bind_eq_ok, Except.pure_eq_ok, Option.some.injEq] at hpaper
      obtain ⟨_, -, _, hread, rfl⟩ := hpaper
      simp only [paperFillFromEvidence, Except.bind_eq_ok, Except.pure_eq_ok] at hread
      obtain ⟨_, -, _, -, _, -, _, -, _, -, rfl⟩ := hread
      rfl
  obtain ⟨raw, hraw, order, horder, hrawId, hpaper⟩ := horigin fill hfill
  obtain ⟨raw', hraw', order', horder', hrawId', hpaper'⟩ := horigin other hother
  -- both raw fills are the one fill of the order
  obtain ⟨m, -, hm, hmid⟩ := metadata_of_ledger h horder
  rw [orderFromMetadata_orderId hm] at hmid
  obtain ⟨_, _, _, _, _, _, _, _, -, -, -, -, -, -, houtcome, -⟩ := orderFromMetadata_eq_ok.mp hm
  have hmem : raw ∈ fillsOf db.events m.body.orderId :=
    List.mem_filter.mpr ⟨hraw, by simp [hmid]⟩
  have hmem' : raw' ∈ fillsOf db.events m.body.orderId := by
    refine List.mem_filter.mpr ⟨hraw', ?_⟩
    simp [hmid, hrawId, hrawId', hid]
  have hone : raw = raw' := by
    rcases orderOutcome_cases houtcome with ⟨hnone, -⟩ | ⟨hnone, -⟩ | ⟨only, honly, -⟩
    · simp [hnone] at hmem
    · simp [hnone] at hmem
    · rw [honly, List.mem_singleton] at hmem hmem'
      rw [hmem, hmem']
  subst hone
  cases horder.symm.trans horder'
  cases hpaper.symm.trans hpaper'
  rfl

/-- The purchase of an order is the fill that its observations refer to. -/
theorem observedFill_of_mem {db : Database} {ledger : Ledger} (h : buildLedger db = .ok ledger)
    {fill : PaperFill} (hfill : fill ∈ ledger.fills) (hside : fill.side = .buy) :
    observedFill ledger.fills fill.orderId = some fill := by
  have hmem : fill ∈ (ledger.fills.filter (·.side = .buy)).reverse :=
    List.mem_reverse.mpr (List.mem_filter.mpr ⟨hfill, by simp [hside]⟩)
  cases hfound : observedFill ledger.fills fill.orderId with
  | none =>
    have hnone := List.find?_eq_none.mp hfound fill hmem
    simp at hnone
  | some found =>
    have hid : found.orderId = fill.orderId := by simpa using List.find?_some hfound
    have hfoundMem := List.mem_reverse.mp (List.mem_of_find?_eq_some hfound)
    rw [fill_unique h (List.mem_of_mem_filter hfoundMem) hfill hid]

/-- The observations of a purchase come to the bars from its fill to the last one. -/
theorem chain_of_ledger {db : Database} {ledger : Ledger} (h : buildLedger db = .ok ledger)
    {fill : PaperFill} (hfill : fill ∈ ledger.fills) (hside : fill.side = .buy)
    {last : Stamped PositionObservation}
    (hlast : (observationsOf db.events fill.orderId).getLast? = some last) :
    Linked none (observationsOf db.events fill.orderId) ∧
      (∃ k : ℕ, last.occurredAtUtc = fill.fillTime + k * fourHours) ∧
      (candlesOf (observationsOf db.events fill.orderId)).map Prod.fst =
        barsBetween fill.fillTime last.occurredAtUtc ∧
      IsGreatest {high | high ∈ (candlesOf (observationsOf db.events fill.orderId)).map Prod.snd}
        last.body.highWater := by
  have hchain := (observations_of_ledger h).2 fill.orderId fill (observedFill_of_mem h hfill hside)
  obtain ⟨htimes, hpositive⟩ := times_of_contiguous hchain.contiguous
  obtain ⟨htime, hhigh, hne⟩ := hchain.last last hlast
  have hcount : 0 < (candlesOf (observationsOf db.events fill.orderId)).length :=
    List.length_pos_of_ne_nil hne
  obtain ⟨k, hk⟩ := Nat.exists_eq_succ_of_ne_zero hcount.ne'
  have hend : last.occurredAtUtc = fill.fillTime + k * fourHours := by
    rw [hk] at htime
    push_cast at htime
    rw [add_mul, one_mul, ← add_assoc] at htime
    omega
  refine ⟨hchain.linked, ⟨k, hend⟩, ?_, ?_⟩
  · have hspan : (last.occurredAtUtc - fill.fillTime) / fourHours = k := by
      rw [hend, add_sub_cancel_left]
      exact Int.mul_ediv_cancel _ (by decide)
    rw [htimes, barsBetween, hspan, hk]
    rfl
  · rw [hhigh]
    exact isGreatest_foldl_max hne hpositive

end AutoBit.Broker
