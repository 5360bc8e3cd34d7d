import AutoBit.Live.Protection
import Mathlib.Data.List.Induction

/-!
# A position over a run

A price raises the high of the position that it finds, and a candle that ended after the entry
raises its high and its age and may compute its next stop. So while a position is held its
facts never decrease, and each has its evidence in the calls since the position was opened.
-/

namespace AutoBit.Live

open Library Health Risk Strategy Relation

/-! ## Prices -/

section Prices

variable (env : Environment) (settings : Settings) {start : Journal} {past : List Invocation}
  {invocation : Invocation} {base : ℕ} {world : World} {price : ℚ}

/-- A price that is observed raises the high of the position. -/
theorem protectAt_watches {state : LiveState} {balances : Option (Account × Account)}
    (hstate : world.journal.state = some state)
    (hcall : invocation.call = .price (.number price)) (hpositive : 0 < price) :
    Follows (Watching settings past past (past ++ [invocation]) base)
      (protectAt env settings state price invocation.at_ balances)
      (fun _ next => ∀ position ∈ next.journal.position, price ≤ position.highWater) world := by
  have hposition : world.journal.position = state.position := by
    rw [Journal.position, hstate]
    rfl
  have hseen : ∀ reports entryAt, Seen (past ++ [invocation]) reports entryAt price := by
    intro reports entryAt
    exact .observed (List.mem_append_right _ (List.mem_singleton.mpr rfl)) hcall hpositive
  unfold protectAt
  extract_lets position rest
  have hhigh : ∀ held ∈ position, price ≤ held.highWater := by
    intro held hheld
    obtain ⟨before, _, rfl⟩ := Option.map_eq_some_iff.mp hheld
    exact le_max_right _ _
  have hrest : ∀ {middle : World}, middle.journal.position = position →
      Library.Follows (Watching settings past past (past ++ [invocation]) base) (rest ⟨⟩)
        (fun _ next => ∀ held ∈ next.journal.position, price ≤ held.highWater) middle := by
    intro middle hmiddle
    have hstay := refl_of (Watching settings past past (past ++ [invocation]) base) middle
    have hbelow : ∀ held ∈ middle.journal.position, price ≤ held.highWater := hmiddle ▸ hhigh
    simp only [rest]
    generalize position = held
    split
    · split
      · refine (submit_steady env settings _ _ _ _ middle).weaken (fun _ h => h.watching) ?_
        intro _ next hsteady _
        rw [hsteady.position]
        exact hbelow
      · exact Follows.pure hstay hbelow
    · exact Follows.pure hstay hbelow
  split
  · refine Follows.trans_bind (save_follows env (fun n => (steady_accessed world n).watching)
      fun n _ => ?_) fun _ saved _ hjournal => hrest (by rw [hjournal]; rfl)
    refine ⟨rfl, List.prefix_refl _, ?_, fun hevident => ?_⟩
    · intro kept hkept
      obtain ⟨held, hheld, rfl⟩ := Option.map_eq_some_iff.mp hkept
      refine ⟨held, hposition ▸ hheld, (activate_grown held invocation.at_).trans ?_⟩
      exact ⟨rfl, rfl, rfl, le_max_left _ _, le_refl _, le_refl _⟩
    · intro kept hkept
      obtain ⟨held, hheld, rfl⟩ := Option.map_eq_some_iff.mp hkept
      exact ((hevident held (hposition ▸ hheld)).activate (le_refl _)).observe (hseen _ _)
  · next hsame => exact hrest (by rw [hposition, not_not.mp hsame])

/-- A price that is a price is in the high of the position that is held after it. -/
theorem onPrice_guards {observed : Reading} (hcall : invocation.call = .price observed)
    (hclock : world.clock = invocation.at_) (hbase : base ≤ world.reports.length) :
    Follows (Guarding settings past past (past ++ [invocation]) base start)
      (onPrice env settings observed)
      (fun _ next => ∀ price, observed = .number price → 0 < price →
        ∀ position ∈ next.journal.position, price ≤ position.highWater) world := by
  refine Follows.read_bind (execute_get world) (.stay world) fun _ h => ?_
  cases h
  rw [hclock]
  refine Follows.bind (S := Guarding settings past past (past ++ [invocation]) base start)
    (T := Watching settings past past (past ++ [invocation]) base)
    (reconcile_guards env hclock hbase) (fun _ h => h) (fun _ _ h hrest => h.watched hrest)
    fun balances reconciled hreconciled _ => ?_
  have hstay := refl_of (Watching settings past past (past ++ [invocation]) base) reconciled
  refine Follows.read_bind (execute_journalState _) hstay fun _ h => ?_
  cases h
  cases hstate : reconciled.journal.state with
  | none =>
    refine Follows.pure hstay ?_
    simp [Journal.position, hstate]
  | some state =>
    have hpersist : ∀ health, (∀ price, observed = .number price → ¬0 < price) →
        Follows (Watching settings past past (past ++ [invocation]) base)
          (persistHealth env health) (fun _ next => ∀ price, observed = .number price →
            0 < price → ∀ position ∈ next.journal.position, price ≤ position.highWater)
          reconciled := by
      intro health hnone
      refine (persistHealth_monitors env health reconciled).weaken
        (fun _ h => h.steady.watching) fun _ _ _ _ price hprice hpositive => ?_
      exact absurd hpositive (hnone price hprice)
    simp only
    split
    · next price =>
      split
      · next hpositive =>
        refine (protectAt_watches env settings hstate hcall hpositive).weaken (fun _ h => h) ?_
        rintro _ next _ hnext _ ⟨⟩ _
        exact hnext
      · next hnonpositive =>
        refine hpersist _ ?_
        rintro _ ⟨⟩
        exact hnonpositive
    · next hother =>
      refine hpersist _ fun price hprice => absurd hprice (hother price)

end Prices

/-! ## Candles -/

section Candles

variable (env : Environment) (settings : Settings) {start : Journal} {past since : List Invocation}
  {base : ℕ} {world : World} {at_ bar : ℤ} {row supplied : Row}

/-- The state is opened without a change to the position. -/
theorem openState_steady (check : CandleCheck) (row : Row)
    (balances : Option (Account × Account)) (world : World) :
    Follows Steady (openState env check row balances)
      (fun state next => next.journal.state = some state) world := by
  refine Follows.read_bind (execute_journalState world) (refl_of Steady _) fun _ h => ?_
  cases h
  cases hstate : world.journal.state with
  | some state => exact Follows.pure (refl_of Steady _) hstate
  | none =>
    refine Follows.read_bind (execute_lift _ _) (refl_of Steady _) fun verified _ => ?_
    refine Follows.read_bind (execute_lift _ _) (refl_of Steady _) fun state hopen => ?_
    refine Follows.trans_bind (save_follows env (steady_accessed world) fun n _ => ?_)
      fun _ opened _ hopened => ?_
    · refine ⟨?_, rfl, List.prefix_refl _⟩
      simp [Journal.position, hstate, (initialState_eq_ok hopen).2.1]
    · refine Follows.pure (refl_of Steady _) ?_
      rw [hopened]

/-- A candle that has been consumed before leaves the position alone. -/
theorem replay_steady (check : CandleCheck) (row : Row) (fingerprint : Option String)
    (state : LiveState) (health : HealthSnapshot) (observation : RiskObservation) (world : World) :
    Follows Steady (replay env settings check row fingerprint state health observation at_)
      (fun _ _ => True) world := by
  refine Follows.trans_bind (Follows.steady (persistHealth_monitors env _ world))
    fun _ next _ _ => ?_
  simp only
  split
  · exact Follows.pure (refl_of Steady _) trivial
  · exact Follows.pure (refl_of Steady _) trivial

/-- The next stop of a decision is pending, computed from its candle. -/
theorem advance_watches {finish : ℤ} {fingerprint : String} {state : LiveState} {equity : ℚ}
    {healthy : Bool} {health : HealthSnapshot} {observation : RiskObservation}
    {balances : Option (Account × Account)} (hstate : world.journal.state = some state)
    (hfinish : finish = bar + fourHours) (hatr : row.atr = supplied.atr)
    (hprocessed : ∀ position ∈ state.position, Processed since position.entryAt bar supplied)
    (hhigh : ∀ position ∈ state.position, ∀ high ∈ row.high, high ≤ position.highWater)
    (hpast : past ⊆ since) :
    Follows (Watching settings past since since base)
      (advance env settings bar finish row fingerprint state equity healthy health observation
        balances at_) (fun _ _ => True) world := by
  have hposition : world.journal.position = state.position := by
    rw [Journal.position, hstate]
    rfl
  have hmore : ∀ {middle next : World}, Steady middle next →
      Watching settings past since since base middle next := fun h => h.watching.more hpast
  unfold advance
  extract_lets result
  refine Follows.bind (S := Steady) (T := Watching settings past since since base)
    (M := fun _ next => next.journal = world.journal) ?_ (fun _ h => hmore h)
    (fun _ _ h hrest => h.watching.trans hrest) ?_
  · refine follows_iff.mpr ⟨?_, fun e next h => by cases h⟩
    rintro _ _ h
    cases h
    exact ⟨⟨rfl, rfl, List.prefix_refl _⟩, rfl⟩
  rintro _ handed _ hhanded
  cases hresult : result with
  | error e =>
    refine Follows.weaken (S := Steady) (P := fun _ _ => True) ?_ (fun _ h => hmore h)
      fun _ _ _ _ => trivial
    refine Follows.trans_bind (Follows.steady (persistHealth_monitors env _ handed))
      fun _ _ _ _ => ?_
    exact Follows.pure (refl_of Steady _) trivial
  | ok risk =>
    dsimp -zeta only
    extract_lets
    refine Follows.read_bind (execute_journalPending handed) (hmore (refl_of Steady _))
      fun pending _ => ?_
    extract_lets decision position advanced returned recovered
    refine Follows.bind (S := Watching settings past since since base) (T := Steady)
      (commit_follows env (fun n => hmore (steady_accessed handed n)) fun journal n h => ?_)
      (fun _ h => h) (fun _ _ h hrest => h.trans hrest.watching) fun _ stored _ _ => ?_
    · obtain ⟨_, rfl⟩ := Journal.write_eq_ok h
      have hbefore : handed.journal.position = state.position := by rw [hhanded, hposition]
      refine ⟨rfl, List.prefix_refl _, ?_, fun hevident => ?_⟩
      · intro kept hkept
        obtain ⟨held, hheld, rfl⟩ := Option.map_eq_some_iff.mp hkept
        refine ⟨held, hbefore ▸ hheld, ?_⟩
        split
        · exact ⟨rfl, rfl, rfl, le_refl _, le_refl _, le_refl _⟩
        · exact Grown.refl held
      · intro kept hkept
        obtain ⟨held, hheld, rfl⟩ := Option.map_eq_some_iff.mp hkept
        have hheld : state.position = some held := hheld
        have hevidence := (hevident held (hbefore ▸ hheld)).more hpast (List.prefix_refl _)
          (List.Subset.refl _)
        split
        · next stop hstop =>
          refine hevidence.schedule ?_
          rw [hfinish]
          simp only [decision, hheld] at hstop
          exact hevidence.decides (hprocessed held hheld) hatr (hhigh held hheld) hstop
        · exact hevidence
    have hrecovered : ∀ next, Follows Steady (recovered ⟨⟩) (fun _ _ => True) next := by
      intro next
      simp only [recovered, returned]
      split
      · refine Follows.read_bind (execute_currentHealth next) (refl_of Steady _) fun _ _ => ?_
        refine Follows.trans_bind (Follows.steady (persistHealth_monitors env _ next))
          fun _ _ _ _ => ?_
        exact Follows.pure (refl_of Steady _) trivial
      · exact Follows.pure (refl_of Steady _) trivial
    split
    · exact Follows.trans_bind (submit_steady env settings _ _ _ _ stored)
        fun _ submitted _ _ => hrecovered submitted
    · exact hrecovered stored

/-- The price that the row of an entry candle adds to the high is the price of the candle. -/
theorem entryRow_high (position : LivePosition) (bar : ℤ) (row : Row) :
    max position.highWater ((entryRow position bar row).high.getD 0) =
      max position.highWater (barPrice position.entryAt bar row) := by
  unfold entryRow barPrice
  split
  · rw [Option.getD_some, ← max_assoc, max_self]
  · rfl

/-- The row of the entry candle keeps its ATR. -/
@[simp] theorem entryRow_atr (position : LivePosition) (bar : ℤ) (row : Row) :
    (entryRow position bar row).atr = row.atr := by
  unfold entryRow
  split <;> rfl

/-- A candle that ended after the entry is recorded against the position, and may compute its
next stop. -/
theorem consume_watches {finish : ℤ} {fingerprint : String} {state : LiveState}
    {health : HealthSnapshot} {observation : RiskObservation}
    {balances : Option (Account × Account)} {invocation : Invocation}
    (hstate : world.journal.state = some state) (hfinish : finish = bar + fourHours)
    (hended : finish ≤ invocation.at_)
    (hprocessed : ∀ position ∈ state.position,
      Processed (past ++ [invocation]) position.entryAt bar row)
    (horder : ∀ position ∈ state.position, ∀ prior ∈ position.completedBarAt, prior ≤ bar) :
    Follows (Watching settings past (past ++ [invocation]) (past ++ [invocation]) base)
      (consume env settings bar finish row fingerprint state health observation balances at_)
      (fun _ _ => True) world := by
  have hposition : world.journal.position = state.position := by
    rw [Journal.position, hstate]
    rfl
  have hpast : past ⊆ past ++ [invocation] := List.subset_append_left _ _
  unfold consume
  extract_lets active entry position held close quantity equity healthy cashAvailable overlay rest
  have hactive : ∀ owned ∈ active, ∃ before ∈ state.position, owned = activate before finish := by
    intro owned howned
    obtain ⟨before, hbefore, rfl⟩ := Option.map_eq_some_iff.mp howned
    exact ⟨before, hbefore, rfl⟩
  have hrow : ∀ owned ∈ active, entry = entryRow owned bar row := by
    intro owned howned
    simp only [entry, Option.mem_def.mp howned, Option.map_some, Option.getD_some]
  have hatr : entry.atr = row.atr := by
    cases hsome : active with
    | none => simp [entry, hsome]
    | some owned => rw [hrow owned hsome, entryRow_atr]
  have hrest : ∀ {middle : World}, middle.journal.state = some held →
      Library.Follows (Watching settings past (past ++ [invocation]) (past ++ [invocation]) base)
        (rest ⟨⟩) (fun _ _ => True) middle := by
    intro middle hheld
    simp only [rest]
    have hstay : Watching settings past (past ++ [invocation]) (past ++ [invocation]) base middle
        middle := (refl_of Steady middle).watching.more hpast
    refine Follows.read_bind (execute_journalPending middle) hstay fun pending _ => ?_
    split
    · exact Follows.pure hstay trivial
    · refine advance_watches env settings hheld hfinish hatr ?_ ?_ hpast
      · intro kept hkept
        obtain ⟨owned, howned, rfl⟩ := Option.map_eq_some_iff.mp hkept
        obtain ⟨before, hbefore, rfl⟩ := hactive owned howned
        have hentryAt : (activate before finish).entryAt = before.entryAt := by simp
        change Processed _ (activate before finish).entryAt bar row
        rw [hentryAt]
        exact hprocessed before hbefore
      · intro kept hkept high hhigh
        obtain ⟨owned, _, rfl⟩ := Option.map_eq_some_iff.mp hkept
        simp only [completePosition, Option.mem_def.mp hhigh, Option.getD_some]
        exact le_max_right _ _
  split
  · refine Follows.bind (S := Watching settings past past (past ++ [invocation]) base)
      (save_follows env (fun n => (steady_accessed world n).watching) fun n _ => ?_)
      (fun _ h => h.more hpast) (fun _ _ h hrest => h.trans hrest)
      fun _ saved _ hjournal => hrest (by rw [hjournal])
    refine ⟨rfl, List.prefix_refl _, ?_, fun hevident => ?_⟩
    · intro kept hkept
      obtain ⟨owned, howned, rfl⟩ := Option.map_eq_some_iff.mp hkept
      obtain ⟨before, hbefore, rfl⟩ := hactive owned howned
      exact ⟨before, hposition ▸ hbefore,
        (activate_grown before finish).trans (completePosition_grown _ _ _ _)⟩
    · intro kept hkept
      obtain ⟨owned, howned, rfl⟩ := Option.map_eq_some_iff.mp hkept
      have hprice : entry = entryRow owned bar row := hrow owned howned
      obtain ⟨before, hbefore, rfl⟩ := hactive owned howned
      have hprocessed : Processed (past ++ [invocation]) (activate before finish).entryAt bar row := by
        rw [activate_entryAt]
        exact hprocessed before hbefore
      refine ((hevident before (hposition ▸ hbefore)).activate hended).complete hprocessed ?_ ?_
      · rw [activate_completedBarAt]
        exact horder before hbefore
      · rw [hprice]
        exact entryRow_high _ bar row
  · next hnone =>
    have hnoPosition : position = none := by simpa using hnone
    have hnone : state.position = none := by
      simpa only [position, active, Option.map_eq_none_iff] using hnoPosition
    refine hrest ?_
    rw [hstate]
    simp only [held, hnoPosition, ← hnone]

/-- A candle that ended before the entry, or is older than the last one, changes no fact. -/
theorem observeCandle_watches {finish : ℤ} {fingerprint : String} {state : LiveState}
    {health : HealthSnapshot} {observation : RiskObservation}
    {balances : Option (Account × Account)} {invocation : Invocation}
    (hstate : world.journal.state = some state) (hfinish : finish = bar + fourHours)
    (hended : finish ≤ invocation.at_)
    (hprocessed : ∀ entryAt < bar + fourHours, Processed (past ++ [invocation]) entryAt bar row) :
    Follows (Watching settings past (past ++ [invocation]) (past ++ [invocation]) base)
      (observeCandle env settings bar finish row fingerprint state health observation balances at_)
      (fun _ _ => True) world := by
  have hpast : past ⊆ past ++ [invocation] := List.subset_append_left _ _
  have hmore : ∀ {next : World}, Steady world next →
      Watching settings past (past ++ [invocation]) (past ++ [invocation]) base world next :=
    fun h => h.watching.more hpast
  unfold observeCandle
  extract_lets completed older changed
  split
  · refine Follows.weaken (S := Steady) (P := fun _ _ => True) ?_ (fun _ h => hmore h)
      fun _ _ _ _ => trivial
    refine Follows.trans_bind (Follows.steady (persistHealth_monitors env _ world))
      fun _ _ _ _ => ?_
    exact Follows.pure (refl_of Steady _) trivial
  · next hconsumed =>
    split
    · exact Follows.pure (hmore (refl_of Steady _)) trivial
    · next hentered =>
      refine consume_watches env settings hstate hfinish hended ?_ ?_
      · intro position hmem
        refine hprocessed _ (hfinish ▸ ?_)
        by_contra hbefore
        exact hentered ⟨position, hmem, not_lt.mp hbefore⟩
      · intro position hmem prior hprior
        by_contra hlater
        have hcompleted : prior ∈ completed := by
          simp [completed, Option.mem_def.mp hmem, Option.mem_def.mp hprior]
        have holder : older = true := decide_eq_true ⟨prior, hcompleted, not_le.mp hlater⟩
        exact hconsumed (by rw [holder, Bool.true_or])

/-- What the checks of a candle that is valid establish. -/
theorem checkCandle_valid {candle : Candle} {observedAt : ℤ}
    (h : (checkCandle candle observedAt at_).valid = true) :
    ∃ bar, candle.timestamp = .aware bar true ∧ IsBoundary bar ∧ bar + fourHours ≤ at_ := by
  simp only [checkCandle] at h
  split at h
  · next instant utc _ _ _ _ htimestamp _ _ _ _ =>
    obtain ⟨hutc, hboundary, hended, hobserved, _⟩ := of_decide_eq_true h
    exact ⟨instant, by rw [htimestamp, hutc], hboundary, hended.trans hobserved⟩
  · cases h

/-- A candle keeps the evidence of the position, and its stop is pending from then on. -/
theorem processCompletedCandle_guards {candle : Candle} {observation : RiskObservation}
    {invocation : Invocation} (hcall : invocation.call = .candle candle observation)
    (hclock : world.clock = invocation.at_) (hbase : base ≤ world.reports.length) :
    Follows (Guarding settings past (past ++ [invocation]) (past ++ [invocation]) base start)
      (processCompletedCandle env settings candle observation) (fun _ _ => True) world := by
  have hpast : past ⊆ past ++ [invocation] := List.subset_append_left _ _
  have hstay : ∀ middle, Watching settings past (past ++ [invocation]) (past ++ [invocation]) base
      middle middle := fun middle => (refl_of Steady middle).watching.more hpast
  unfold processCompletedCandle
  refine Follows.read_bind (execute_get world)
    ((Guarding.stay world).watched (hstay world)) fun _ h => ?_
  cases h
  extract_lets at_ check fingerprint checked
  have hat : at_ = invocation.at_ := hclock
  refine Follows.bind (S := Guarding settings past past (past ++ [invocation]) base start)
    (T := Watching settings past (past ++ [invocation]) (past ++ [invocation]) base)
    (reconcile_guards env rfl hbase) (fun _ h => h.watched (hstay _))
    (fun _ _ h hrest => h.watched hrest) fun balances reconciled _ _ => ?_
  refine Follows.bind (S := Steady)
    (T := Watching settings past (past ++ [invocation]) (past ++ [invocation]) base)
    (openState_steady env check candle.row balances reconciled) (fun _ h => h.watching.more hpast)
    (fun _ _ h hrest => h.watching.trans hrest) fun state opened _ hstate => ?_
  refine Follows.read_bind (execute_currentHealth opened) (hstay opened) fun stored _ => ?_
  extract_lets monotonic
  refine Follows.read_bind (execute_lift _ _) (hstay opened) fun health _ => ?_
  extract_lets recorded
  split
  · exact (replay_steady env settings _ _ _ _ _ _ opened).weaken
      (fun _ h => h.watching.more hpast) fun _ _ _ _ => trivial
  refine Follows.bind (S := Steady)
    (T := Watching settings past (past ++ [invocation]) (past ++ [invocation]) base)
    (Follows.steady (persistHealth_monitors env _ opened)) (fun _ h => h.watching.more hpast)
    (fun _ _ h hrest => h.watching.trans hrest) fun _ saved _ hsaved => ?_
  refine Follows.read_bind (execute_journalState saved) (hstay saved) fun _ h => ?_
  cases h
  refine Follows.read_bind (execute_lift _ _) (hstay saved) fun current hcurrent => ?_
  rw [require_eq_ok] at hcurrent
  split
  · next bar finish fingerprint' hvalid hbarAt hfinish _ =>
    rw [Bool.and_eq_true, Bool.and_eq_true] at hvalid
    obtain ⟨instant, htimestamp, hboundary, hended⟩ := checkCandle_valid hvalid.1.1
    obtain rfl : bar = instant := by
      have hinstant : candle.timestamp.instant = some bar := hbarAt
      rw [htimestamp] at hinstant
      exact (Option.some.inj hinstant).symm
    obtain rfl : finish = bar + fourHours := by
      have hinstant : candle.timestamp.instant.map (· + fourHours) = some finish := hfinish
      rw [htimestamp] at hinstant
      exact (Option.some.inj hinstant).symm
    rw [hat] at hended
    refine observeCandle_watches env settings hcurrent rfl hended fun entryAt hafter => ?_
    have hlast : invocation ∈ past ++ [invocation] :=
      List.mem_append_right _ (List.mem_singleton.mpr rfl)
    exact ⟨⟨invocation, hlast, candle, observation, hcall, htimestamp, rfl, hended⟩, hboundary,
      hafter⟩
  · refine Follows.read_bind (execute_journalPending saved) (hstay saved) fun pending _ => ?_
    exact Follows.pure (hstay saved) trivial

end Candles

/-! ## Runs -/

section Runs

variable (env : Environment) (settings : Settings) {start : World} {base : ℕ} {world : World}
  {invocation : Invocation} {position : LivePosition}

/-- A call keeps the evidence of the position, and adds its own. -/
theorem after_guards (journal : Journal) (past : List Invocation) (invocation : Invocation)
    (world : World) (hbase : base ≤ world.reports.length) :
    Guarding settings past (past ++ [invocation]) (past ++ [invocation]) base journal
      { world with clock := invocation.at_ } (after env settings invocation world) := by
  have hpast : past ⊆ past ++ [invocation] := List.subset_append_left _ _
  have hmore : ∀ {middle next : World}, Guarding settings past past (past ++ [invocation]) base
      journal middle next → Guarding settings past (past ++ [invocation]) (past ++ [invocation])
        base journal middle next := fun h => h.watched ((refl_of Steady _).watching.more hpast)
  refine Follows.leaves (R := fun _ => Guarding settings past (past ++ [invocation])
    (past ++ [invocation]) base journal { world with clock := invocation.at_ })
    (P := fun _ _ => True) ?_
  refine Follows.bind (S := fun _ => (· = { world with clock := invocation.at_ }))
    (T := Guarding settings past (past ++ [invocation]) (past ++ [invocation]) base journal)
    (M := fun _ _ => True) ?_ ?_ (fun _ _ h => h ▸ id) ?_
  · refine follows_iff.mpr ⟨?_, fun e next h => by cases h⟩
    rintro _ _ h
    cases h
    exact ⟨rfl, trivial⟩
  · rintro _ rfl
    exact hmore (.stay _)
  rintro _ _ rfl _
  split
  · refine Follows.bind (S := Guarding settings past past (past ++ [invocation]) base journal)
      (T := fun middle next => next = middle) (reconcile_guards env rfl hbase) (fun _ h => hmore h)
      (fun _ _ h hsame => hsame ▸ hmore h) fun _ middle _ _ => Follows.pure rfl trivial
  · next observed hcall =>
    refine Follows.weaken (onPrice_guards env settings hcall rfl hbase) (fun _ h => hmore h)
      fun _ _ _ _ => trivial
  · next candle observation hcall =>
    refine Follows.bind (T := fun middle next => next = middle)
      (processCompletedCandle_guards env settings hcall rfl hbase) (fun _ h => h)
      (fun _ _ h hsame => hsame ▸ h) fun _ middle _ _ => Follows.pure rfl trivial

/-- A call with a price that returns leaves it in the high of the position. -/
theorem after_price {at_ : ℤ} {price : ℚ} (hpositive : 0 < price)
    (hok : (execute (perform env settings ⟨at_, .price (.number price)⟩) world).1 = .ok ())
    (hheld : position ∈ (after env settings ⟨at_, .price (.number price)⟩ world).journal.position) :
    price ≤ position.highWater := by
  have hfollows : Follows (fun _ _ => True) (perform env settings ⟨at_, .price (.number price)⟩)
      (fun _ next => ∀ position ∈ next.journal.position, price ≤ position.highWater) world := by
    refine Follows.bind (S := fun _ _ => True) (T := fun _ _ => True)
      (M := fun _ middle => middle = { world with clock := at_ }) ?_ (fun _ _ => trivial)
      (fun _ _ _ _ => trivial) ?_
    · refine follows_iff.mpr ⟨?_, fun e next h => by cases h⟩
      rintro _ _ h
      cases h
      exact ⟨trivial, rfl⟩
    · rintro _ _ _ rfl
      have hguards : Follows (Guarding settings [] ([] ++ [⟨at_, .price (.number price)⟩])
          ([] ++ [⟨at_, .price (.number price)⟩]) 0 {})
          (onPrice env settings (.number price)) _ { world with clock := at_ } :=
        Follows.weaken (onPrice_guards env settings rfl rfl (Nat.zero_le _)) (fun _ h => h.watched
          ((refl_of Steady _).watching.more (List.nil_subset _))) fun _ _ _ h => h
      refine hguards.weaken (fun _ _ => trivial) ?_
      intro _ next _ hnext
      exact hnext price rfl hpositive
  exact ((follows_iff.mp hfollows).1 () _ (Prod.ext hok rfl)).2 position hheld

/-- What the facts of a position rest on that was opened after the calls `flat`, by the calls
`since`: it was held after each of them and only grew, and its facts have their evidence in these
calls and in what the venue reported during them. -/
structure Rests (start : World) (flat since : List Invocation) (position : LivePosition) :
    Prop where
  unheld : (run env settings flat start).journal.position = none
  grown : ∀ earlier later, since = earlier ++ later → earlier ≠ [] →
    ∃ before ∈ (run env settings (flat ++ earlier) start).journal.position, Grown before position
  evident : Evident settings since since
    ((run env settings (flat ++ since) start).reports.drop
      (run env settings flat start).reports.length) position

/-- A run with one more call is that call after the run. -/
theorem run_concat (calls : List Invocation) (invocation : Invocation) (start : World) :
    run env settings (calls ++ [invocation]) start =
      after env settings invocation (run env settings calls start) := by
  rw [run_append]
  rfl

/-- What was reported before a run is reported after it. -/
theorem run_reports (calls : List Invocation) (world : World) :
    world.reports <+: (run env settings calls world).reports := by
  induction calls generalizing world with
  | nil => exact List.prefix_refl _
  | cons invocation calls ih =>
    have hafter := after_guards env settings {} [] invocation world
      (Nat.zero_le world.reports.length)
    exact hafter.reports.trans (ih _)

/-- A position that a call opens rests on that call. -/
theorem Rests.opened (hflat : start.journal.Flat) {calls : List Invocation}
    (hunheld : (run env settings calls start).journal.position = none)
    (hheld : (run env settings (calls ++ [invocation]) start).journal.position = some position) :
    Rests env settings start calls [invocation] position := by
  have hsound := run_sound env settings hflat calls
  rw [run_concat] at hheld
  set world := run env settings calls start with hworld
  have hguard := after_guards env settings start.journal [] invocation world
    (le_refl world.reports.length)
  have hnone : ({ world with clock := invocation.at_ } : World).Evident settings [] [invocation]
      world.reports.length := by
    intro before hbefore
    have hbefore : world.journal.position = some before := hbefore
    rw [hunheld] at hbefore
    cases hbefore
  refine ⟨hunheld, ?_, ?_⟩
  · intro earlier later hsince hne
    obtain ⟨rfl, _⟩ : earlier = [invocation] ∧ later = [] := by
      rcases List.singleton_eq_append_iff.mp hsince with ⟨rfl, _⟩ | h
      · exact absurd rfl hne
      · exact h
    rw [run_concat]
    exact ⟨position, hheld, Grown.refl position⟩
  · rw [run_concat]
    exact (hguard.evident hsound hnone) position hheld

/-- A position that a call leaves held rests on that call too. -/
theorem Rests.concat (hflat : start.journal.Flat) {flat since : List Invocation}
    {before : LivePosition} (h : Rests env settings start flat since before)
    (hbefore : (run env settings (flat ++ since) start).journal.position = some before)
    (hheld : (run env settings (flat ++ (since ++ [invocation])) start).journal.position =
      some position) :
    Rests env settings start flat (since ++ [invocation]) position := by
  have hsound := run_sound env settings hflat (flat ++ since)
  have hbase : (run env settings flat start).reports.length ≤
      (run env settings (flat ++ since) start).reports.length := by
    rw [run_append]
    exact (run_reports env settings since _).length_le
  have hevident := h.evident
  rw [← List.append_assoc, run_concat] at hheld
  set world := run env settings (flat ++ since) start with hworld
  have hguard := after_guards env settings start.journal since invocation world hbase
  have hevidence : ({ world with clock := invocation.at_ } : World).Evident settings since
      (since ++ [invocation]) (run env settings flat start).reports.length := by
    intro held hmem
    obtain rfl : before = held := Option.some.inj (hbefore.symm.trans hmem)
    exact hevident.more (List.Subset.refl _) (List.prefix_append _ _) (List.Subset.refl _)
  have hlast : Grown before position := hguard.grown hsound hevidence before hbefore position hheld
  refine ⟨h.unheld, ?_, ?_⟩
  · intro earlier later hsince hne
    rcases later.eq_nil_or_concat with rfl | ⟨init, last, rfl⟩
    · rw [List.append_nil] at hsince
      rw [← hsince, ← List.append_assoc, run_concat]
      exact ⟨position, hheld, Grown.refl position⟩
    · rw [List.concat_eq_append, ← List.append_assoc] at hsince
      obtain ⟨hsince, _⟩ := List.append_inj' hsince rfl
      obtain ⟨held, hmem, hmore⟩ := h.grown earlier init hsince hne
      exact ⟨held, hmem, hmore.trans hlast⟩
  · rw [← List.append_assoc, run_concat]
    exact (hguard.evident hsound hevidence) position hheld

/-- Every position that is held was opened by one of the calls, and rests on the calls since. -/
theorem run_rests (hflat : start.journal.Flat) (calls : List Invocation)
    (hheld : (run env settings calls start).journal.position = some position) :
    ∃ flat since, calls = flat ++ since ∧ Rests env settings start flat since position := by
  induction calls using List.reverseRecOn generalizing position with
  | nil =>
    obtain ⟨state, hstate, hposition⟩ := Option.bind_eq_some_iff.mp hheld
    rw [hflat.1 state hstate] at hposition
    cases hposition
  | append_singleton calls invocation ih =>
    cases hbefore : (run env settings calls start).journal.position with
    | none => exact ⟨calls, [invocation], rfl, Rests.opened env settings hflat hbefore hheld⟩
    | some before =>
      obtain ⟨flat, since, rfl, hrests⟩ := ih hbefore
      rw [List.append_assoc] at hheld
      exact ⟨flat, since ++ [invocation], List.append_assoc _ _ _,
        Rests.concat env settings hflat hrests hbefore hheld⟩

/-- In every run the position that is held was opened by one of the calls and has been held since.
Its high, its stop and its age never decreased, and each has its evidence in the calls since and
in what the venue reported during them: fills of the position, prices that were observed, and
candles that ended after the entry. Every price that was observed is in its high. -/
theorem position_facts_have_evidence (hflat : start.journal.Flat) (calls : List Invocation)
    (hheld : (run env settings calls start).journal.position = some position) :
    ∃ flat since, calls = flat ++ since ∧ Rests env settings start flat since position ∧
      ∀ earlier at_ price later, since = earlier ++ ⟨at_, .price (.number price)⟩ :: later →
        0 < price → (execute (perform env settings ⟨at_, .price (.number price)⟩)
          (run env settings (flat ++ earlier) start)).1 = .ok () → price ≤ position.highWater := by
  obtain ⟨flat, since, hcalls, hrests⟩ := run_rests env settings hflat calls hheld
  refine ⟨flat, since, hcalls, hrests, ?_⟩
  intro earlier at_ price later hsince hpositive hok
  set observing : Invocation := ⟨at_, .price (.number price)⟩ with hobserving
  obtain ⟨before, hbefore, hgrown⟩ := hrests.grown (earlier ++ [observing]) later
    (by rw [hsince, List.append_assoc, List.singleton_append]) (by simp)
  rw [← List.append_assoc, run_concat] at hbefore
  exact (after_price env settings hpositive hok hbefore).trans hgrown.high

end Runs

/-- An environment in which the order is filled and the accounts are out of reach. -/
def filling : Environment :=
  { committing with
    orders _ := .answer (filledBid .done 2 210 (2 / 10))
    accounts _ := .failed "timeout" }

/-- The bid opens the position at 105, and a price of 200 is observed after it. -/
theorem position_facts_have_evidence_observed :
    ∃ position flat since, position.highWater = 200 ∧
      [⟨7, .reconcile⟩, ⟨8, .price (.number 200)⟩] = flat ++ since ∧
      Rests filling { fingerprint := fun _ _ => none } pendingBid flat since position := by
  have hflat : pendingBid.journal.Flat := by
    refine ⟨?_, ?_⟩
    · rintro state ⟨⟩
      rfl
    · intro intent hintent
      obtain rfl := List.mem_singleton.mp (List.mem_filter.mp hintent).1
      exact ⟨rfl, rfl, rfl⟩
  have hheld : (run filling { fingerprint := fun _ _ => none }
      [⟨7, .reconcile⟩, ⟨8, .price (.number 200)⟩] pendingBid).journal.position.any
      (fun position => position.highWater = 200) = true := by decide +kernel
  obtain ⟨position, hposition, hhigh⟩ := (Option.any_eq_true _ _).mp hheld
  obtain ⟨flat, since, hcalls, hrests, _⟩ :=
    position_facts_have_evidence filling { fingerprint := fun _ _ => none } hflat _ hposition
  exact ⟨position, flat, since, of_decide_eq_true hhigh, hcalls, hrests⟩

end AutoBit.Live
