import AutoBit.Health.Persistence

/-!
# What a reload preserves

A batch of observations moves the fill episode in memory; the reload sees only the last
snapshot of the batch and the suffix of its event. `Carried` says which batches one event
can carry. A deviating fill that clears recovery evidence is not among them.
-/

namespace AutoBit.Health

open Library Store

/-- What a call does to the fill episode: a fill beyond the limit, a fill within it, or a
flat-account check that is taken. -/
inductive FillMove where
  | deviates (deviation : FloatValue) (at_ : Option ℤ)
  | agrees (at_ : Option ℤ)
  | flatCheck (eligible : Bool) (at_ : ℤ)
  deriving DecidableEq, Repr

/-- The fill episode after a move. -/
def FillEpisode.move (p : FillEpisode) : FillMove → FillEpisode
  | .deviates deviation at_ =>
    { active := true
      episode := if p.active then p.episode else p.episode + 1
      checks := 0
      anomalyDeviation := p.anomalyDeviation.max deviation
      detectedAt := if p.active then p.detectedAt else at_
      resolvedAt := none
      lastRecoveryAt := none }
  | .agrees at_ =>
    if p.active then { p with active := false, checks := apiSuccessesRequired, resolvedAt := at_ }
    else p
  | .flatCheck eligible at_ =>
    let checks := nextChecks eligible p.checks
    let resolved := eligible && decide (apiSuccessesRequired ≤ checks)
    { p with
      active := !resolved
      checks
      resolvedAt := if resolved then some at_ else none
      lastRecoveryAt := some at_ }

/-- The move that a call makes, if it makes one. -/
def fillMove (s : HealthSnapshot) : Observation → Option FillMove
  | .fillCheck expectedPrice actualPrice observed =>
    if isPositiveFinite expectedPrice ∧ isPositiveFinite actualPrice then
      if decimalDeviation expectedPrice actualPrice ≤ fillDeviationLimitDecimal then
        some (.agrees observed)
      else some (.deviates (storedDeviation (decimalDeviation expectedPrice actualPrice)) observed)
    else none
  | .flatFillRecoveryCheck eligible observed =>
    if takesFlatCheck s observed then some (.flatCheck eligible observed) else none
  | _ => none

/-- The moves of a batch. -/
def fillMoves (s : HealthSnapshot) : List Observation → List FillMove
  | [] => []
  | o :: batch => (fillMove s o).toList ++ fillMoves (observe s o) batch

/-- The episode after moves. -/
def FillEpisode.run (p : FillEpisode) (moves : List FillMove) : FillEpisode :=
  moves.foldl FillEpisode.move p

/-- No moves leave an episode as it is. -/
@[simp] theorem FillEpisode.run_nil (p : FillEpisode) : p.run [] = p := rfl

/-- The first of the moves is made first. -/
@[simp] theorem FillEpisode.run_cons (p : FillEpisode) (move : FillMove) (moves : List FillMove) :
    p.run (move :: moves) = (p.move move).run moves := rfl

/-- Moves are made one stretch after the other. -/
theorem FillEpisode.run_append (p : FillEpisode) (before after : List FillMove) :
    p.run (before ++ after) = (p.run before).run after := List.foldl_append

/-- The end of a recording method leaves the episode alone. -/
@[simp] theorem finishObservation_fillEpisode (t : HealthSnapshot) :
    (finishObservation t).fillEpisode = t.fillEpisode := rfl

/-- A call makes its move. -/
theorem observe_fillEpisode (s : HealthSnapshot) (o : Observation) :
    (observe s o).fillEpisode = s.fillEpisode.run (fillMove s o).toList := by
  cases o with
  | fillCheck expectedPrice actualPrice observed =>
    rcases recordFillCheck_cases s expectedPrice actualPrice observed with
      ⟨haccepted, hchecked⟩ | ⟨hrefused, hfailed⟩
    · have hpositive : isPositiveFinite expectedPrice ∧ isPositiveFinite actualPrice := haccepted
      simp only [observe, hchecked, finishObservation_fillEpisode, fillMove, if_pos hpositive]
      by_cases hwithin : decimalDeviation expectedPrice actualPrice ≤ fillDeviationLimitDecimal
      · cases hactive : s.fillWithinLimit <;>
          simp [HealthSnapshot.fillEpisode, afterFillCheck, FillEpisode.move, hwithin, hactive]
      · cases hactive : s.fillWithinLimit <;>
          simp [HealthSnapshot.fillEpisode, afterFillCheck, FillEpisode.move, hwithin, hactive]
    · have hpositive : ¬(isPositiveFinite expectedPrice ∧ isPositiveFinite actualPrice) := hrefused
      simp only [observe, hfailed, fillMove, if_neg hpositive]
      rfl
  | flatFillRecoveryCheck eligible observed =>
    simp only [observe, recordFlatFillRecoveryCheck, fillMove]
    by_cases hwithin : s.fillWithinLimit = true
    · rw [if_pos hwithin, if_neg (by simp [takesFlatCheck, hwithin])]
      rfl
    · rw [if_neg hwithin]
      by_cases hstale : ∃ prior ∈ s.lastFillRecoveryAtUtc, observed ≤ prior
      · rw [if_pos hstale, if_neg (by simpa [takesFlatCheck] using fun _ => hstale)]
        rfl
      · have htaken : takesFlatCheck s observed = true := by
          simpa [takesFlatCheck, hwithin] using hstale
        rw [if_neg hstale, if_pos htaken, finishObservation_fillEpisode]
        rfl
  | apiFailure observed =>
    simp only [observe, recordApiFailure]
    split <;> rfl
  | apiSuccess observed =>
    simp only [observe, recordApiSuccess]
    split <;> rfl
  | ledgerCheck storedCash actualCash storedBtc actualBtc observed =>
    simp only [observe, recordLedgerCheck]
    split <;> rfl
  | recoveryCycleSuccess observed =>
    simp only [observe, recordRecoveryCycleSuccess]
    split <;> rfl
  | candleCheck _ _ _ _ => rfl
  | timestampCheck _ _ => rfl
  | schemaCheck _ _ => rfl
  | unresolvedOrders _ _ => rfl
  | malformed _ => rfl

/-- A batch of calls makes its moves. -/
theorem observeAll_fillEpisode (s : HealthSnapshot) (batch : List Observation) :
    (observeAll s batch).fillEpisode = s.fillEpisode.run (fillMoves s batch) := by
  induction batch generalizing s with
  | nil => rfl
  | cons o batch ih =>
    rw [observeAll_cons, ih, fillMoves, FillEpisode.run_append, observe_fillEpisode]

/-! ## The shape of a batch -/

namespace FillMove

/-- A fill beyond the limit. -/
def isDeviation : FillMove → Bool
  | deviates .. => true
  | _ => false

/-- A fill within the limit. -/
def isAgreement : FillMove → Bool
  | agrees _ => true
  | _ => false

/-- The outcome of a flat-account check. -/
def outcome : FillMove → Option Bool
  | flatCheck eligible _ => some eligible
  | _ => none

end FillMove

/-- Only fills beyond the limit. -/
def Deviating (moves : List FillMove) : Prop := ∀ move ∈ moves, move.isDeviation = true

/-- Only fills within the limit. -/
def Agreeing (moves : List FillMove) : Prop := ∀ move ∈ moves, move.isAgreement = true

/-- No flat-account check. -/
def Flatless (moves : List FillMove) : Prop := ∀ move ∈ moves, move.outcome = none

/-- The worst deviation after moves. -/
def worstDeviation (worst : FloatValue) (moves : List FillMove) : FloatValue :=
  moves.foldl (fun worst move => match move with
    | .deviates deviation _ => worst.max deviation
    | _ => worst) worst

/-- The deviation of the last fill beyond the limit. -/
def lastDeviation (last : FloatValue) (moves : List FillMove) : FloatValue :=
  moves.foldl (fun last move => match move with
    | .deviates deviation _ => deviation
    | _ => last) last

/-- Every flat-account check is taken: the episode is active, and the check is the newest. -/
def FillEpisode.Takes (p : FillEpisode) : List FillMove → Prop
  | [] => True
  | move :: moves => (∀ eligible at_, move = .flatCheck eligible at_ →
      p.active = true ∧ ∀ last ∈ p.lastRecoveryAt, last < at_) ∧ (p.move move).Takes moves

/-- An episode that takes all moves takes the later ones after the earlier ones. -/
theorem FillEpisode.takes_append {p : FillEpisode} {before after : List FillMove}
    (h : p.Takes (before ++ after)) : (p.run before).Takes after := by
  induction before generalizing p with
  | nil => exact h
  | cons move before ih => exact ih h.2

/-- The moves of a batch are taken by the episode of its snapshot. -/
theorem fillMoves_taken (s : HealthSnapshot) (batch : List Observation) :
    s.fillEpisode.Takes (fillMoves s batch) := by
  induction batch generalizing s with
  | nil => trivial
  | cons o batch ih =>
    have hrest := ih (observe s o)
    rw [observe_fillEpisode] at hrest
    rw [fillMoves]
    cases hmove : fillMove s o with
    | none =>
      rw [hmove] at hrest
      exact hrest
    | some move =>
      rw [hmove] at hrest
      refine ⟨?_, hrest⟩
      rintro eligible at_ rfl
      cases o <;> simp only [fillMove, reduceCtorEq] at hmove
      · split_ifs at hmove <;> cases hmove
      · split_ifs at hmove with htakes
        cases hmove
        simpa [takesFlatCheck, HealthSnapshot.fillEpisode] using htakes

/-- Fills within the limit change nothing without an active episode. -/
theorem run_agreeing {p : FillEpisode} {moves : List FillMove} (hactive : p.active = false)
    (h : Agreeing moves) : p.run moves = p := by
  induction moves with
  | nil => rfl
  | cons move moves ih =>
    obtain ⟨hmove, hmoves⟩ := List.forall_mem_cons.mp h
    cases move with
    | agrees at_ =>
      rw [FillEpisode.run_cons]
      simp only [FillEpisode.move, hactive, Bool.false_eq_true, if_false]
      exact ih hmoves
    | deviates _ _ => cases hmove
    | flatCheck _ _ => cases hmove

/-- Fills beyond the limit clear the recovery evidence of an active episode. -/
theorem run_deviating {p : FillEpisode} {moves : List FillMove} (hactive : p.active = true)
    (h : Deviating moves) : p.run moves = if moves = [] then p else
      { p with
        checks := 0
        anomalyDeviation := worstDeviation p.anomalyDeviation moves
        resolvedAt := none
        lastRecoveryAt := none } := by
  induction moves generalizing p with
  | nil => rfl
  | cons move moves ih =>
    obtain ⟨hmove, hmoves⟩ := List.forall_mem_cons.mp h
    cases move with
    | deviates deviation at_ =>
      rw [FillEpisode.run_cons, ih rfl hmoves, if_neg (List.cons_ne_nil _ _)]
      cases moves with
      | nil => simp [FillEpisode.move, worstDeviation, hactive]
      | cons next moves => simp [FillEpisode.move, worstDeviation, hactive]
    | agrees _ => cases hmove
    | flatCheck _ _ => cases hmove

/-- An active episode stays active over deviations. -/
theorem run_deviating_active {p : FillEpisode} {moves : List FillMove} (hactive : p.active = true)
    (h : Deviating moves) : (p.run moves).active = true := by
  rw [run_deviating hactive h]
  split <;> exact hactive

/-- A fill within the limit ends an active episode. -/
theorem run_agrees {p : FillEpisode} {deviating agreeing : List FillMove} (at_ : Option ℤ)
    (hactive : p.active = true) (hdeviating : Deviating deviating) (hagreeing : Agreeing agreeing) :
    p.run (deviating ++ .agrees at_ :: agreeing) = { p.run deviating with
      active := false
      checks := apiSuccessesRequired
      resolvedAt := at_ } := by
  have hstill := run_deviating_active hactive hdeviating
  rw [FillEpisode.run_append, FillEpisode.run_cons, run_agreeing ?_ hagreeing]
  · simp only [FillEpisode.move, if_pos hstill]
  · simp only [FillEpisode.move, if_pos hstill]

/-- An active episode is over when agreement follows its deviations. -/
theorem run_deviating_cons {p : FillEpisode} {deviating agreeing : List FillMove} {next : FillMove}
    (hactive : p.active = true) (hdeviating : Deviating deviating)
    (hagreeing : Agreeing (next :: agreeing)) :
    (p.run (deviating ++ next :: agreeing)).active = false := by
  obtain ⟨hnext, hrest⟩ := List.forall_mem_cons.mp hagreeing
  cases next with
  | agrees at_ => rw [run_agrees at_ hactive hdeviating hrest]
  | deviates _ _ => cases hnext
  | flatCheck _ _ => cases hnext

/-- A move never lowers the number of the episode. -/
theorem episode_le_move (p : FillEpisode) (move : FillMove) :
    p.episode ≤ (p.move move).episode := by
  cases move with
  | deviates deviation at_ =>
    simp only [FillEpisode.move]
    split <;> omega
  | agrees at_ =>
    simp only [FillEpisode.move]
    split <;> exact le_rfl
  | flatCheck eligible at_ => exact le_rfl

/-- The number of the episode never decreases. -/
theorem episode_le_run (p : FillEpisode) (moves : List FillMove) :
    p.episode ≤ (p.run moves).episode := by
  induction moves generalizing p with
  | nil => exact le_rfl
  | cons move moves ih => exact (episode_le_move p move).trans (ih (p.move move))

/-- Without an active episode and without a new one, every fill is within the limit. -/
theorem agreeing_of_inactive {p : FillEpisode} {moves : List FillMove} (hflat : Flatless moves)
    (hactive : p.active = false) (hepisode : (p.run moves).episode = p.episode) :
    Agreeing moves := by
  induction moves with
  | nil => exact nofun
  | cons move moves ih =>
    obtain ⟨hmove, hmoves⟩ := List.forall_mem_cons.mp hflat
    cases move with
    | agrees at_ =>
      have hsame : p.move (.agrees at_) = p := by simp [FillEpisode.move, hactive]
      rw [FillEpisode.run_cons, hsame] at hepisode
      exact List.forall_mem_cons.mpr ⟨rfl, ih hmoves hepisode⟩
    | deviates deviation at_ =>
      have hle := episode_le_run (p.move (.deviates deviation at_)) moves
      have hnew : (p.move (.deviates deviation at_)).episode = p.episode + 1 := by
        simp [FillEpisode.move, hactive]
      rw [FillEpisode.run_cons] at hepisode
      omega
    | flatCheck _ _ => cases hmove

/-- In an active episode and without a new one, fills beyond the limit come before fills
within it. -/
theorem deviating_agreeing_of_active {p : FillEpisode} {moves : List FillMove}
    (hflat : Flatless moves) (hactive : p.active = true)
    (hepisode : (p.run moves).episode = p.episode) :
    ∃ deviating agreeing, moves = deviating ++ agreeing ∧ Deviating deviating ∧
      Agreeing agreeing := by
  induction moves generalizing p with
  | nil => exact ⟨[], [], rfl, nofun, nofun⟩
  | cons move moves ih =>
    obtain ⟨hmove, hmoves⟩ := List.forall_mem_cons.mp hflat
    rw [FillEpisode.run_cons] at hepisode
    cases move with
    | deviates deviation at_ =>
      have hsame : (p.move (.deviates deviation at_)).episode = p.episode := by
        simp [FillEpisode.move, hactive]
      obtain ⟨deviating, agreeing, rfl, hdeviating, hagreeing⟩ :=
        ih hmoves rfl (hepisode.trans hsame.symm)
      exact ⟨_ :: deviating, agreeing, rfl, List.forall_mem_cons.mpr ⟨rfl, hdeviating⟩, hagreeing⟩
    | agrees at_ =>
      have hresolved : p.move (.agrees at_) = { p with
          active := false, checks := apiSuccessesRequired, resolvedAt := at_ } := by
        simp [FillEpisode.move, hactive]
      rw [hresolved] at hepisode
      have hagreeing := agreeing_of_inactive hmoves rfl hepisode
      exact ⟨[], _ :: moves, rfl, nofun, List.forall_mem_cons.mpr ⟨rfl, hagreeing⟩⟩
    | flatCheck _ _ => cases hmove

/-- A batch that opens one episode and leaves it active. -/
theorem opens_of_inactive {p : FillEpisode} {moves : List FillMove} (hflat : Flatless moves)
    (hactive : p.active = false) (hopen : (p.run moves).active = true)
    (hepisode : (p.run moves).episode = p.episode + 1) :
    ∃ before deviation at_ after, moves = before ++ .deviates deviation at_ :: after ∧
      Agreeing before ∧ Deviating after := by
  induction moves with
  | nil => simp [hactive] at hopen
  | cons move moves ih =>
    obtain ⟨hmove, hmoves⟩ := List.forall_mem_cons.mp hflat
    rw [FillEpisode.run_cons] at hepisode hopen
    cases move with
    | agrees at_ =>
      have hsame : p.move (.agrees at_) = p := by simp [FillEpisode.move, hactive]
      rw [hsame] at hepisode hopen
      obtain ⟨before, deviation, first, after, rfl, hbefore, hafter⟩ := ih hmoves hopen hepisode
      exact ⟨_ :: before, deviation, first, after, rfl, List.forall_mem_cons.mpr ⟨rfl, hbefore⟩,
        hafter⟩
    | deviates deviation at_ =>
      have hnew : (p.move (.deviates deviation at_)).episode = p.episode + 1 := by
        simp [FillEpisode.move, hactive]
      obtain ⟨deviating, agreeing, rfl, hdeviating, hagreeing⟩ :=
        deviating_agreeing_of_active hmoves rfl (hepisode.trans hnew.symm)
      cases agreeing with
      | nil => exact ⟨[], deviation, at_, deviating, by simp, nofun, hdeviating⟩
      | cons next agreeing =>
        rw [run_deviating_cons rfl hdeviating hagreeing] at hopen
        cases hopen
    | flatCheck _ _ => cases hmove

/-- What opens an episode, and keeps it active. -/
theorem run_opens {p : FillEpisode} {before after : List FillMove} (deviation : FloatValue)
    (at_ : Option ℤ) (hactive : p.active = false) (hbefore : Agreeing before)
    (hafter : Deviating after) : p.run (before ++ .deviates deviation at_ :: after) =
      { active := true
        episode := p.episode + 1
        checks := 0
        anomalyDeviation := worstDeviation (p.anomalyDeviation.max deviation) after
        detectedAt := at_
        resolvedAt := none
        lastRecoveryAt := none } := by
  rw [FillEpisode.run_append, run_agreeing hactive hbefore, FillEpisode.run_cons,
    run_deviating rfl hafter]
  cases after with
  | nil => simp [FillEpisode.move, hactive, worstDeviation]
  | cons next after => simp [FillEpisode.move, hactive]

/-- Other moves do not change the last deviation. -/
theorem lastDeviation_of_not_deviation {last : FloatValue} {moves : List FillMove}
    (h : ∀ move ∈ moves, move.isDeviation = false) : lastDeviation last moves = last := by
  induction moves with
  | nil => rfl
  | cons move moves ih =>
    obtain ⟨hmove, hmoves⟩ := List.forall_mem_cons.mp h
    cases move with
    | deviates _ _ => cases hmove
    | agrees _ => exact ih hmoves
    | flatCheck _ _ => exact ih hmoves

/-- The last deviation of two stretches is that of the second after the first. -/
theorem lastDeviation_append (last : FloatValue) (before after : List FillMove) :
    lastDeviation last (before ++ after) = lastDeviation (lastDeviation last before) after :=
  List.foldl_append

/-- Moves of agreement are no deviations. -/
theorem Agreeing.not_deviation {moves : List FillMove} (h : Agreeing moves) :
    ∀ move ∈ moves, move.isDeviation = false := by
  intro move hmem
  have hagrees := h move hmem
  cases move <;> simp_all [FillMove.isAgreement, FillMove.isDeviation]

/-! ## What one event carries -/

section

variable {p : FillEpisode} {stored : HealthSnapshot} {observed : ℤ}

/-- A healthy event continues a healthy account. -/
theorem read_inactive_within (hactive : p.active = false)
    (hwithin : stored.fillWithinLimit = true) :
    p.read none stored observed = .ok p := by
  simp [FillEpisode.read, FillEpisode.trigger, FillEpisode.settle, hactive, hwithin]

/-- A maximum that is taken twice is taken once. -/
theorem FloatValue.max_idem (a b : FloatValue) : (a.max b).max b = a.max b := by
  cases a <;> cases b <;> simp only [FloatValue.max]
  split_ifs with hless
  · simp
  · simp [hless]

/-- A deviating event opens an episode. -/
theorem read_inactive_beyond (hactive : p.active = false) (hwithin : stored.fillWithinLimit = false)
    (hstored : stored.fillAnomalyDeviation = stored.fillDeviation) :
    p.read none stored observed = .ok {
      active := true
      episode := p.episode + 1
      checks := 0
      anomalyDeviation := p.anomalyDeviation.max stored.fillDeviation
      detectedAt := some observed
      resolvedAt := none
      lastRecoveryAt := none } := by
  simp [FillEpisode.read, FillEpisode.trigger, FillEpisode.settle, hactive, hwithin, hstored,
    FloatValue.max_idem]

/-- A healthy event without a marker resolves an active episode. -/
theorem read_active_within (hactive : p.active = true) (hwithin : stored.fillWithinLimit = true) :
    p.read none stored observed = .ok { p with
      active := false
      checks := apiSuccessesRequired
      resolvedAt := some observed } := by
  simp [FillEpisode.read, FillEpisode.trigger, FillEpisode.settle, hactive, hwithin]

/-- A deviating event without a marker keeps the recovery evidence of an active episode. -/
theorem read_active_beyond (hactive : p.active = true) (hwithin : stored.fillWithinLimit = false)
    (hstored : stored.fillAnomalyDeviation = stored.fillDeviation) :
    p.read none stored observed = .ok { p with
      anomalyDeviation := p.anomalyDeviation.max stored.fillDeviation } := by
  simp [FillEpisode.read, FillEpisode.trigger, FillEpisode.settle, hactive, hwithin, hstored,
    FloatValue.max_idem]

/-- A marker is refused without an active episode. -/
theorem read_flat_inactive {eligible : Bool} {q : FillEpisode} (hactive : p.active = false) :
    p.read (some eligible) stored observed ≠ .ok q := by
  simp [FillEpisode.read, FillEpisode.settle, hactive]

/-- A marker counts one flat-account check. -/
theorem read_flat_active {eligible : Bool} {q : FillEpisode} (hactive : p.active = true)
    (hstored : stored.fillWithinLimit = false →
      stored.fillAnomalyDeviation = stored.fillDeviation) :
    p.read (some eligible) stored observed = .ok q ↔ (∀ last ∈ p.lastRecoveryAt, last < observed) ∧
      (stored.fillWithinLimit = true ↔ apiSuccessesRequired ≤ nextChecks eligible p.checks) ∧
      q = { p with
        active := !stored.fillWithinLimit
        checks := nextChecks eligible p.checks
        anomalyDeviation :=
          if stored.fillWithinLimit then p.anomalyDeviation
          else p.anomalyDeviation.max stored.fillDeviation
        resolvedAt := if stored.fillWithinLimit then some observed else none
        lastRecoveryAt := some observed } := by
  have hresolved : (eligible && decide (apiSuccessesRequired ≤ nextChecks eligible p.checks)) =
      decide (apiSuccessesRequired ≤ nextChecks eligible p.checks) := by
    cases eligible <;> simp [nextChecks, apiSuccessesRequired]
  have htrigger : p.trigger stored observed = { p with
      anomalyDeviation :=
        if stored.fillWithinLimit then p.anomalyDeviation
        else p.anomalyDeviation.max stored.fillDeviation } := by
    cases hwithin : stored.fillWithinLimit with
    | true => simp [FillEpisode.trigger, hwithin]
    | false => simp [FillEpisode.trigger, hwithin, hactive, hstored hwithin, FloatValue.max_idem]
  rw [FillEpisode.read, htrigger]
  simp only [FillEpisode.settle, Except.bind_eq_ok, reject_eq_ok, Except.pure_eq_ok, hresolved,
    not_not]
  constructor
  · rintro ⟨_, -, _, hnewest, _, hwithin, rfl⟩
    exact ⟨by simpa using hnewest, by simp [hwithin], by simp only [hwithin]⟩
  · rintro ⟨hnewest, hwithin, rfl⟩
    have hsame : stored.fillWithinLimit =
        decide (apiSuccessesRequired ≤ nextChecks eligible p.checks) :=
      Bool.eq_iff_iff.mpr (hwithin.trans decide_eq_true_iff.symm)
    exact ⟨⟨⟩, by simp [hactive], ⟨⟩, by simpa using hnewest, ⟨⟩, hsame, by simp only [hsame]⟩

/-- The batches that one health event carries, by the moves they make: `p` is the episode
before the batch, `last` the deviation stored then, `observed` the last observation after it. -/
inductive Carried (p : FillEpisode) (last : FloatValue) (observed : ℤ) : List FillMove → Prop where
  /-- Without an episode, only fills within the limit. -/
  | healthy {moves : List FillMove} : p.active = false → Agreeing moves → Carried p last observed moves
  /-- The fill that opens an episode is the last observation. -/
  | opens {before after : List FillMove} {deviation : FloatValue} : p.active = false →
      Agreeing before → Deviating after →
      worstDeviation (p.anomalyDeviation.max deviation) after =
        p.anomalyDeviation.max (lastDeviation deviation after) →
      Carried p last observed (before ++ .deviates deviation (some observed) :: after)
  /-- Fills beyond the limit, when there is no recovery evidence to clear. -/
  | continues {moves : List FillMove} : p.active = true → Deviating moves →
      (moves ≠ [] → p.checks = 0 ∧ p.lastRecoveryAt = none) →
      worstDeviation p.anomalyDeviation moves = p.anomalyDeviation.max (lastDeviation last moves) →
      Carried p last observed moves
  /-- The fill that resolves the episode is the last observation. -/
  | resolves {deviating agreeing : List FillMove} : p.active = true → Deviating deviating →
      Agreeing agreeing → (deviating ≠ [] → p.lastRecoveryAt = none) →
      worstDeviation p.anomalyDeviation deviating = p.anomalyDeviation →
      Carried p last observed (deviating ++ .agrees (some observed) :: agreeing)
  /-- A flat-account check, the last observation, that does not resolve the episode. -/
  | checked {deviating : List FillMove} {eligible : Bool} : p.active = true → Deviating deviating →
      nextChecks eligible p.checks < apiSuccessesRequired →
      (deviating ≠ [] → nextChecks eligible p.checks = nextChecks eligible 0 ∧
        ∀ recovery ∈ p.lastRecoveryAt, recovery < observed) →
      worstDeviation p.anomalyDeviation deviating =
        p.anomalyDeviation.max (lastDeviation last deviating) →
      Carried p last observed (deviating ++ [.flatCheck eligible observed])
  /-- The third flat-account check resolves the episode, as the last observation. -/
  | third {agreeing : List FillMove} : p.active = true →
      nextChecks true p.checks = apiSuccessesRequired → Agreeing agreeing →
      Carried p last observed (.flatCheck true observed :: agreeing)
  /-- The count of flat-account checks restarts, and a fill at the same time resolves the
  episode that the event takes for resolved by its third check. -/
  | restarted {deviating agreeing : List FillMove} : p.active = true → deviating ≠ [] →
      Deviating deviating → nextChecks true p.checks = apiSuccessesRequired → Agreeing agreeing →
      (∀ recovery ∈ p.lastRecoveryAt, recovery < observed) →
      worstDeviation p.anomalyDeviation deviating = p.anomalyDeviation →
      Carried p last observed
        (deviating ++ .flatCheck true observed :: .agrees (some observed) :: agreeing)

/-- The snapshot that a batch stores, as far as the reload reads it. -/
structure Stores (p : FillEpisode) (last : FloatValue) (moves : List FillMove)
    (stored : HealthSnapshot) : Prop where
  within : stored.fillWithinLimit = !(p.run moves).active
  deviation : (p.run moves).active = true → stored.fillDeviation = lastDeviation last moves
  anomaly : stored.fillWithinLimit = false → stored.fillAnomalyDeviation = stored.fillDeviation

/-- What is known of the episode of a loaded monitor. -/
structure Loaded (p : FillEpisode) (last : FloatValue) : Prop where
  covered : p.active = true → p.anomalyDeviation.max last = p.anomalyDeviation
  unresolved : p.active = true → p.resolvedAt = none
  checks : p.active = true → p.checks < apiSuccessesRequired

/-- Without an active episode or a marker, the event carries the batch exactly in the first
two cases. -/
theorem read_none_of_inactive {last : FloatValue} {moves : List FillMove}
    (hactive : p.active = false) (hflat : Flatless moves) (hstored : Stores p last moves stored)
    (h : p.read none stored observed = .ok (p.run moves)) : Carried p last observed moves := by
  cases hend : (p.run moves).active with
  | false =>
    have hwithin : stored.fillWithinLimit = true := by rw [hstored.within, hend]; rfl
    rw [read_inactive_within hactive hwithin] at h
    have hsame : p.run moves = p := (Except.ok.inj h).symm
    exact .healthy hactive (agreeing_of_inactive hflat hactive (congrArg _ hsame))
  | true =>
    have hbeyond : stored.fillWithinLimit = false := by rw [hstored.within, hend]; rfl
    rw [read_inactive_beyond hactive hbeyond (hstored.anomaly hbeyond)] at h
    have hsame := (Except.ok.inj h).symm
    have hepisode : (p.run moves).episode = p.episode + 1 := by rw [hsame]
    obtain ⟨before, deviation, at_, after, rfl, hbefore, hafter⟩ :=
      opens_of_inactive hflat hactive hend hepisode
    have hlast := hstored.deviation hend
    rw [lastDeviation_append, lastDeviation_of_not_deviation hbefore.not_deviation] at hlast
    have hlast : stored.fillDeviation = lastDeviation deviation after := hlast
    rw [run_opens deviation at_ hactive hbefore hafter, hlast] at hsame
    injection hsame with _ _ _ hworst hat
    subst hat
    exact .opens hactive hbefore hafter hworst

/-- The first two cases are carried. -/
theorem read_healthy {last : FloatValue} {moves : List FillMove} (hactive : p.active = false)
    (hagreeing : Agreeing moves) (hstored : Stores p last moves stored) :
    p.read none stored observed = .ok (p.run moves) := by
  have hrun := run_agreeing hactive hagreeing
  have hwithin : stored.fillWithinLimit = true := by rw [hstored.within, hrun, hactive]; rfl
  rw [read_inactive_within hactive hwithin, hrun]

/-- Reading a batch that opens an episode makes the moves of the batch. -/
theorem read_opens {last : FloatValue} {before after : List FillMove} {deviation : FloatValue}
    (hactive : p.active = false) (hbefore : Agreeing before) (hafter : Deviating after)
    (hworst : worstDeviation (p.anomalyDeviation.max deviation) after =
      p.anomalyDeviation.max (lastDeviation deviation after))
    (hstored : Stores p last (before ++ .deviates deviation (some observed) :: after) stored) :
    p.read none stored observed =
      .ok (p.run (before ++ .deviates deviation (some observed) :: after)) := by
  have hrun := run_opens deviation (some observed) hactive hbefore hafter
  have hbeyond : stored.fillWithinLimit = false := by rw [hstored.within, hrun]; rfl
  have hlast := hstored.deviation (by rw [hrun])
  rw [lastDeviation_append, lastDeviation_of_not_deviation hbefore.not_deviation] at hlast
  have hlast : stored.fillDeviation = lastDeviation deviation after := hlast
  rw [read_inactive_beyond hactive hbeyond (hstored.anomaly hbeyond), hrun, hworst, hlast]

/-- In an active episode without a marker, the event carries the batch exactly in the next
two cases. -/
theorem read_none_of_active {last : FloatValue} {moves : List FillMove} (hactive : p.active = true)
    (hflat : Flatless moves) (hloaded : Loaded p last) (hstored : Stores p last moves stored)
    (h : p.read none stored observed = .ok (p.run moves)) : Carried p last observed moves := by
  cases hend : (p.run moves).active with
  | false =>
    have hwithin : stored.fillWithinLimit = true := by rw [hstored.within, hend]; rfl
    rw [read_active_within hactive hwithin] at h
    have hsame := (Except.ok.inj h).symm
    have hepisode : (p.run moves).episode = p.episode := by rw [hsame]
    obtain ⟨deviating, agreeing, rfl, hdeviating, hagreeing⟩ :=
      deviating_agreeing_of_active hflat hactive hepisode
    cases agreeing with
    | nil =>
      rw [List.append_nil, run_deviating_active hactive hdeviating] at hend
      cases hend
    | cons next agreeing =>
      obtain ⟨hnext, hrest⟩ := List.forall_mem_cons.mp hagreeing
      cases next with
      | deviates _ _ => cases hnext
      | flatCheck _ _ => cases hnext
      | agrees at_ =>
        rw [run_agrees at_ hactive hdeviating hrest, run_deviating hactive hdeviating] at hsame
        by_cases hnone : deviating = []
        · subst hnone
          injection hsame with _ _ _ _ _ hat
          subst hat
          exact .resolves hactive hdeviating hrest (fun hne => absurd rfl hne) rfl
        · rw [if_neg hnone] at hsame
          injection hsame with _ _ _ hworst _ hat hrecovery
          subst hat
          exact .resolves hactive hdeviating hrest (fun _ => hrecovery.symm) hworst
  | true =>
    have hbeyond : stored.fillWithinLimit = false := by rw [hstored.within, hend]; rfl
    rw [read_active_beyond hactive hbeyond (hstored.anomaly hbeyond), hstored.deviation hend] at h
    have hsame := (Except.ok.inj h).symm
    have hepisode : (p.run moves).episode = p.episode := by rw [hsame]
    obtain ⟨deviating, agreeing, rfl, hdeviating, hagreeing⟩ :=
      deviating_agreeing_of_active hflat hactive hepisode
    cases agreeing with
    | cons next agreeing =>
      rw [run_deviating_cons hactive hdeviating hagreeing] at hend
      cases hend
    | nil =>
      rw [List.append_nil] at hsame ⊢
      rw [run_deviating hactive hdeviating] at hsame
      by_cases hnone : deviating = []
      · subst hnone
        exact .continues hactive hdeviating (fun hne => absurd rfl hne) (hloaded.covered hactive).symm
      · rw [if_neg hnone] at hsame
        injection hsame with _ _ hchecks hworst _ _ hrecovery
        exact .continues hactive hdeviating (fun _ => ⟨hchecks.symm, hrecovery.symm⟩) hworst

/-- The next two cases are carried. -/
theorem read_continues {last : FloatValue} {moves : List FillMove} (hactive : p.active = true)
    (hdeviating : Deviating moves) (hloaded : Loaded p last)
    (hcleared : moves ≠ [] → p.checks = 0 ∧ p.lastRecoveryAt = none)
    (hworst : worstDeviation p.anomalyDeviation moves =
      p.anomalyDeviation.max (lastDeviation last moves)) (hstored : Stores p last moves stored) :
    p.read none stored observed = .ok (p.run moves) := by
  have hend := run_deviating_active hactive hdeviating
  have hbeyond : stored.fillWithinLimit = false := by rw [hstored.within, hend]; rfl
  rw [read_active_beyond hactive hbeyond (hstored.anomaly hbeyond), hstored.deviation hend,
    run_deviating hactive hdeviating, ← hworst]
  split
  · rename_i hnone
    subst hnone
    rfl
  · rename_i hsome
    obtain ⟨hchecks, hrecovery⟩ := hcleared hsome
    have hunresolved := hloaded.unresolved hactive
    cases p
    simp_all

/-- Reading a batch that resolves an episode makes the moves of the batch. -/
theorem read_resolves {last : FloatValue} {deviating agreeing : List FillMove}
    (hactive : p.active = true) (hdeviating : Deviating deviating) (hagreeing : Agreeing agreeing)
    (hcleared : deviating ≠ [] → p.lastRecoveryAt = none)
    (hworst : worstDeviation p.anomalyDeviation deviating = p.anomalyDeviation)
    (hstored : Stores p last (deviating ++ .agrees (some observed) :: agreeing) stored) :
    p.read none stored observed =
      .ok (p.run (deviating ++ .agrees (some observed) :: agreeing)) := by
  have hrun := run_agrees (some observed) hactive hdeviating hagreeing
  have hwithin : stored.fillWithinLimit = true := by rw [hstored.within, hrun]; rfl
  rw [read_active_within hactive hwithin, hrun, run_deviating hactive hdeviating]
  split
  · rfl
  · rename_i hsome
    rw [hworst, hcleared hsome]

/-- The number of checks never exceeds what is required. -/
theorem nextChecks_le (eligible : Bool) (checks : ℕ) :
    nextChecks eligible checks ≤ apiSuccessesRequired := by
  cases eligible <;> simp [nextChecks]

/-- Only an eligible check resolves, and not as the first one of a count. -/
theorem nextChecks_zero (eligible : Bool) : nextChecks eligible 0 < apiSuccessesRequired := by
  cases eligible <;> decide

/-- A check that completes the number was eligible. -/
theorem eligible_of_resolved {eligible : Bool} {checks : ℕ}
    (h : apiSuccessesRequired ≤ nextChecks eligible checks) : eligible = true := by
  cases eligible
  · simp [nextChecks, apiSuccessesRequired] at h
  · rfl

/-- A flat-account check in an active episode. -/
theorem move_flatCheck (eligible : Bool) (at_ : ℤ) : p.move (.flatCheck eligible at_) = { p with
    active := !decide (apiSuccessesRequired ≤ nextChecks eligible p.checks)
    checks := nextChecks eligible p.checks
    resolvedAt :=
      if apiSuccessesRequired ≤ nextChecks eligible p.checks then some at_ else none
    lastRecoveryAt := some at_ } := by
  cases eligible
  · simp [FillEpisode.move, nextChecks, apiSuccessesRequired]
  · simp [FillEpisode.move]

/-- After fills of which one is beyond the limit, there is no recovery evidence. -/
theorem run_cleared {deviating agreeing : List FillMove} (hactive : p.active = true)
    (hdeviating : Deviating deviating) (hagreeing : Agreeing agreeing) (hsome : deviating ≠ []) :
    (p.run (deviating ++ agreeing)).lastRecoveryAt = none := by
  have hrun := run_deviating hactive hdeviating
  rw [if_neg hsome] at hrun
  cases agreeing with
  | nil => rw [List.append_nil, hrun]
  | cons next agreeing =>
    obtain ⟨hnext, hrest⟩ := List.forall_mem_cons.mp hagreeing
    cases next with
    | agrees at_ => rw [run_agrees at_ hactive hdeviating hrest, hrun]
    | deviates _ _ => cases hnext
    | flatCheck _ _ => cases hnext

/-- A flat-account check that resolves is the third of a count that no fill has restarted. -/
theorem third_of_resolved {deviating : List FillMove} {eligible : Bool} (hactive : p.active = true)
    (hdeviating : Deviating deviating)
    (h : apiSuccessesRequired ≤ nextChecks eligible (p.run deviating).checks) :
    eligible = true ∧ deviating = [] ∧ nextChecks true p.checks = apiSuccessesRequired := by
  obtain rfl := eligible_of_resolved h
  have hnone : deviating = [] := by
    by_contra hsome
    rw [run_deviating hactive hdeviating, if_neg hsome] at h
    exact absurd h (not_le.mpr (nextChecks_zero true))
  subst hnone
  exact ⟨rfl, rfl, le_antisymm (nextChecks_le true p.checks) h⟩

/-- In an active episode with a marker, the event carries the batch exactly in the last three
cases. -/
theorem read_some_of_active {last : FloatValue} {before after : List FillMove} {eligible : Bool}
    {at_ : ℤ} (hactive : p.active = true) (hbefore : Flatless before) (hafter : Flatless after)
    (htaken : (p.run before).active = true)
    (hstored : Stores p last (before ++ .flatCheck eligible at_ :: after) stored)
    (h : p.read (some eligible) stored observed =
      .ok (p.run (before ++ .flatCheck eligible at_ :: after))) :
    Carried p last observed (before ++ .flatCheck eligible at_ :: after) := by
  obtain ⟨hnewest, hresolves, hsame⟩ := (read_flat_active hactive hstored.anomaly).mp h
  rw [FillEpisode.run_append, FillEpisode.run_cons] at hsame
  have hwithin := hstored.within
  have hdeviation := hstored.deviation
  rw [FillEpisode.run_append, FillEpisode.run_cons] at hwithin hdeviation
  -- the episode keeps its number throughout
  have hfirst := episode_le_run p before
  have hsecond := episode_le_run ((p.run before).move (.flatCheck eligible at_)) after
  have hmoved : ((p.run before).move (.flatCheck eligible at_)).episode = (p.run before).episode :=
    rfl
  have hkept : (((p.run before).move (.flatCheck eligible at_)).run after).episode = p.episode := by
    rw [hsame]
  obtain ⟨deviating, agreeing, rfl, hdeviating, hagreeing⟩ :=
    deviating_agreeing_of_active hbefore hactive (by omega)
  cases agreeing with
  | cons next agreeing =>
    rw [run_deviating_cons hactive hdeviating hagreeing] at htaken
    cases htaken
  | nil =>
    rw [List.append_nil] at *
    have hcheck := move_flatCheck (p := p.run deviating) eligible at_
    generalize (p.run deviating).move (.flatCheck eligible at_) = q at *
    have hepisode : (p.run deviating).episode = q.episode := hmoved.symm
    by_cases hresolved : apiSuccessesRequired ≤ nextChecks eligible (p.run deviating).checks
    · have hended : q.active = false := by rw [hcheck]; simp [hresolved]
      obtain ⟨rfl, rfl, hthird⟩ := third_of_resolved hactive hdeviating hresolved
      have hagree : Agreeing after := agreeing_of_inactive hafter hended (by omega)
      have hrecovery := congrArg FillEpisode.lastRecoveryAt hsame
      rw [run_agreeing hended hagree, hcheck] at hrecovery
      cases hrecovery
      exact .third hactive hthird hagree
    · have hstill : q.active = true := by rw [hcheck]; simp [hresolved]
      obtain ⟨second, rest, rfl, hdeviating', hrest⟩ :=
        deviating_agreeing_of_active hafter hstill (by omega)
      have hnone : second = [] := by
        by_contra hsome
        have hcleared := run_cleared hstill hdeviating' hrest hsome
        rw [hsame] at hcleared
        cases hcleared
      subst hnone
      rw [List.nil_append] at hsame hwithin hdeviation ⊢
      have hcleared : deviating ≠ [] → (p.run deviating).checks = 0 := by
        intro hsome
        rw [run_deviating hactive hdeviating, if_neg hsome]
      have hworst : (p.run deviating).anomalyDeviation =
          worstDeviation p.anomalyDeviation deviating := by
        rw [run_deviating hactive hdeviating]
        split
        · rename_i hnone
          rw [hnone]
          rfl
        · rfl
      cases rest with
      | nil =>
        rw [FillEpisode.run_nil] at hsame hwithin hdeviation
        have hbeyond : stored.fillWithinLimit = false := by rw [hwithin, hstill]; rfl
        have hlast := hdeviation hstill
        rw [lastDeviation_append] at hlast
        have hlast : stored.fillDeviation = lastDeviation last deviating := hlast
        have hless : nextChecks eligible p.checks < apiSuccessesRequired := by
          rw [hbeyond] at hresolves
          exact not_le.mp fun hle => absurd (hresolves.mpr hle) Bool.false_ne_true
        rw [hcheck, hbeyond, hlast, hworst] at hsame
        injection hsame with _ _ hchecks hanomaly _ _ hat
        cases hat
        refine .checked hactive hdeviating hless (fun hsome => ⟨?_, hnewest⟩) hanomaly
        rw [← hchecks, hcleared hsome]
      | cons next rest =>
        obtain ⟨hnext, hagree⟩ := List.forall_mem_cons.mp hrest
        cases next with
        | deviates _ _ => cases hnext
        | flatCheck _ _ => cases hnext
        | agrees first =>
          have hrun := run_agrees first hstill (show Deviating [] from nofun) hagree
          rw [List.nil_append, FillEpisode.run_nil] at hrun
          rw [hrun] at hsame hwithin
          have hhealthy : stored.fillWithinLimit = true := by rw [hwithin]; rfl
          have hthird := hresolves.mp hhealthy
          obtain rfl := eligible_of_resolved hthird
          have hsome : deviating ≠ [] := by
            rintro rfl
            exact hresolved hthird
          rw [hcheck, hhealthy, hworst] at hsame
          injection hsame with _ _ _ hanomaly _ hresolution hat
          cases hat
          subst hresolution
          exact .restarted hactive hsome hdeviating
            (le_antisymm (nextChecks_le true p.checks) hthird) hagree hnewest hanomaly

/-- The last three cases are carried. -/
theorem read_checked {last : FloatValue} {deviating : List FillMove} {eligible : Bool}
    (hactive : p.active = true) (hdeviating : Deviating deviating)
    (hless : nextChecks eligible p.checks < apiSuccessesRequired)
    (hcleared : deviating ≠ [] → nextChecks eligible p.checks = nextChecks eligible 0 ∧
      ∀ recovery ∈ p.lastRecoveryAt, recovery < observed)
    (hworst : worstDeviation p.anomalyDeviation deviating =
      p.anomalyDeviation.max (lastDeviation last deviating))
    (htaken : deviating = [] → ∀ recovery ∈ p.lastRecoveryAt, recovery < observed)
    (hstored : Stores p last (deviating ++ [.flatCheck eligible observed]) stored) :
    p.read (some eligible) stored observed =
      .ok (p.run (deviating ++ [.flatCheck eligible observed])) := by
  have hchecks : nextChecks eligible (p.run deviating).checks = nextChecks eligible p.checks := by
    rw [run_deviating hactive hdeviating]
    split
    · rfl
    · rename_i hsome
      exact (hcleared hsome).1.symm
  have hanomaly : (p.run deviating).anomalyDeviation =
      p.anomalyDeviation.max (lastDeviation last deviating) := by
    rw [← hworst, run_deviating hactive hdeviating]
    split
    · rename_i hnone
      rw [hnone]
      rfl
    · rfl
  have hrun : p.run (deviating ++ [.flatCheck eligible observed]) = { p with
      active := true
      checks := nextChecks eligible p.checks
      anomalyDeviation := p.anomalyDeviation.max (lastDeviation last deviating)
      resolvedAt := none
      lastRecoveryAt := some observed } := by
    rw [FillEpisode.run_append, FillEpisode.run_cons, FillEpisode.run_nil, move_flatCheck, hchecks,
      hanomaly, if_neg (not_le.mpr hless), decide_eq_false (not_le.mpr hless)]
    rw [run_deviating hactive hdeviating]
    split <;> rfl
  have hbeyond : stored.fillWithinLimit = false := by rw [hstored.within, hrun]; rfl
  have hlast := hstored.deviation (by rw [hrun])
  rw [lastDeviation_append] at hlast
  have hlast : stored.fillDeviation = lastDeviation last deviating := hlast
  refine (read_flat_active hactive hstored.anomaly).mpr ⟨?_, ?_, ?_⟩
  · by_cases hnone : deviating = []
    · exact htaken hnone
    · exact (hcleared hnone).2
  · rw [hbeyond]
    exact ⟨fun h => absurd h Bool.false_ne_true, fun h => absurd h (not_le.mpr hless)⟩
  · rw [hrun, hbeyond, hlast]
    rfl

/-- Reading a batch whose flat check is the last one required makes the moves of the batch. -/
theorem read_third {last : FloatValue} {agreeing : List FillMove} (hactive : p.active = true)
    (hthird : nextChecks true p.checks = apiSuccessesRequired) (hagreeing : Agreeing agreeing)
    (htaken : ∀ recovery ∈ p.lastRecoveryAt, recovery < observed)
    (hstored : Stores p last (.flatCheck true observed :: agreeing) stored) :
    p.read (some true) stored observed = .ok (p.run (.flatCheck true observed :: agreeing)) := by
  have hmove := move_flatCheck (p := p) true observed
  rw [hthird, decide_eq_true le_rfl, if_pos le_rfl] at hmove
  have hrun : p.run (.flatCheck true observed :: agreeing) = p.move (.flatCheck true observed) := by
    rw [FillEpisode.run_cons, run_agreeing (by rw [hmove]; rfl) hagreeing]
  have hwithin : stored.fillWithinLimit = true := by rw [hstored.within, hrun, hmove]; rfl
  refine (read_flat_active hactive hstored.anomaly).mpr ⟨htaken, ?_, ?_⟩
  · rw [hwithin, hthird]
    exact ⟨fun _ => le_rfl, fun _ => rfl⟩
  · rw [hrun, hmove, hwithin, hthird]
    rfl

/-- Reading a batch that deviates before its last flat check makes the moves of the batch. -/
theorem read_restarted {last : FloatValue} {deviating agreeing : List FillMove}
    (hactive : p.active = true) (hsome : deviating ≠ []) (hdeviating : Deviating deviating)
    (hthird : nextChecks true p.checks = apiSuccessesRequired) (hagreeing : Agreeing agreeing)
    (hnewest : ∀ recovery ∈ p.lastRecoveryAt, recovery < observed)
    (hworst : worstDeviation p.anomalyDeviation deviating = p.anomalyDeviation)
    (hstored : Stores p last
      (deviating ++ .flatCheck true observed :: .agrees (some observed) :: agreeing) stored) :
    p.read (some true) stored observed = .ok (p.run
      (deviating ++ .flatCheck true observed :: .agrees (some observed) :: agreeing)) := by
  have hcleared := run_deviating hactive hdeviating
  rw [if_neg hsome, hworst] at hcleared
  have hfirst : ¬apiSuccessesRequired ≤ nextChecks true 0 := not_le.mpr (nextChecks_zero true)
  have hmove := move_flatCheck (p := p.run deviating) true observed
  rw [hcleared, if_neg hfirst, decide_eq_false hfirst] at hmove
  have hrun : p.run (deviating ++ .flatCheck true observed :: .agrees (some observed) :: agreeing) =
      { p with
        active := false
        checks := apiSuccessesRequired
        resolvedAt := some observed
        lastRecoveryAt := some observed } := by
    rw [FillEpisode.run_append, FillEpisode.run_cons, hcleared, hmove]
    exact run_agrees (some observed) (show (FillEpisode.mk _ _ _ _ _ _ _).active = true from rfl)
      (show Deviating [] from nofun) hagreeing
  have hwithin : stored.fillWithinLimit = true := by rw [hstored.within, hrun]; rfl
  refine (read_flat_active hactive hstored.anomaly).mpr ⟨hnewest, ?_, ?_⟩
  · rw [hwithin, hthird]
    exact ⟨fun _ => le_rfl, fun _ => rfl⟩
  · rw [hrun, hwithin, hthird]
    rfl

/-- The marker of a batch: the outcome of its flat-account check. -/
def markerOf (moves : List FillMove) : Option Bool := (moves.filterMap FillMove.outcome).getLast?

/-- Moves without a flat check leave no marker. -/
theorem markerOf_flatless {moves : List FillMove} (h : Flatless moves) : markerOf moves = none := by
  have hnone : moves.filterMap FillMove.outcome = [] := by
    rw [List.filterMap_eq_nil_iff]
    exact h
  rw [markerOf, hnone]
  rfl

/-- Moves of agreement hold no flat check. -/
theorem Agreeing.flatless {moves : List FillMove} (h : Agreeing moves) : Flatless moves := by
  intro move hmem
  have hagrees := h move hmem
  cases move <;> simp_all [FillMove.isAgreement, FillMove.outcome]

/-- Deviations hold no flat check. -/
theorem Deviating.flatless {moves : List FillMove} (h : Deviating moves) : Flatless moves := by
  intro move hmem
  have hdeviates := h move hmem
  cases move <;> simp_all [FillMove.isDeviation, FillMove.outcome]

/-- No moves hold no flat check. -/
theorem flatless_nil : Flatless [] := fun _ hmem => absurd hmem List.not_mem_nil

/-- A move that is no flat check may stand before moves without one. -/
theorem Flatless.cons {move : FillMove} {moves : List FillMove} (h : Flatless moves)
    (hmove : move.outcome = none) : Flatless (move :: moves) :=
  List.forall_mem_cons.mpr ⟨hmove, h⟩

/-- Two stretches without a flat check make one without it. -/
theorem Flatless.append {before after : List FillMove} (hbefore : Flatless before)
    (hafter : Flatless after) : Flatless (before ++ after) :=
  List.forall_mem_append.mpr ⟨hbefore, hafter⟩

/-- A batch with one flat-account check, taken apart. -/
theorem split_of_outcome {moves : List FillMove} {eligible : Bool}
    (h : moves.filterMap FillMove.outcome = [eligible]) : ∃ before at_ after,
      moves = before ++ .flatCheck eligible at_ :: after ∧ Flatless before ∧ Flatless after := by
  induction moves with
  | nil => cases h
  | cons move moves ih =>
    cases hmove : move.outcome with
    | none =>
      rw [List.filterMap_cons_none hmove] at h
      obtain ⟨before, at_, after, rfl, hbefore, hafter⟩ := ih h
      exact ⟨move :: before, at_, after, rfl, List.forall_mem_cons.mpr ⟨hmove, hbefore⟩, hafter⟩
    | some outcome =>
      rw [List.filterMap_cons_some hmove] at h
      injection h with heligible hrest
      cases move with
      | flatCheck eligible' at_ =>
        cases hmove
        subst heligible
        exact ⟨[], at_, moves, rfl, nofun, List.filterMap_eq_nil_iff.mp hrest⟩
      | deviates _ _ => cases hmove
      | agrees _ => cases hmove

/-- The only flat check of the moves leaves the marker. -/
theorem markerOf_split {before after : List FillMove} (eligible : Bool) (at_ : ℤ)
    (hbefore : Flatless before) (hafter : Flatless after) :
    markerOf (before ++ .flatCheck eligible at_ :: after) = some eligible := by
  have hfirst : before.filterMap FillMove.outcome = [] := List.filterMap_eq_nil_iff.mpr hbefore
  have hsecond : after.filterMap FillMove.outcome = [] := List.filterMap_eq_nil_iff.mpr hafter
  have hcheck : (FillMove.flatCheck eligible at_).outcome = some eligible := rfl
  rw [markerOf, List.filterMap_append, hfirst, List.filterMap_cons_some hcheck, hsecond]
  rfl

/-- An event continues the episode as the batch in memory does exactly when it carries the
batch. -/
theorem read_eq_iff_carried {last : FloatValue} {moves : List FillMove} (hloaded : Loaded p last)
    (htakes : p.Takes moves) (hone : (moves.filterMap FillMove.outcome).length ≤ 1)
    (hstored : Stores p last moves stored) :
    p.read (markerOf moves) stored observed = .ok (p.run moves) ↔
      Carried p last observed moves := by
  constructor
  · intro h
    match hchecks : moves.filterMap FillMove.outcome, hone with
    | [], _ =>
      have hflat : Flatless moves := List.filterMap_eq_nil_iff.mp hchecks
      rw [markerOf_flatless hflat] at h
      cases hactive : p.active with
      | false => exact read_none_of_inactive hactive hflat hstored h
      | true => exact read_none_of_active hactive hflat hloaded hstored h
    | [eligible], _ =>
      obtain ⟨before, at_, after, rfl, hbefore, hafter⟩ := split_of_outcome hchecks
      rw [markerOf_split eligible at_ hbefore hafter] at h
      cases hactive : p.active with
      | false => exact absurd h (read_flat_inactive hactive)
      | true =>
        have htaken := (FillEpisode.takes_append htakes).1 eligible at_ rfl
        exact read_some_of_active hactive hbefore hafter htaken.1 hstored h
  · intro h
    cases h with
    | healthy hactive hagreeing =>
      rw [markerOf_flatless hagreeing.flatless]
      exact read_healthy hactive hagreeing hstored
    | opens hactive hbefore hafter hworst =>
      rw [markerOf_flatless (hbefore.flatless.append (hafter.flatless.cons rfl))]
      exact read_opens hactive hbefore hafter hworst hstored
    | continues hactive hdeviating hcleared hworst =>
      rw [markerOf_flatless hdeviating.flatless]
      exact read_continues hactive hdeviating hloaded hcleared hworst hstored
    | resolves hactive hdeviating hagreeing hcleared hworst =>
      rw [markerOf_flatless (hdeviating.flatless.append (hagreeing.flatless.cons rfl))]
      exact read_resolves hactive hdeviating hagreeing hcleared hworst hstored
    | @checked deviating eligible hactive hdeviating hless hcleared hworst =>
      rw [markerOf_split eligible observed hdeviating.flatless flatless_nil]
      refine read_checked hactive hdeviating hless hcleared hworst ?_ hstored
      rintro rfl
      exact (htakes.1 eligible observed rfl).2
    | third hactive hthird hagreeing =>
      have hmarker := markerOf_split true observed flatless_nil hagreeing.flatless
      rw [List.nil_append] at hmarker
      rw [hmarker]
      exact read_third hactive hthird hagreeing (htakes.1 true observed rfl).2 hstored
    | restarted hactive hsome hdeviating hthird hagreeing hnewest hworst =>
      rw [markerOf_split true observed hdeviating.flatless (hagreeing.flatless.cons rfl)]
      exact read_restarted hactive hsome hdeviating hthird hagreeing hnewest hworst hstored

end

/-! ## Batches of a monitor -/

/-- Whether a call is a flat-account check. -/
def Observation.isFlatCheck : Observation → Bool
  | .flatFillRecoveryCheck .. => true
  | _ => false

/-- A monitor observes a batch as its snapshot does. -/
theorem observeAll_snapshot (monitor : HealthMonitor) (batch : List Observation) :
    (monitor.observeAll batch).snapshot = observeAll monitor.snapshot batch := by
  induction batch generalizing monitor with
  | nil => rfl
  | cons o batch ih => exact ih (monitor.observe o)

/-- The marker of two stretches is that of the second, or else that of the first. -/
theorem markerOf_append (before after : List FillMove) :
    markerOf (before ++ after) = (markerOf after).or (markerOf before) := by
  unfold markerOf
  rw [List.filterMap_append, List.getLast?_append]

/-- A flat-account check that is taken is pending after its call. -/
theorem observe_pending (monitor : HealthMonitor) (o : Observation) :
    (monitor.observe o).pendingFillRecovery =
      (markerOf (fillMove monitor.snapshot o).toList).or monitor.pendingFillRecovery := by
  cases o with
  | flatFillRecoveryCheck eligible observed =>
    simp only [HealthMonitor.observe, fillMove]
    split
    · rfl
    · rfl
  | fillCheck expectedPrice actualPrice observed =>
    simp only [HealthMonitor.observe, fillMove]
    split_ifs <;> rfl
  | _ => rfl

/-- A batch leaves the marker of its moves, or else the one before it. -/
theorem observeAll_pending (monitor : HealthMonitor) (batch : List Observation) :
    (monitor.observeAll batch).pendingFillRecovery =
      (markerOf (fillMoves monitor.snapshot batch)).or monitor.pendingFillRecovery := by
  induction batch generalizing monitor with
  | nil => rfl
  | cons o batch ih =>
    have hrest := ih (monitor.observe o)
    rw [observe_pending] at hrest
    rw [fillMoves, markerOf_append, Option.or_assoc]
    exact hrest

/-- A batch takes no more flat-account checks than it makes. -/
theorem outcomes_le (s : HealthSnapshot) (batch : List Observation) :
    ((fillMoves s batch).filterMap FillMove.outcome).length ≤
      (batch.filter Observation.isFlatCheck).length := by
  induction batch generalizing s with
  | nil => exact le_rfl
  | cons o batch ih =>
    have hrest := ih (observe s o)
    have hfirst : ((fillMove s o).toList.filterMap FillMove.outcome).length ≤
        ([o].filter Observation.isFlatCheck).length := by
      cases o with
      | flatFillRecoveryCheck eligible observed =>
        simp only [fillMove]
        split
        · exact le_rfl
        · exact Nat.zero_le _
      | fillCheck expectedPrice actualPrice observed =>
        simp only [fillMove]
        split_ifs <;> exact le_rfl
      | _ => exact le_rfl
    rw [fillMoves, List.filterMap_append, List.length_append, ← List.singleton_append,
      List.filter_append, List.length_append]
    omega

/-- In an active episode the stored deviation is that of the last fill beyond the limit. -/
theorem observe_deviation {s : HealthSnapshot} {last : FloatValue} (o : Observation)
    (h : s.fillWithinLimit = false → s.fillDeviation = last)
    (hactive : (observe s o).fillWithinLimit = false) :
    (observe s o).fillDeviation = lastDeviation last (fillMove s o).toList := by
  have hframe : ∀ t : HealthSnapshot, t.fillWithinLimit = s.fillWithinLimit →
      t.fillDeviation = s.fillDeviation → t.fillWithinLimit = false → t.fillDeviation = last :=
    fun t hwithin hdeviation hbeyond => hdeviation.trans (h (hwithin.symm.trans hbeyond))
  cases o with
  | fillCheck expectedPrice actualPrice observed =>
    rcases recordFillCheck_cases s expectedPrice actualPrice observed with
      ⟨haccepted, hchecked⟩ | ⟨hrefused, hfailed⟩
    · have hpositive : isPositiveFinite expectedPrice ∧ isPositiveFinite actualPrice := haccepted
      simp only [observe, hchecked] at hactive ⊢
      have hbeyond : ¬decimalDeviation expectedPrice actualPrice ≤ fillDeviationLimitDecimal :=
        of_decide_eq_false hactive
      rw [fillMove, if_pos hpositive, if_neg hbeyond]
      rfl
    · have hpositive : ¬(isPositiveFinite expectedPrice ∧ isPositiveFinite actualPrice) := hrefused
      simp only [observe, hfailed] at hactive ⊢
      rw [fillMove, if_neg hpositive]
      exact h hactive
  | flatFillRecoveryCheck eligible observed =>
    have hmove : lastDeviation last (fillMove s (.flatFillRecoveryCheck eligible observed)).toList =
        last := by
      simp only [fillMove]
      split <;> rfl
    rw [hmove]
    simp only [observe, recordFlatFillRecoveryCheck] at hactive ⊢
    by_cases hwithin : s.fillWithinLimit = true
    · rw [if_pos hwithin, hwithin] at hactive
      cases hactive
    · have hdeviation := h (Bool.eq_false_iff.mpr hwithin)
      rw [if_neg hwithin] at hactive ⊢
      split at hactive
      · rename_i hstale
        rw [if_pos hstale]
        exact hdeviation
      · rename_i hfresh
        rw [if_neg hfresh]
        have hunresolved : (eligible && decide (apiSuccessesRequired ≤
            nextChecks eligible s.fillRecoveryChecks)) = false := hactive
        change (if (eligible && decide (apiSuccessesRequired ≤
            nextChecks eligible s.fillRecoveryChecks)) = true then _ else s.fillDeviation) = last
        rw [hunresolved]
        exact hdeviation
  | apiFailure observed =>
    refine hframe _ ?_ ?_ hactive <;>
      simp only [observe, recordApiFailure] <;> split <;> rfl
  | apiSuccess observed =>
    refine hframe _ ?_ ?_ hactive <;>
      simp only [observe, recordApiSuccess] <;> split <;> rfl
  | ledgerCheck storedCash actualCash storedBtc actualBtc observed =>
    refine hframe _ ?_ ?_ hactive <;>
      simp only [observe, recordLedgerCheck] <;> split <;> rfl
  | recoveryCycleSuccess observed =>
    refine hframe _ ?_ ?_ hactive <;>
      simp only [observe, recordRecoveryCycleSuccess] <;> split <;> rfl
  | candleCheck _ _ _ _ => exact h hactive
  | timestampCheck _ _ => exact h hactive
  | schemaCheck _ _ => exact h hactive
  | unresolvedOrders _ _ => exact h hactive
  | malformed _ => exact h hactive

/-- While fills deviate, the snapshot shows the last deviation. -/
theorem observeAll_deviation {s : HealthSnapshot} {last : FloatValue} (batch : List Observation)
    (h : s.fillWithinLimit = false → s.fillDeviation = last)
    (hactive : (observeAll s batch).fillWithinLimit = false) :
    (observeAll s batch).fillDeviation = lastDeviation last (fillMoves s batch) := by
  induction batch generalizing s last with
  | nil => exact h hactive
  | cons o batch ih =>
    rw [fillMoves, lastDeviation_append]
    exact ih (observe_deviation o h) hactive

/-! ## One more event -/

/-- The episode of a consistent snapshot that covers its own deviation. -/
theorem Loaded.of_consistent {s : HealthSnapshot} (h : Consistent s)
    (hcovered : s.fillWithinLimit = false →
      s.fillAnomalyDeviation.max s.fillDeviation = s.fillAnomalyDeviation) :
    Loaded s.fillEpisode s.fillDeviation := by
  have hbeyond : s.fillEpisode.active = true → s.fillWithinLimit = false := by
    intro hactive
    simpa [HealthSnapshot.fillEpisode] using hactive
  have hunresolved : s.fillEpisode.active = true →
      s.fillRecoveryChecks < apiSuccessesRequired ∧ s.fillAnomalyResolvedAtUtc = none :=
    fun hactive => h.fill.active (h.fill.episode_ne_zero (hbeyond hactive)) (hbeyond hactive)
  exact ⟨fun hactive => hcovered (hbeyond hactive), fun hactive => (hunresolved hactive).2,
    fun hactive => (hunresolved hactive).1⟩

/-- What the storage keeps of a batch. -/
theorem stores_legacy (s : HealthSnapshot) (batch : List Observation) :
    Stores s.fillEpisode s.fillDeviation (fillMoves s batch) (observeAll s batch).legacy := by
  have hrun := observeAll_fillEpisode s batch
  refine ⟨?_, ?_, ?_⟩
  · rw [← hrun]
    simp [HealthSnapshot.legacy, HealthSnapshot.fillEpisode]
  · intro hactive
    rw [← hrun] at hactive
    have hbeyond : (observeAll s batch).fillWithinLimit = false := by
      simpa [HealthSnapshot.fillEpisode] using hactive
    exact observeAll_deviation batch (fun _ => rfl) hbeyond
  · intro hbeyond
    have hbeyond : (observeAll s batch).fillWithinLimit = false := hbeyond
    simp [HealthSnapshot.legacy, hbeyond]

/-- The marker of the event of a batch. -/
theorem marker_persistenceEventId {monitor : HealthMonitor} {batch : List Observation}
    {base : EventId} (hpending : monitor.pendingFillRecovery = none)
    (hbase : isReconcile base = true) (hmarker : fillRecoveryMarker base = .ok none) :
    fillRecoveryMarker ((monitor.observeAll batch).persistenceEventId base) =
      .ok (markerOf (fillMoves monitor.snapshot batch)) := by
  have hbatch := observeAll_pending monitor batch
  rw [hpending, Option.or_none] at hbatch
  rw [HealthMonitor.persistenceEventId, hbatch]
  cases markerOf (fillMoves monitor.snapshot batch) with
  | none => exact hmarker
  | some eligible => simp [fillRecoveryMarker, hbase, reject]

/-- A batch persisted under an event of its own is loaded back unchanged exactly when the
event carries it. -/
theorem reload_iff_carried {db db' : Database} {monitor monitor' : HealthMonitor}
    {batch : List Observation} {base : EventId} {logicalAt : ℤ}
    (hload : HealthMonitor.fromStore db = .ok monitor)
    (hone : (batch.filter Observation.isFlatCheck).length ≤ 1)
    (haccepted : RoundTrips (observeAll monitor.snapshot batch))
    (hbase : isReconcile base = true) (hmarker : fillRecoveryMarker base = .ok none)
    (hfresh : findEvent db.events ((monitor.observeAll batch).persistenceEventId base) = none)
    (hpersist : (monitor.observeAll batch).persist db
      ((monitor.observeAll batch).persistenceEventId base) logicalAt = .ok (monitor', db')) :
    HealthMonitor.fromStore db' = .ok { snapshot := observeAll monitor.snapshot batch } ↔
      Carried monitor.snapshot.fillEpisode monitor.snapshot.fillDeviation
        ((observeAll monitor.snapshot batch).lastObservationAtUtc.getD logicalAt)
        (fillMoves monitor.snapshot batch) := by
  obtain ⟨hpending, hconsistent, -, p, -, hsound⟩ := HealthMonitor.fromStore_eq_ok hload
  have hbatch : Consistent (observeAll monitor.snapshot batch) :=
    (fromMapping_toMapping_iff _).mp haccepted
  have happended := HealthMonitor.persist_appended hfresh hpersist
  rw [observeAll_snapshot] at happended
  rw [fromStore_appended hload hbatch happended,
    ← read_eq_iff_carried (Loaded.of_consistent hconsistent hsound.covered)
      (fillMoves_taken monitor.snapshot batch)
      ((outcomes_le monitor.snapshot batch).trans hone) (stores_legacy monitor.snapshot batch),
    ← observeAll_fillEpisode]
  constructor
  · rintro ⟨marker, hfound, hread⟩
    rw [marker_persistenceEventId hpending hbase hmarker] at hfound
    cases hfound
    exact hread
  · intro hread
    exact ⟨_, marker_persistenceEventId hpending hbase hmarker, hread⟩

/-- `from_store`, the calls of a batch, and `persist` under the identity of a reconciliation. -/
def persistBatch (db : Database) (batch : List Observation) (base : EventId) (logicalAt : ℤ) :
    Except Failure (HealthMonitor × Database) := do
  let monitor ← HealthMonitor.fromStore db
  let monitor := monitor.observeAll batch
  monitor.persist db (monitor.persistenceEventId base) logicalAt

/-- The identity of a reconciliation. -/
def reconciliation (end_ : ℤ) (sequence : ℕ) : EventId :=
  .healthReconcile end_ sequence (.healthPublic end_ end_ "success")

/-- The store after a fill beyond the limit. -/
def anomalyStore : Database :=
  ((persistBatch {} [.fillCheck 1 2 (some 1)] (reconciliation 1 0) 1).toOption.getD ({}, {})).2

/-- The store after one clean flat-account check. -/
def recoveringStore : Database :=
  ((persistBatch anomalyStore [.flatFillRecoveryCheck true 2] (reconciliation 2 1) 2).toOption.getD
    ({}, {})).2

/-- A batch is persisted exactly when the stored monitor is read and what it becomes is stored. -/
theorem persistBatch_eq_ok {db : Database} {batch : List Observation} {base : EventId}
    {logicalAt : ℤ} {result : HealthMonitor × Database} :
    persistBatch db batch base logicalAt = .ok result ↔ ∃ monitor,
      HealthMonitor.fromStore db = .ok monitor ∧ (monitor.observeAll batch).persist db
        ((monitor.observeAll batch).persistenceEventId base) logicalAt = .ok result := by
  simp only [persistBatch, Except.bind_eq_ok]

/-- A fact about a loaded monitor, by evaluation. -/
theorem of_fromStore {db : Database} {monitor : HealthMonitor} {P : HealthMonitor → Bool}
    (hload : HealthMonitor.fromStore db = .ok monitor)
    (h : (HealthMonitor.fromStore db).toOption.any P = true) : P monitor = true := by
  rw [hload] at h
  exact h

/-- The first flat-account check of an episode is loaded back. -/
theorem reload_first_flatCheck : ∃ monitor, HealthMonitor.fromStore anomalyStore = .ok monitor ∧
    HealthMonitor.fromStore recoveringStore =
      .ok { snapshot := observeAll monitor.snapshot [.flatFillRecoveryCheck true 2] } := by
  obtain ⟨⟨monitor', db'⟩, hpersisted⟩ := Except.isOk_iff.mp
    (show (persistBatch anomalyStore [.flatFillRecoveryCheck true 2] (reconciliation 2 1) 2).isOk =
      true by decide +kernel)
  have hstore : recoveringStore = db' := by rw [recoveringStore, hpersisted]; rfl
  obtain ⟨monitor, hload, hpersist⟩ := persistBatch_eq_ok.mp hpersisted
  have hfacts := of_fromStore (P := fun monitor =>
    decide (RoundTrips (observeAll monitor.snapshot [.flatFillRecoveryCheck true 2])) &&
    decide (findEvent anomalyStore.events ((monitor.observeAll
      [.flatFillRecoveryCheck true 2]).persistenceEventId (reconciliation 2 1)) = none) &&
    decide (fillMoves monitor.snapshot [.flatFillRecoveryCheck true 2] = [.flatCheck true 2]) &&
    decide ((observeAll monitor.snapshot [.flatFillRecoveryCheck true 2]).lastObservationAtUtc =
      some 2) &&
    decide (monitor.snapshot.fillEpisode.active = true ∧
      monitor.snapshot.fillEpisode.checks = 0)) hload (by decide +kernel)
  simp only [Bool.and_eq_true, decide_eq_true_eq] at hfacts
  obtain ⟨⟨⟨⟨haccepted, hfresh⟩, hmoves⟩, hlast⟩, hactive, hchecks⟩ := hfacts
  refine ⟨monitor, hload, ?_⟩
  rw [hstore, reload_iff_carried hload (by decide) haccepted rfl rfl hfresh hpersist, hmoves, hlast]
  have hnone : Deviating [] := nofun
  refine .checked hactive hnone ?_ nofun ?_
  · rw [hchecks]
    decide
  · obtain ⟨-, hconsistent, -, p, -, hsound⟩ := HealthMonitor.fromStore_eq_ok hload
    exact ((Loaded.of_consistent hconsistent hsound.covered).covered hactive).symm

/-- A fill beyond the limit in an episode with one clean flat-account check: the reload still
counts the check. -/
theorem not_reload_unchanged : ¬∀ (db db' : Database) (monitor monitor' : HealthMonitor)
    (batch : List Observation) (base : EventId) (logicalAt : ℤ),
    HealthMonitor.fromStore db = .ok monitor → Nondecreasing batch →
    (batch.filter Observation.isFlatCheck).length ≤ 1 →
    RoundTrips (observeAll monitor.snapshot batch) → isReconcile base = true →
    findEvent db.events ((monitor.observeAll batch).persistenceEventId base) = none →
    (monitor.observeAll batch).persist db
      ((monitor.observeAll batch).persistenceEventId base) logicalAt = .ok (monitor', db') →
    HealthMonitor.fromStore db' = .ok { snapshot := observeAll monitor.snapshot batch } := by
  intro hall
  obtain ⟨⟨monitor', db'⟩, hpersisted⟩ := Except.isOk_iff.mp
    (show (persistBatch recoveringStore [.fillCheck 1 2 (some 3)] (reconciliation 3 2) 3).isOk =
      true by decide +kernel)
  obtain ⟨monitor, hload, hpersist⟩ := persistBatch_eq_ok.mp hpersisted
  have hfacts := of_fromStore (P := fun monitor =>
    decide (RoundTrips (observeAll monitor.snapshot [.fillCheck 1 2 (some 3)])) &&
    decide (findEvent recoveringStore.events ((monitor.observeAll
      [.fillCheck 1 2 (some 3)]).persistenceEventId (reconciliation 3 2)) = none) &&
    decide ((observeAll monitor.snapshot [.fillCheck 1 2 (some 3)]).fillRecoveryChecks = 0))
      hload (by decide +kernel)
  simp only [Bool.and_eq_true, decide_eq_true_eq] at hfacts
  obtain ⟨⟨haccepted, hfresh⟩, hcleared⟩ := hfacts
  have hreload := hall recoveringStore db' monitor monitor' _ _ _ hload (by decide) (by decide)
    haccepted rfl hfresh hpersist
  have hkept : ((persistBatch recoveringStore [.fillCheck 1 2 (some 3)] (reconciliation 3 2)
      3).toOption.any fun result => (HealthMonitor.fromStore result.2).toOption.any fun reloaded =>
        decide (reloaded.snapshot.fillRecoveryChecks = 1)) = true := by decide +kernel
  rw [hpersisted] at hkept
  have hkept : (HealthMonitor.fromStore db').toOption.any (fun reloaded =>
    decide (reloaded.snapshot.fillRecoveryChecks = 1)) = true := hkept
  rw [hreload] at hkept
  have hkept := of_decide_eq_true hkept
  rw [hcleared] at hkept
  cases hkept

end AutoBit.Health
