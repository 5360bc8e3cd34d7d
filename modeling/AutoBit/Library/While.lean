import AutoBit.Library.Except

/-!
# Unbounded loops that may raise

A program that may raise and may run forever is run for a number of rounds. It ends when it
has an outcome, which is a result or an error. Programs in a row end when each does, and a
loop ends when its rounds lower a number.
-/

namespace AutoBit.Library

universe u

variable {ε α β σ τ : Type u}

/-- `while True`: a round raises, goes on in another state or breaks with a result. There is
no outcome when the rounds run out before. -/
def whileTrue (round : σ → Except ε (σ ⊕ τ)) : ℕ → σ → ExceptT ε Option τ
  | 0, _ => ExceptT.mk none
  | fuel + 1, s => do
    match ← round s with
    | .inl next => whileTrue round fuel next
    | .inr result => return result

/-- A program has an outcome, and one of a certain kind. -/
def Ends (program : ExceptT ε Option α) (post : Except ε α → Prop) : Prop :=
  ∃ outcome, program.run = some outcome ∧ post outcome

/-- A computation ends as it does. -/
theorem Ends.lift {x : Except ε α} {post : Except ε α → Prop} (h : post x) :
    Ends (liftM x : ExceptT ε Option α) post := ⟨x, rfl, h⟩

/-- What is pure ends with its value. -/
theorem Ends.pure {a : α} {post : Except ε α → Prop} (h : post (.ok a)) :
    Ends (Pure.pure a : ExceptT ε Option α) post := ⟨_, rfl, h⟩

/-- A sequence ends as its second part does, or with the error of its first. -/
theorem Ends.bind {program : ExceptT ε Option α} {next : α → ExceptT ε Option β}
    {mid : Except ε α → Prop} {post : Except ε β → Prop} (h : Ends program mid)
    (hok : ∀ a, mid (.ok a) → Ends (next a) post) (herror : ∀ e, mid (.error e) → post (.error e)) :
    Ends (program >>= next) post := by
  obtain ⟨outcome, hrun, hmid⟩ := h
  cases outcome with
  | error e =>
    refine ⟨.error e, ?_, herror e hmid⟩
    rw [ExceptT.run_bind, hrun]
    rfl
  | ok a =>
    obtain ⟨result, hresult, hpost⟩ := hok a hmid
    refine ⟨result, ?_, hpost⟩
    rw [ExceptT.run_bind, hrun]
    exact hresult

/-- What ends in one way ends in another that follows. -/
theorem Ends.imp {program : ExceptT ε Option α} {mid post : Except ε α → Prop}
    (h : Ends program mid) (himp : ∀ outcome, mid outcome → post outcome) : Ends program post := by
  obtain ⟨outcome, hrun, hmid⟩ := h
  exact ⟨outcome, hrun, himp outcome hmid⟩

/-- A loop ends when its rounds keep an invariant and lower a number. -/
theorem Ends.whileTrue {round : σ → Except ε (σ ⊕ τ)} {post : Except ε τ → Prop}
    (Inv : σ → Prop) (variant : σ → ℕ)
    (hraise : ∀ s e, Inv s → round s = .error e → post (.error e))
    (hbreak : ∀ s result, Inv s → round s = .ok (.inr result) → post (.ok result))
    (hnext : ∀ s next, Inv s → round s = .ok (.inl next) → Inv next ∧ variant next < variant s)
    {fuel : ℕ} {s : σ} (hs : Inv s) (hfuel : variant s < fuel) :
    Ends (whileTrue round fuel s) post := by
  induction fuel generalizing s with
  | zero => omega
  | succ fuel ih =>
    rw [Library.whileTrue]
    have hround : Ends (liftM (round s) : ExceptT ε Option (σ ⊕ τ)) (· = round s) :=
      Ends.lift rfl
    refine hround.bind ?_ ?_
    · rintro (next | result) hround
      · obtain ⟨hinv, hlower⟩ := hnext s next hs hround.symm
        exact ih hinv (by omega)
      · exact Ends.pure (hbreak s result hs hround.symm)
    · intro e hround
      exact hraise s e hs hround.symm

/-- A sequence has a result exactly when both parts do. -/
theorem run_bind_eq_ok {program : ExceptT ε Option α} {next : α → ExceptT ε Option β} {b : β} :
    (program >>= next).run = some (.ok b) ↔
      ∃ a, program.run = some (.ok a) ∧ (next a).run = some (.ok b) := by
  rw [ExceptT.run_bind]
  constructor
  · intro h
    obtain ⟨outcome, hrun, hnext⟩ := Option.bind_eq_some_iff.mp h
    cases outcome with
    | error e => cases hnext
    | ok a => exact ⟨a, hrun, hnext⟩
  · rintro ⟨a, hrun, hnext⟩
    rw [hrun]
    exact hnext

/-- A computation that is lifted returns when it does. -/
theorem run_lift_eq_ok {x : Except ε α} {a : α} :
    (liftM x : ExceptT ε Option α).run = some (.ok a) ↔ x = .ok a := Option.some_inj

/-- The outcomes of a program are those of another one too. -/
def Within (program program' : ExceptT ε Option α) : Prop :=
  ∀ outcome, program.run = some outcome → program'.run = some outcome

/-- A program stays within itself. -/
theorem Within.refl (program : ExceptT ε Option α) : Within program program := fun _ h => h

/-- A sequence stays within another when its parts do. -/
theorem Within.bind {program program' : ExceptT ε Option α} {next next' : α → ExceptT ε Option β}
    (h : Within program program') (hnext : ∀ a, Within (next a) (next' a)) :
    Within (program >>= next) (program' >>= next') := by
  intro outcome hrun
  rw [ExceptT.run_bind] at hrun ⊢
  obtain ⟨first, hfirst, hrest⟩ := Option.bind_eq_some_iff.mp hrun
  rw [h first hfirst]
  cases first with
  | error e => exact hrest
  | ok a => exact hnext a outcome hrest

/-- More rounds leave an outcome as it is. -/
theorem Within.whileTrue (round : σ → Except ε (σ ⊕ τ)) {fuel fuel' : ℕ} (h : fuel ≤ fuel')
    (s : σ) : Within (whileTrue round fuel s) (whileTrue round fuel' s) := by
  induction fuel generalizing fuel' s with
  | zero =>
    intro outcome hrun
    cases hrun
  | succ fuel ih =>
    obtain ⟨more, rfl⟩ := Nat.exists_eq_add_of_le' (by omega : 1 ≤ fuel')
    rw [Library.whileTrue, Library.whileTrue]
    refine (Within.refl _).bind ?_
    rintro (next | result)
    · exact ih (by omega) next
    · exact Within.refl _

end AutoBit.Library
