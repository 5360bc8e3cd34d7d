import AutoBit.Library.Except
import Mathlib.Order.Defs.Unbundled

/-!
# Transactions that undo

A computation over a state that may raise, and whose changes survive the raise. A
transaction runs a body and takes its changes back when the body raises. What every part
of a computation respects, the computation respects.
-/

namespace AutoBit.Library

/-- A computation over a state that may raise. -/
abbrev Stateful (ε σ α : Type) := ExceptT ε (StateM σ) α

variable {ε σ α β : Type}

/-- The result of a computation, and the state it leaves. -/
def execute (x : Stateful ε σ α) (s : σ) : Except ε α × σ := x.run.run s

/-- Run a body; when it raises, the state is as it was before. -/
def transaction (body : Stateful ε σ α) : Stateful ε σ α :=
  ExceptT.mk fun s =>
    match execute body s with
    | (.ok a, s') => (.ok a, s')
    | (.error e, _) => (.error e, s)

/-- Run a body; when it raises something that is handled, go on with the handler. -/
def recover (body : Stateful ε σ α) (handler : ε → Option (Stateful ε σ α)) : Stateful ε σ α :=
  ExceptT.mk fun s =>
    match execute body s with
    | (.ok a, s') => (.ok a, s')
    | (.error e, s') =>
      match handler e with
      | some rest => execute rest s'
      | none => (.error e, s')

/-- What returns needs no recovery. -/
theorem execute_recover_ok {body : Stateful ε σ α} {handler : ε → Option (Stateful ε σ α)} {a : α}
    {s s' : σ} (h : execute body s = (.ok a, s')) :
    execute (recover body handler) s = (.ok a, s') := by
  simp only [recover, execute, StateT.run, ExceptT.run_mk] at h ⊢
  rw [h]

/-- An error that is handled goes on with its handler. -/
theorem execute_recover_error {body rest : Stateful ε σ α}
    {handler : ε → Option (Stateful ε σ α)} {e : ε} {s s' : σ}
    (h : execute body s = (.error e, s')) (hhandler : handler e = some rest) :
    execute (recover body handler) s = execute rest s' := by
  simp only [recover, execute, StateT.run, ExceptT.run_mk] at h ⊢
  simp only [h, hhandler]

/-- An error that is not handled is passed on. -/
theorem execute_recover_passed {body : Stateful ε σ α} {handler : ε → Option (Stateful ε σ α)}
    {e : ε} {s s' : σ} (h : execute body s = (.error e, s')) (hhandler : handler e = none) :
    execute (recover body handler) s = (.error e, s') := by
  simp only [recover, execute, StateT.run, ExceptT.run_mk] at h ⊢
  simp only [h, hhandler]

/-- What is pure returns its value. -/
@[simp] theorem execute_pure (a : α) (s : σ) :
    execute (pure a : Stateful ε σ α) s = (.ok a, s) := rfl

/-- A sequence goes on where its first part returns. -/
theorem execute_bind (x : Stateful ε σ α) (f : α → Stateful ε σ β) (s : σ) :
    execute (x >>= f) s = match execute x s with
      | (.ok a, s') => execute (f a) s'
      | (.error e, s') => (.error e, s') := by
  have hrun : execute (x >>= f) s =
      StateT.run (m := Id) (ExceptT.bindCont (fun a => f a) (execute x s).1) (execute x s).2 := rfl
  rw [hrun]
  rcases execute x s with ⟨_ | a, t⟩ <;> rfl

/-- A computation that succeeds is a first part and a rest that succeed. -/
theorem execute_bind_eq_ok {x : Stateful ε σ α} {f : α → Stateful ε σ β} {s s' : σ} {b : β} :
    execute (x >>= f) s = (.ok b, s') ↔
      ∃ a t, execute x s = (.ok a, t) ∧ execute (f a) t = (.ok b, s') := by
  rw [execute_bind]
  rcases execute x s with ⟨_ | a, t⟩ <;> simp

/-- A computation without a state leaves the state alone. -/
@[simp] theorem execute_lift (x : Except ε α) (s : σ) :
    execute (liftM x : Stateful ε σ α) s = (x, s) := rfl

/-- The state is read. -/
@[simp] theorem execute_get (s : σ) : execute (get : Stateful ε σ σ) s = (.ok s, s) := rfl

/-- The state is changed. -/
@[simp] theorem execute_modify (f : σ → σ) (s : σ) :
    execute (modify f : Stateful ε σ PUnit) s = (.ok ⟨⟩, f s) := rfl

/-- A transaction returns exactly when its body does, and leaves what it leaves. -/
theorem execute_transaction_eq_ok {body : Stateful ε σ α} {s s' : σ} {a : α} :
    execute (transaction body) s = (.ok a, s') ↔ execute body s = (.ok a, s') := by
  change (match execute body s with
    | (.ok a, s') => ((.ok a, s') : Except ε α × σ)
    | (.error e, _) => (.error e, s)) = _ ↔ _
  rcases execute body s with ⟨_ | b, t⟩ <;> simp

/-- A transaction that raises changes nothing. -/
theorem execute_transaction_error {body : Stateful ε σ α} {s s' : σ} {e : ε}
    (h : execute (transaction body) s = (.error e, s')) : s' = s := by
  change (match execute body s with
    | (.ok a, s') => ((.ok a, s') : Except ε α × σ)
    | (.error e, _) => (.error e, s)) = _ at h
  rcases hbody : execute body s with ⟨_ | b, t⟩
  · rw [hbody] at h
    exact (congrArg Prod.snd h).symm
  · rw [hbody] at h
    cases congrArg Prod.fst h

section Atomic

/-- A computation changes nothing when it raises. -/
def Atomic (x : Stateful ε σ α) : Prop := ∀ s e s', execute x s = (.error e, s') → s' = s

/-- A transaction is atomic. -/
theorem atomic_transaction (body : Stateful ε σ α) : Atomic (transaction body) :=
  fun _ _ _ h => execute_transaction_error h

/-- Checks before an atomic computation keep it atomic. -/
theorem atomic_lift_bind {x : Except ε α} {f : α → Stateful ε σ β} (hf : ∀ a, Atomic (f a)) :
    Atomic (liftM x >>= f) := by
  intro s e s' h
  rw [execute_bind, execute_lift] at h
  cases x with
  | error failure => exact (congrArg Prod.snd h).symm
  | ok a => exact hf a s e s' h

/-- The result of an atomic computation may be dropped. -/
theorem atomic_bind_pure {x : Stateful ε σ α} {g : α → β} (hx : Atomic x) :
    Atomic (x >>= fun a => pure (g a)) := by
  intro s e s' h
  rw [execute_bind] at h
  rcases hresult : execute x s with ⟨failure | a, t⟩
  · rw [hresult] at h
    have hsame : t = s' := congrArg Prod.snd h
    exact hsame ▸ hx s failure t hresult
  · rw [hresult] at h
    cases congrArg Prod.fst h

end Atomic

section Respects

/-- Every run of a computation relates the states before and after it. -/
def Respects (R : σ → σ → Prop) (x : Stateful ε σ α) : Prop := ∀ s, R s (execute x s).2

variable {R : σ → σ → Prop} [Std.Refl R] [IsTrans σ R]

omit [IsTrans σ R] in
/-- What is pure respects every reflexive relation. -/
theorem respects_pure (a : α) : Respects R (pure a : Stateful ε σ α) := fun s => refl_of R s

omit [IsTrans σ R] in
/-- A computation without a state respects every reflexive relation. -/
theorem respects_lift (x : Except ε α) : Respects R (liftM x : Stateful ε σ α) :=
  fun s => refl_of R s

omit [IsTrans σ R] in
/-- A reading respects every reflexive relation. -/
theorem respects_get : Respects R (get : Stateful ε σ σ) := fun s => refl_of R s

omit [Std.Refl R] [IsTrans σ R] in
/-- A change of the state respects a relation that it keeps. -/
theorem respects_modify {f : σ → σ} (h : ∀ s, R s (f s)) :
    Respects R (modify f : Stateful ε σ PUnit) := h

omit [Std.Refl R] in
/-- A sequence respects what both of its parts respect. -/
theorem respects_bind {x : Stateful ε σ α} {f : α → Stateful ε σ β} (hx : Respects R x)
    (hf : ∀ a, Respects R (f a)) : Respects R (x >>= f) := by
  intro s
  rw [execute_bind]
  have hfirst := hx s
  rcases hresult : execute x s with ⟨_ | a, t⟩
  · rw [hresult] at hfirst
    exact hfirst
  · rw [hresult] at hfirst
    exact trans_of R hfirst (hf a t)

omit [IsTrans σ R] in
/-- A sequence after a computation without a state respects what the rest respects. -/
theorem respects_lift_bind {x : Except ε α} {f : α → Stateful ε σ β}
    (hf : ∀ a, x = .ok a → Respects R (f a)) : Respects R (liftM x >>= f) := by
  intro s
  rw [execute_bind, execute_lift]
  cases hx : x with
  | error e => exact refl_of R s
  | ok a => exact hf a hx s

omit [IsTrans σ R] in
/-- A transaction respects what its body respects. -/
theorem respects_transaction {body : Stateful ε σ α} (h : Respects R body) :
    Respects R (transaction body) := by
  intro s
  rcases hresult : execute (transaction body) s with ⟨e | a, t⟩
  · rw [execute_transaction_error hresult]
    exact refl_of R s
  · have hbody := h s
    rw [execute_transaction_eq_ok.mp hresult] at hbody
    exact hbody

/-- A loop respects what its rounds respect. -/
theorem respects_forM {items : List α} {f : α → Stateful ε σ PUnit}
    (h : ∀ item ∈ items, Respects R (f item)) : Respects R (forM items f) := by
  induction items with
  | nil => exact respects_pure _
  | cons item items ih =>
    rw [List.forM_cons]
    refine respects_bind (h item (by simp)) fun _ => ih ?_
    exact fun other hother => h other (List.mem_cons_of_mem _ hother)

/-- A loop with an accumulator respects what its rounds respect. -/
theorem respects_foldlM {items : List α} {f : β → α → Stateful ε σ β}
    (h : ∀ b, ∀ item ∈ items, Respects R (f b item)) (b : β) :
    Respects R (items.foldlM f b) := by
  induction items generalizing b with
  | nil => exact respects_pure _
  | cons item items ih =>
    rw [List.foldlM_cons]
    refine respects_bind (h b item (by simp)) fun middle => ih ?_ middle
    exact fun b other hother => h b other (List.mem_cons_of_mem _ hother)

omit [Std.Refl R] in
/-- What is raised is handled along the relation, or passed on. -/
theorem respects_recover {body : Stateful ε σ α} {handler : ε → Option (Stateful ε σ α)}
    (hbody : Respects R body) (hhandler : ∀ e rest, handler e = some rest → Respects R rest) :
    Respects R (recover body handler) := by
  intro s
  have hleft := hbody s
  rcases hresult : execute body s with ⟨e | a, s'⟩
  · rw [hresult] at hleft
    cases hrest : handler e with
    | some rest =>
      rw [execute_recover_error hresult hrest]
      exact trans_of R hleft (hhandler e rest hrest s')
    | none =>
      rw [execute_recover_passed hresult hrest]
      exact hleft
  · rw [hresult] at hleft
    rw [execute_recover_ok hresult]
    exact hleft

omit [Std.Refl R] [IsTrans σ R] in
/-- What respects a relation respects a weaker one. -/
theorem Respects.mono {S : σ → σ → Prop} {x : Stateful ε σ α} (h : Respects R x)
    (hRS : ∀ s s', R s s' → S s s') : Respects S x := fun s => hRS _ _ (h s)

end Respects

end AutoBit.Library
