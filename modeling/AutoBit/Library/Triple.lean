import AutoBit.Library.Transaction

/-!
# Triples of computations that may raise

A triple says what holds after a computation that succeeds, and what holds of the state
that a raise leaves. The rules follow the computation from its first part to its last.
-/

namespace AutoBit.Library

variable {ε σ α β : Type}

/-- From a state with `pre`, a success ends with `post`, and a raise leaves a state with
`kept`. -/
def Triple (pre : σ → Prop) (x : Stateful ε σ α) (post : α → σ → Prop) (kept : σ → Prop) : Prop :=
  ∀ s, pre s → (∀ a s', execute x s = (.ok a, s') → post a s') ∧
    ∀ e s', execute x s = (.error e, s') → kept s'

variable {pre kept : σ → Prop} {post : α → σ → Prop}

/-- What a triple says of the state that a computation leaves, if both ends agree. -/
theorem Triple.leaves {x : Stateful ε σ α} {P : σ → Prop} (h : Triple pre x (fun _ => P) P)
    {s : σ} (hs : pre s) : P (execute x s).2 := by
  rcases hresult : execute x s with ⟨e | a, s'⟩
  · exact (h s hs).2 e s' hresult
  · exact (h s hs).1 a s' hresult

/-- A triple holds with a weaker postcondition. -/
theorem Triple.weaken {x : Stateful ε σ α} {post' : α → σ → Prop} (h : Triple pre x post kept)
    (hpost : ∀ a s, post a s → post' a s) : Triple pre x post' kept := by
  intro s hs
  refine ⟨?_, (h s hs).2⟩
  intro a s' hresult
  exact hpost a s' ((h s hs).1 a s' hresult)

/-- A triple that says less of what a raise leaves. -/
theorem Triple.relax {x : Stateful ε σ α} {kept' : σ → Prop} (h : Triple pre x post kept)
    (hkept : ∀ s, kept s → kept' s) : Triple pre x post kept' := by
  intro s hs
  refine ⟨(h s hs).1, ?_⟩
  intro e s' hresult
  exact hkept s' ((h s hs).2 e s' hresult)

/-- A triple, and what every success ends with besides. -/
theorem Triple.besides {x : Stateful ε σ α} {fact : α → σ → Prop} (h : Triple pre x post kept)
    (hfact : Triple (fun _ => True) x fact fun _ => True) :
    Triple pre x (fun a s => post a s ∧ fact a s) kept := by
  intro s hs
  refine ⟨?_, (h s hs).2⟩
  intro a s' hresult
  exact ⟨(h s hs).1 a s' hresult, (hfact s trivial).1 a s' hresult⟩

/-- A triple that asks for more. -/
theorem Triple.assume {x : Stateful ε σ α} {pre' : σ → Prop} (h : Triple pre x post kept)
    (hpre : ∀ s, pre' s → pre s) : Triple pre' x post kept := by
  intro s hs
  exact h s (hpre s hs)

/-- A fact that does not depend on the state. -/
theorem Triple.extract {x : Stateful ε σ α} {fact : Prop} (h : fact → Triple pre x post kept) :
    Triple (fun s => pre s ∧ fact) x post kept :=
  fun s hs => h hs.2 s hs.1

/-- Nothing is said of a computation. -/
theorem Triple.unsaid (x : Stateful ε σ α) : Triple pre x (fun _ _ => True) fun _ => True :=
  fun _ _ => ⟨fun _ _ _ => trivial, fun _ _ _ => trivial⟩

/-- What is pure leaves what holds of its value. -/
theorem Triple.pure {a : α} (h : ∀ s, pre s → post a s) :
    Triple pre (Pure.pure a : Stateful ε σ α) post kept := by
  intro s hs
  refine ⟨?_, fun e s' hresult => by cases hresult⟩
  intro b s' hresult
  cases hresult
  exact h s hs

/-- The triple of a sequence is made of those of its parts. -/
theorem Triple.bind {x : Stateful ε σ α} {f : α → Stateful ε σ β} {mid : α → σ → Prop}
    {post : β → σ → Prop} (hx : Triple pre x mid kept) (hf : ∀ a, Triple (mid a) (f a) post kept) :
    Triple pre (x >>= f) post kept := by
  intro s hs
  rw [execute_bind]
  rcases hresult : execute x s with ⟨e | a, t⟩
  · refine ⟨fun b s' hrest => (by cases hrest), ?_⟩
    rintro e' s' hrest
    cases hrest
    exact (hx s hs).2 e t hresult
  · exact hf a t ((hx s hs).1 a t hresult)

/-- A check that succeeds gives its value to the rest. -/
theorem Triple.lift_bind {x : Except ε α} {f : α → Stateful ε σ β} {post : β → σ → Prop}
    (hkept : ∀ s, pre s → kept s) (hf : ∀ a, x = .ok a → Triple pre (f a) post kept) :
    Triple pre (liftM x >>= f) post kept := by
  intro s hs
  rw [execute_bind, execute_lift]
  cases hx : x with
  | error e =>
    refine ⟨fun b s' hrest => (by cases hrest), ?_⟩
    rintro e' s' hrest
    cases hrest
    exact hkept s hs
  | ok a => exact hf a hx s hs

/-- A check at the end of a computation. -/
theorem Triple.lift {x : Except ε α} (hkept : ∀ s, pre s → kept s)
    (hpost : ∀ a, x = .ok a → ∀ s, pre s → post a s) :
    Triple pre (liftM x : Stateful ε σ α) post kept := by
  intro s hs
  rw [execute_lift]
  constructor
  · intro a s' hresult
    obtain ⟨hx, rfl⟩ := Prod.mk.inj hresult
    exact hpost a hx s hs
  · intro e s' hresult
    obtain ⟨-, rfl⟩ := Prod.mk.inj hresult
    exact hkept s hs

/-- The state that is read is the state at hand. -/
theorem Triple.get_bind {f : σ → Stateful ε σ β} {post : β → σ → Prop}
    (hf : ∀ s, pre s → Triple (· = s) (f s) post kept) : Triple pre (get >>= f) post kept := by
  intro s hs
  rw [execute_bind, execute_get]
  exact hf s hs s rfl

/-- A change of the state leaves what holds after it. -/
theorem Triple.modify {f : σ → σ} {post : PUnit → σ → Prop} (h : ∀ s, pre s → post ⟨⟩ (f s)) :
    Triple pre (modify f : Stateful ε σ PUnit) post kept := by
  intro s hs
  rw [execute_modify]
  refine ⟨?_, fun e s' hresult => by cases hresult⟩
  intro u s' hresult
  cases hresult
  exact h s hs

/-- A transaction keeps what held before it, when it raises. -/
theorem Triple.transaction {body : Stateful ε σ α} (hkept : ∀ s, pre s → kept s)
    (h : Triple pre body post fun _ => True) : Triple pre (transaction body) post kept := by
  intro s hs
  constructor
  · intro a s' hresult
    exact (h s hs).1 a s' (execute_transaction_eq_ok.mp hresult)
  · intro e s' hresult
    rw [execute_transaction_error hresult]
    exact hkept s hs

/-- A computation that respects a relation leads where the relation leads. -/
theorem Triple.of_respects {R : σ → σ → Prop} {x : Stateful ε σ α} {post : σ → Prop}
    (h : Respects R x) (hpost : ∀ s s', pre s → R s s' → post s')
    (hkept : ∀ s s', pre s → R s s' → kept s') : Triple pre x (fun _ => post) kept := by
  intro s hs
  have hafter := h s
  constructor
  · intro a s' hresult
    rw [hresult] at hafter
    exact hpost s s' hs hafter
  · intro e s' hresult
    rw [hresult] at hafter
    exact hkept s s' hs hafter

/-- A loop keeps an invariant of its accumulator. -/
theorem Triple.foldlM {items : List α} {f : β → α → Stateful ε σ β} {inv : β → σ → Prop}
    (h : ∀ b, ∀ item ∈ items, Triple (inv b) (f b item) inv kept) (b : β) : Triple (inv b) (items.foldlM f b) inv kept := by
  induction items generalizing b with
  | nil => exact Triple.pure fun _ hinv => hinv
  | cons item items ih =>
    rw [List.foldlM_cons]
    refine Triple.bind (h b item (by simp)) fun middle => ih ?_ middle
    exact fun b other hother => h b other (List.mem_cons_of_mem _ hother)

/-- What is raised is handled from a state that the raise leaves, or passed on. -/
theorem Triple.recover {x : Stateful ε σ α} {handler : ε → Option (Stateful ε σ α)}
    (hbody : Triple pre x post kept)
    (hhandler : ∀ e rest, handler e = some rest → Triple kept rest post kept) :
    Triple pre (recover x handler) post kept := by
  intro s hs
  rcases hresult : execute x s with ⟨e | a, t⟩
  · have hraised := (hbody s hs).2 e t hresult
    cases hrest : handler e with
    | some rest =>
      rw [execute_recover_error hresult hrest]
      exact hhandler e rest hrest t hraised
    | none =>
      rw [execute_recover_passed hresult hrest]
      refine ⟨fun a s' hpassed => (by cases hpassed), ?_⟩
      intro e' s' hpassed
      cases hpassed
      exact hraised
  · rw [execute_recover_ok hresult]
    refine ⟨?_, fun e s' hraised => by cases hraised⟩
    intro b s' hreturned
    cases hreturned
    exact (hbody s hs).1 a t hresult

section Follows

/-- From a state, a computation follows a relation to the state that it leaves, and a success
has `post` as well. -/
def Follows (R : σ → σ → Prop) (x : Stateful ε σ α) (post : α → σ → Prop) (s : σ) : Prop :=
  Triple (· = s) x (fun a s' => R s s' ∧ post a s') (R s)

variable {R S T : σ → σ → Prop} {P : α → σ → Prop} {x : Stateful ε σ α} {f : α → Stateful ε σ β} {s : σ}

/-- A computation follows a relation when every end of it does. -/
theorem follows_iff : Follows R x P s ↔
    (∀ a s', execute x s = (.ok a, s') → R s s' ∧ P a s') ∧
      ∀ e s', execute x s = (.error e, s') → R s s' := by
  constructor
  · exact fun h => h s rfl
  · rintro h _ rfl
    exact h

/-- Wherever a computation that follows a relation ends, the relation holds. -/
theorem Follows.leaves (h : Follows R x P s) : R s (execute x s).2 := by
  rcases hresult : execute x s with ⟨e | a, s'⟩
  · exact (h s rfl).2 e s' hresult
  · exact ((h s rfl).1 a s' hresult).1

/-- A computation follows a weaker relation with a weaker postcondition. -/
theorem Follows.weaken {P' : α → σ → Prop} (h : Follows S x P s)
    (hR : ∀ s', S s s' → R s s') (hpost : ∀ a s', S s s' → P a s' → P' a s') :
    Follows R x P' s := by
  rw [follows_iff] at h ⊢
  refine ⟨fun a s' hresult => ?_, fun e s' hresult => hR s' (h.2 e s' hresult)⟩
  obtain ⟨hfirst, hpost₁⟩ := h.1 a s' hresult
  exact ⟨hR s' hfirst, hpost a s' hfirst hpost₁⟩

/-- What is pure follows a relation that holds where it is. -/
theorem Follows.pure {a : α} (hR : R s s) (h : P a s) :
    Follows R (Pure.pure a : Stateful ε σ α) P s := by
  refine follows_iff.mpr ⟨?_, fun e s' hresult => by cases hresult⟩
  intro b s' hresult
  cases hresult
  exact ⟨hR, h⟩

/-- A computation that reads follows any relation that stays. -/
theorem Follows.read {result : Except ε α} (h : execute x s = (result, s)) (hR : R s s)
    (hpost : ∀ a, result = .ok a → P a s) : Follows R x P s := by
  refine follows_iff.mpr ⟨?_, ?_⟩
  · intro a s' hresult
    obtain ⟨ha, rfl⟩ := Prod.mk.inj (h.symm.trans hresult)
    exact ⟨hR, hpost a ha⟩
  · intro e s' hresult
    obtain ⟨-, rfl⟩ := Prod.mk.inj (h.symm.trans hresult)
    exact hR

/-- What is read goes to the rest. -/
theorem Follows.read_bind {result : Except ε α} {P : β → σ → Prop}
    (h : execute x s = (result, s)) (hR : R s s)
    (hf : ∀ a, result = .ok a → Follows R (f a) P s) : Follows R (x >>= f) P s := by
  refine follows_iff.mpr ?_
  rw [execute_bind, h]
  cases result with
  | error e =>
    refine ⟨fun b s' hrest => (by cases hrest), ?_⟩
    rintro e' s' hrest
    cases hrest
    exact hR
  | ok a => exact follows_iff.mp (hf a rfl)

/-- A first part and a rest, each along its own relation. -/
theorem Follows.bind {M : α → σ → Prop} {P : β → σ → Prop} (hx : Follows S x M s)
    (hleft : ∀ s', S s s' → R s s') (hcomp : ∀ s' s'', S s s' → T s' s'' → R s s'')
    (hf : ∀ a s', S s s' → M a s' → Follows T (f a) P s') : Follows R (x >>= f) P s := by
  rw [follows_iff] at hx ⊢
  rw [execute_bind]
  rcases hresult : execute x s with ⟨e | a, t⟩
  · refine ⟨fun b s' hrest => (by cases hrest), ?_⟩
    rintro e' s' hrest
    cases hrest
    exact hleft _ (hx.2 e t hresult)
  · obtain ⟨hfirst, hmid⟩ := hx.1 a t hresult
    have hrest := follows_iff.mp (hf a t hfirst hmid)
    refine ⟨fun b s' hb => ?_, fun e s' he => hcomp t s' hfirst (hrest.2 e s' he)⟩
    obtain ⟨hsecond, hpost⟩ := hrest.1 b s' hb
    exact ⟨hcomp t s' hfirst hsecond, hpost⟩

/-- A first part and a rest along one transitive relation. -/
theorem Follows.trans_bind [IsTrans σ R] {M : α → σ → Prop} {P : β → σ → Prop}
    (hx : Follows R x M s) (hf : ∀ a s', R s s' → M a s' → Follows R (f a) P s') :
    Follows R (x >>= f) P s :=
  hx.bind (fun _ h => h) (fun _ _ => trans_of R) hf

/-- A computation that respects a relation follows it from every state. -/
theorem Follows.of_respects (h : Respects R x) : Follows R x (fun _ _ => True) s := by
  refine follows_iff.mpr ⟨fun a s' hresult => ⟨?_, trivial⟩, fun e s' hresult => ?_⟩
  · have hafter := h s
    rwa [hresult] at hafter
  · have hafter := h s
    rwa [hresult] at hafter

/-- A transaction that raises goes nowhere, so its body need not follow the relation then. -/
theorem Follows.transaction (hR : R s s) (h : Triple (· = s) x (fun a s' => R s s' ∧ P a s')
    fun _ => True) : Follows R (transaction x) P s :=
  Triple.transaction (by rintro _ rfl; exact hR) h

/-- What is raised is handled along the relation, or passed on. -/
theorem Follows.recover {handler : ε → Option (Stateful ε σ α)} (hbody : Follows S x P s)
    (hleft : ∀ s', S s s' → R s s') (hcomp : ∀ s' s'', S s s' → T s' s'' → R s s'')
    (hhandler : ∀ e rest s', handler e = some rest → S s s' → Follows T rest P s') :
    Follows R (recover x handler) P s := by
  rw [follows_iff] at hbody ⊢
  rcases hresult : execute x s with ⟨e | a, t⟩
  · have hraised := hbody.2 e t hresult
    cases hrest : handler e with
    | some rest =>
      have hhandled := follows_iff.mp (hhandler e rest t hrest hraised)
      rw [execute_recover_error hresult hrest]
      refine ⟨fun b s' hb => ?_, fun e' s' he => hcomp t s' hraised (hhandled.2 e' s' he)⟩
      obtain ⟨hsecond, hpost⟩ := hhandled.1 b s' hb
      exact ⟨hcomp t s' hraised hsecond, hpost⟩
    | none =>
      rw [execute_recover_passed hresult hrest]
      refine ⟨fun b s' h => (by cases h), ?_⟩
      rintro e' s' h
      cases h
      exact hleft t hraised
  · rw [execute_recover_ok hresult]
    refine ⟨?_, fun e s' h => by cases h⟩
    rintro b s' h
    cases h
    obtain ⟨hfirst, hpost⟩ := hbody.1 a t hresult
    exact ⟨hleft t hfirst, hpost⟩

end Follows

end AutoBit.Library
