import AutoBit.Live.Facts

/-!
# The calls keep the evidence of a position

A reconciliation opens the position, moves its entry or takes from it. A price and a candle
only raise its facts. Whatever else a call does leaves them alone, wherever it ends.
-/

namespace AutoBit.Live

open Library Health Risk Strategy Relation

/-! ## What leaves the position alone -/

/-- A journal without its monitor. -/
def Journal.unmonitored (journal : Journal) : Journal :=
  { journal with state := journal.state.map fun state => { state with health := {} } }

/-- A journal without its monitor has the same position. -/
@[simp] theorem Journal.unmonitored_position (journal : Journal) :
    journal.unmonitored.position = journal.position := by
  cases hstate : journal.state <;> simp [Journal.position, Journal.unmonitored, hstate]

/-- A journal without its monitor has the same unresolved intents. -/
@[simp] theorem Journal.unmonitored_unresolved (journal : Journal) :
    journal.unmonitored.unresolved = journal.unresolved := rfl

/-- A journal without its monitor has the same ledger. -/
@[simp] theorem Journal.unmonitored_ledger (journal : Journal) :
    journal.unmonitored.ledger = journal.ledger := by
  cases hstate : journal.state <;>
    simp [Journal.ledger, Journal.unmonitored, hstate, LiveState.book]

/-- At most the monitor of the journal changes. -/
structure Monitored (world next : World) : Prop where
  journal : next.journal.unmonitored = world.journal.unmonitored
  clock : next.clock = world.clock
  reports : world.reports <+: next.reports

instance : Std.Refl Monitored := ⟨fun _ => ⟨rfl, rfl, List.prefix_refl _⟩⟩

instance : IsTrans World Monitored := ⟨fun _ _ _ h hrest =>
  ⟨hrest.journal.trans h.journal, hrest.clock.trans h.clock, h.reports.trans hrest.reports⟩⟩

/-- The position stays as it is. -/
structure Steady (world next : World) : Prop where
  position : next.journal.position = world.journal.position
  clock : next.clock = world.clock
  reports : world.reports <+: next.reports

instance : Std.Refl Steady := ⟨fun _ => ⟨rfl, rfl, List.prefix_refl _⟩⟩

instance : IsTrans World Steady := ⟨fun _ _ _ h hrest =>
  ⟨hrest.position.trans h.position, hrest.clock.trans h.clock, h.reports.trans hrest.reports⟩⟩

/-- A change of the monitor leaves the position alone. -/
theorem Monitored.steady {world next : World} (h : Monitored world next) : Steady world next := by
  refine ⟨?_, h.clock, h.reports⟩
  rw [← Journal.unmonitored_position, h.journal, Journal.unmonitored_position]

section Monitor

variable (env : Environment) {world next : World} {at_ : ℤ}

/-- The first pending intent is read from the journal. -/
theorem execute_firstPending (world : World) : execute firstPending world =
    (world.journal.pending >>= fun pending =>
      require pending.head? (LiveError.value "tuple index out of range"), world) := by
  rw [firstPending, execute_bind, execute_journalPending]
  cases world.journal.pending with
  | error e => rfl
  | ok pending => exact execute_lift _ _

/-- The first pending intent is the only unresolved one. -/
theorem pending_of_first {journal : Journal} {intent : LiveIntent}
    (h : (journal.pending >>= fun pending =>
      require pending.head? (LiveError.value "tuple index out of range")) = .ok intent) :
    journal.unresolved = [intent] := by
  simp only [Except.bind_eq_ok, require_eq_ok] at h
  obtain ⟨pending, hpending, hintent⟩ := h
  obtain ⟨rfl, hlength⟩ := Journal.pending_eq_ok hpending
  obtain ⟨rest, hrest⟩ := List.head?_eq_some_iff.mp hintent
  rw [hrest, List.length_cons] at hlength
  obtain rfl : rest = [] := List.length_eq_zero_iff.mp (by omega)
  exact hrest

/-- An access changes at most the monitor. -/
theorem access_monitors (world : World) :
    Follows Monitored access (fun _ next => next.journal = world.journal) world := by
  refine follows_iff.mpr ⟨?_, ?_⟩
  · intro n next h
    rw [execute_access] at h
    cases h
    exact ⟨⟨rfl, rfl, List.prefix_refl _⟩, rfl⟩
  · intro e next h
    rw [execute_access] at h
    cases h

/-- A request changes at most the monitor. -/
theorem request_monitors {α : Type} (answers : ℕ → Response α) (world : World) :
    Follows Monitored (request answers) (fun _ next => next.journal = world.journal) world := by
  refine Follows.trans_bind (access_monitors world) fun n next _ hjournal => ?_
  exact Follows.read (execute_lift _ _) (refl_of Monitored _) fun _ _ => hjournal

/-- An order that is returned is among the reports since any time before. -/
theorem getOrder_monitors (identifier : String) (world : World) :
    Follows Monitored (getOrder env identifier)
      (fun actual next => next.journal = world.journal ∧ actual.Consistent ∧
        ∀ base ≤ world.reports.length, actual ∈ next.reports.drop base) world := by
  refine Follows.trans_bind (request_monitors env.orders world) fun data next hnext hjournal => ?_
  refine Follows.read_bind (execute_lift _ _) (refl_of Monitored _) fun actual hactual => ?_
  refine Follows.trans_bind (M := fun _ last =>
      last = { next with reports := next.reports ++ [actual] }) ?_ ?_
  · refine follows_iff.mpr ⟨?_, fun e last h => by cases h⟩
    rintro _ _ h
    cases h
    exact ⟨⟨rfl, rfl, List.prefix_append _ _⟩, rfl⟩
  · rintro _ _ _ rfl
    refine Follows.pure (refl_of Monitored _) ⟨hjournal, (order_consistent hactual).2, ?_⟩
    intro base hbase
    rw [List.drop_append_of_le_length (hbase.trans hnext.reports.length_le)]
    exact List.mem_append_right _ (List.mem_singleton.mpr rfl)

/-- A cancellation changes at most the monitor. -/
theorem cancelOrder_monitors (identifier : String) (world : World) :
    Follows Monitored (cancelOrder env identifier) (fun _ next => next.journal = world.journal)
      world := by
  refine Follows.trans_bind (request_monitors env.cancels world) fun data next _ hjournal => ?_
  exact Follows.read (execute_lift _ _) (refl_of Monitored _) fun _ _ => hjournal

/-- The journal is saved with another state. -/
theorem save_follows {R : World → World → Prop} {other : LiveState}
    (hstay : ∀ n, R world { world with accesses := n })
    (hdone : ∀ n, validateState other = .ok () → R world { world with
      accesses := n, journal := { world.journal with state := some other } }) :
    Follows R (saveState env other)
      (fun _ next => next.journal = { world.journal with state := some other }) world := by
  refine (commit_follows env hstay fun journal n h => ?_).weaken (fun _ h => h) ?_
  · obtain ⟨hvalid, rfl⟩ := Journal.write_eq_ok h
    exact hdone n hvalid
  · rintro _ _ _ ⟨journal, n, h, rfl⟩
    exact (Journal.write_eq_ok h).2

/-- A counted access changes at most the monitor. -/
theorem monitored_accessed (world : World) (n : ℕ) : Monitored world { world with accesses := n } :=
  ⟨rfl, rfl, List.prefix_refl _⟩

/-- A saved monitor is all that changes. -/
theorem persistHealth_monitors (health : HealthSnapshot) (world : World) :
    Follows Monitored (persistHealth env health)
      (fun _ next => next.journal.state = world.journal.state.map fun state =>
        { state with health }) world := by
  refine Follows.read_bind (execute_journalState world) (refl_of Monitored _) fun _ h => ?_
  cases h
  cases hstate : world.journal.state with
  | none => exact Follows.pure (refl_of Monitored _) hstate
  | some state =>
    refine (save_follows env (monitored_accessed world) fun n _ => ?_).weaken (fun _ h => h) ?_
    · exact ⟨by simp [Journal.unmonitored, hstate], rfl, List.prefix_refl _⟩
    · intro _ next _ hjournal
      rw [hjournal]
      rfl

/-- A failed request changes at most the monitor. -/
theorem failure_monitors (error : LiveError) (at_ : ℤ) (world : World) :
    Follows Monitored (failure env error at_) (fun _ _ => True) world := by
  refine Follows.read_bind (execute_currentHealth world) (refl_of Monitored _) fun _ _ => ?_
  refine Follows.read_bind (execute_journalPending world) (refl_of Monitored _) fun _ _ => ?_
  exact (persistHealth_monitors env _ world).weaken (fun _ h => h) fun _ _ _ _ => trivial

end Monitor

/-! ## Reconciliation -/

section Settling

variable (start : Journal) (settings : Settings) (past since : List Invocation) (base : ℕ)
  (side : Side)

/-- Every position of the world has its evidence in the calls and in the reports since `base`. -/
def World.Evident (world : World) : Prop :=
  ∀ position ∈ world.journal.position,
    Live.Evident settings past since (world.reports.drop base) position

/-- The pending orders are all on one side, and the position has its evidence. -/
structure Kept (world : World) : Prop where
  sound : Sound start world.journal
  sided : ∀ intent ∈ world.journal.unresolved, intent.side = side
  evident : world.Evident settings past since base

/-- Pending orders are settled, and all that is kept is kept. -/
structure Settling (world next : World) : Prop where
  clock : next.clock = world.clock
  reports : world.reports <+: next.reports
  kept : Kept start settings past since base side world →
    Kept start settings past since base side next
  carried : Kept start settings past since base side world →
    Carried side world.journal.position next.journal.position

instance : Std.Refl (Settling start settings past since base side) :=
  ⟨fun _ => ⟨rfl, List.prefix_refl _, id, fun _ => Carried.refl _ _⟩⟩

instance : IsTrans World (Settling start settings past since base side) := ⟨fun _ _ _ h hrest =>
  ⟨hrest.clock.trans h.clock, h.reports.trans hrest.reports, fun hkept => hrest.kept (h.kept hkept),
    fun hkept => (h.carried hkept).trans (hrest.carried (h.kept hkept))⟩⟩

end Settling

section Reconciliation

variable (env : Environment) {start : Journal} {settings : Settings} {past since : List Invocation}
  {base : ℕ} {side : Side} {world next : World} {at_ : ℤ}

/-- A journal with the same ledger and the same unresolved intents is as sound. -/
theorem Sound.same {journal journal' : Journal} (h : Sound start journal)
    (hunresolved : journal'.unresolved = journal.unresolved)
    (hledger : journal'.ledger = journal.ledger)
    (hstate : journal'.state.isSome = journal.state.isSome) : Sound start journal' := by
  refine ⟨?_, ?_⟩
  · rw [hunresolved, hledger]
    exact h.recorded
  · rw [hstate, hledger]
    exact h.balance

/-- A position keeps its evidence when more is reported. -/
theorem World.Evident.more (h : world.Evident settings past since base)
    (hposition : next.journal.position = world.journal.position)
    (hreports : world.reports <+: next.reports) : next.Evident settings past since base := by
  intro position hmem
  rw [hposition] at hmem
  exact (h position hmem).more (List.Subset.refl _) (List.prefix_refl _)
    (hreports.drop base).subset

/-- A change of the monitor settles nothing and keeps the rest. -/
theorem Monitored.settling (h : Monitored world next) :
    Settling start settings past since base side world next := by
  have hsteady := h.steady
  have hunresolved : next.journal.unresolved = world.journal.unresolved := by
    rw [← Journal.unmonitored_unresolved, h.journal, Journal.unmonitored_unresolved]
  refine ⟨h.clock, h.reports, fun hkept => ⟨?_, ?_, ?_⟩, fun _ => ?_⟩
  · refine hkept.sound.same hunresolved ?_ ?_
    · rw [← Journal.unmonitored_ledger, h.journal, Journal.unmonitored_ledger]
    · simpa [Journal.unmonitored] using congrArg (fun journal => journal.state.isSome) h.journal
  · rw [hunresolved]
    exact hkept.sided
  · exact hkept.evident.more hsteady.position h.reports
  · rw [hsteady.position]
    exact Carried.refl _ _

/-- What follows the monitor is settled. -/
theorem Follows.monitored {α : Type} {x : Process α} {post : α → World → Prop}
    (h : Follows Monitored x post world) :
    Follows (Settling start settings past since base side) x post world :=
  h.weaken (fun _ hmonitored => hmonitored.settling) fun _ _ _ hpost => hpost

/-- An order that is applied moves the position to the side of its intent. -/
theorem applyOrder_settles {intent : LiveIntent} {actual : VenueOrder} (hclock : world.clock = at_)
    (hpending : world.journal.unresolved = [intent])
    (hreported : actual ∈ world.reports.drop base) (hconsistent : actual.Consistent) :
    Follows (Settling start settings past since base side) (applyOrder env intent actual at_)
      (fun _ _ => True) world := by
  subst hclock
  have hstay : ∀ n, Settling start settings past since base side world
      { world with accesses := n } := fun n => (monitored_accessed world n).settling
  refine Follows.read_bind (execute_journalState world) (hstay _) fun _ h => ?_
  cases h
  refine Follows.read_bind (execute_lift _ _) (hstay _) fun state hstate => ?_
  rw [require_eq_ok] at hstate
  refine Follows.read_bind (execute_lift _ _) (hstay _) fun settled hsettled => ?_
  refine (commit_follows env hstay fun journal n hupdate => ?_).weaken (fun _ h => h)
    fun _ _ _ _ => trivial
  have hstep : JournalStep world.reports world.clock world.journal journal :=
    .settled hstate hpending (List.mem_of_mem_drop hreported) hconsistent hsettled hupdate
  have hmem : intent ∈ world.journal.unresolved := by
    rw [hpending]
    exact List.mem_singleton.mpr rfl
  obtain ⟨booked, _, hbooked, _, hintent, hsettledState⟩ := settleOrder_eq_ok hsettled
  obtain ⟨funds, haccepted, hside, _⟩ := bookOrder_iff.mp hbooked
  have hposition : world.journal.position = state.book.position := by
    simp [Journal.position, hstate, LiveState.book]
  have hafter : journal.position = booked.position := by
    rw [(Journal.update_eq_ok hupdate).2.2.2, Journal.position, hsettledState]
    rfl
  have hbook : Kept start settings past since base side world →
      (∀ position ∈ booked.position,
        Evident settings past since (world.reports.drop base) position) ∧
        Carried side state.book.position booked.position := by
    intro hkept
    obtain ⟨hquantity, hrecorded⟩ := hkept.sound.recorded intent hmem
    rw [ledger_of_state hstate] at hrecorded
    have hevident := hkept.evident
    rw [World.Evident, hposition] at hevident
    cases hbid : intent.side with
    | bid =>
      rw [← hkept.sided intent hmem, hbid]
      exact bookBid_evident hreported hbid haccepted hquantity hrecorded hevident hside
    | ask =>
      rw [← hkept.sided intent hmem, hbid]
      exact bookAsk_evident hbid hevident hside
  refine ⟨rfl, List.prefix_refl _, fun hkept => ⟨hkept.sound.step hstep, ?_, ?_⟩, fun hkept => ?_⟩
  · intro other hother
    have hother : other ∈ journal.unresolved := hother
    rw [hintent] at hupdate
    rw [Journal.unresolved_updated hpending hupdate rfl] at hother
    split at hother
    · cases hother
    · rw [List.mem_singleton.mp hother]
      exact hkept.sided intent hmem
  · intro position hheld
    exact (hbook hkept).1 position (hafter ▸ hheld)
  · change Carried side world.journal.position journal.position
    rw [hposition, hafter]
    exact (hbook hkept).2

/-- A cancellation settles what was filled before it. -/
theorem cancelRemainder_settles (identifier : String) (hclock : world.clock = at_)
    (hbase : base ≤ world.reports.length) :
    Follows (Settling start settings past since base side) (cancelRemainder env identifier at_)
      (fun _ _ => True) world := by
  have hstay : ∀ middle n, Settling start settings past since base side middle
      { middle with accesses := n } := fun middle n => (monitored_accessed middle n).settling
  refine Follows.read_bind (execute_firstPending world) (hstay _ _) fun updated h => ?_
  have hupdated := pending_of_first h
  refine Follows.read_bind (execute_journalState _) (hstay _ _) fun _ h => ?_
  cases h
  refine Follows.read_bind (execute_lift _ _) (hstay _ _) fun state hstate => ?_
  rw [require_eq_ok] at hstate
  refine Follows.trans_bind (M := fun _ _ => True) ?_ fun _ marked hmarked _ => ?_
  · refine (commit_follows env (hstay world) fun journal n hupdate => ?_).weaken (fun _ h => h)
      fun _ _ _ _ => trivial
    have hstep : JournalStep world.reports world.clock world.journal journal :=
      .marked hstate hupdated hupdate
    have hposition : journal.position = world.journal.position := by
      rw [(Journal.update_eq_ok hupdate).2.2.2, Journal.position, Journal.position, hstate]
    refine ⟨rfl, List.prefix_refl _, fun hkept => ⟨hkept.sound.step hstep, ?_, ?_⟩, fun _ => ?_⟩
    · intro other hother
      have hother : other ∈ journal.unresolved := hother
      rw [Journal.unresolved_updated hupdated hupdate rfl] at hother
      split at hother
      · cases hother
      · rw [List.mem_singleton.mp hother]
        exact hkept.sided updated (by rw [hupdated]; exact List.mem_singleton.mpr rfl)
    · exact hkept.evident.more hposition (List.prefix_refl _)
    · change Carried side world.journal.position journal.position
      rw [hposition]
      exact Carried.refl _ _
  refine Follows.trans_bind (Follows.monitored (cancelOrder_monitors env identifier marked))
    fun _ cancelled hcancelled _ => ?_
  refine Follows.read_bind (execute_firstPending cancelled) (hstay _ _) fun current h => ?_
  have hcurrent := pending_of_first h
  have hlength := hmarked.reports.length_le
  have hlength' := hcancelled.reports.length_le
  refine Follows.trans_bind (Follows.monitored (getOrder_monitors env identifier cancelled)) ?_
  rintro actual last hlast ⟨hjournal, hconsistent, hreported⟩
  refine applyOrder_settles env ?_ (hjournal ▸ hcurrent) (hreported base (by omega)) hconsistent
  rw [hlast.clock, hcancelled.clock, hmarked.clock, hclock]

/-- The reconciliation of an intent settles its order. -/
theorem reconcileIntent_settles {intent : LiveIntent} (hclock : world.clock = at_)
    (hpending : world.journal.unresolved = [intent]) (hbase : base ≤ world.reports.length) :
    Follows (Settling start settings past since base side) (reconcileIntent env at_ intent)
      (fun _ _ => True) world := by
  refine Follows.trans_bind (Follows.monitored (getOrder_monitors env intent.identifier world)) ?_
  rintro actual found hfound ⟨hjournal, hconsistent, hreported⟩
  have hfoundClock : found.clock = at_ := hfound.clock.trans hclock
  refine Follows.trans_bind (applyOrder_settles env hfoundClock (hjournal ▸ hpending)
    (hreported base hbase) hconsistent) fun _ applied happlied _ => ?_
  split
  · have hlength := hfound.reports.length_le
    have hlength' := happlied.reports.length_le
    exact cancelRemainder_settles env _ (happlied.clock.trans hfoundClock) (by omega)
  · exact Follows.pure (refl_of (Settling start settings past since base side) _) trivial

end Reconciliation

/-! ## What a call keeps -/

section Watching

variable (settings : Settings) (past past' since : List Invocation) (base : ℕ)

/-- The position that is left has grown from the one before, and has its evidence, with what was
computed by then. -/
structure Watching (world next : World) : Prop where
  clock : next.clock = world.clock
  reports : world.reports <+: next.reports
  carried : Carried .ask world.journal.position next.journal.position
  evident : world.Evident settings past since base → next.Evident settings past' since base

variable (start : Journal)

/-- A position that is held before and after has grown, and keeps its evidence, provided that the
journal is sound. -/
structure Guarding (world next : World) : Prop where
  clock : next.clock = world.clock
  reports : world.reports <+: next.reports
  grown : Sound start world.journal → world.Evident settings past since base →
    ∀ before ∈ world.journal.position, ∀ after ∈ next.journal.position, Grown before after
  evident : Sound start world.journal → world.Evident settings past since base →
    next.Evident settings past' since base

end Watching

section Watching

variable {start : Journal} {settings : Settings} {past past' since : List Invocation} {base : ℕ}
  {world middle next : World}

instance : Std.Refl (Watching settings past past since base) :=
  ⟨fun _ => ⟨rfl, List.prefix_refl _, Carried.refl _ _, id⟩⟩

/-- Two stretches that keep the evidence of a position keep it together. -/
theorem Watching.trans {past'' : List Invocation}
    (h : Watching settings past past' since base world middle)
    (hrest : Watching settings past' past'' since base middle next) :
    Watching settings past past'' since base world next :=
  ⟨hrest.clock.trans h.clock, h.reports.trans hrest.reports, h.carried.trans hrest.carried,
    fun hevident => hrest.evident (h.evident hevident)⟩

instance : IsTrans World (Watching settings past past since base) := ⟨fun _ _ _ => Watching.trans⟩

/-- A position that is left alone keeps its evidence. -/
theorem Steady.watching (h : Steady world next) :
    Watching settings past past since base world next := by
  refine ⟨h.clock, h.reports, ?_, fun hevident => hevident.more h.position h.reports⟩
  rw [h.position]
  exact Carried.refl _ _

/-- Evidence that was computed earlier is evidence. -/
theorem Watching.more (h : Watching settings past past since base world next)
    (hpast : past ⊆ past') : Watching settings past past' since base world next :=
  ⟨h.clock, h.reports, h.carried, fun hevident position hmem =>
    (h.evident hevident position hmem).more hpast (List.prefix_refl _) (List.Subset.refl _)⟩

/-- What watches a position that was reconciled guards it. -/
theorem Guarding.watched (h : Guarding settings past past since base start world middle)
    (hrest : Watching settings past past' since base middle next) :
    Guarding settings past past' since base start world next := by
  refine ⟨hrest.clock.trans h.clock, h.reports.trans hrest.reports, fun hsound hevident => ?_,
    fun hsound hevident => hrest.evident (h.evident hsound hevident)⟩
  intro before hbefore after hafter
  obtain ⟨kept, hkept, hgrown⟩ := hrest.carried after hafter
  exact (h.grown hsound hevident before hbefore kept hkept).trans hgrown

/-- What leaves the position alone may follow what guards it. -/
theorem Guarding.steady (h : Guarding settings past past since base start world middle)
    (hrest : Steady middle next) : Guarding settings past past since base start world next :=
  h.watched hrest.watching

/-- A world that stays as it is guards its position. -/
theorem Guarding.stay (world : World) :
    Guarding settings past past since base start world world := by
  refine ⟨rfl, List.prefix_refl _, fun _ _ before hbefore after hafter => ?_, fun _ => id⟩
  rw [Option.mem_unique hbefore hafter]

/-- What is settled is guarded, when the pending orders are on one side. -/
theorem Settling.guarding {side : Side}
    (h : Settling start settings past since base side world next)
    (hsided : ∀ intent ∈ world.journal.unresolved, intent.side = side) :
    Guarding settings past past since base start world next := by
  refine ⟨h.clock, h.reports, fun hsound hevident before hbefore after hafter => ?_,
    fun hsound hevident => (h.kept ⟨hsound, hsided, hevident⟩).evident⟩
  have hcarried := h.carried ⟨hsound, hsided, hevident⟩
  rw [Option.mem_def.mp hbefore, Option.mem_def.mp hafter] at hcarried
  exact hcarried.grown

end Watching

section Reconciled

variable (env : Environment) {start : Journal} {settings : Settings} {past since : List Invocation}
  {base : ℕ} {world : World} {at_ : ℤ}

/-- The body of a reconciliation guards the position. -/
theorem reconcileBody_guards (hclock : world.clock = at_) (hbase : base ≤ world.reports.length) :
    Follows (Guarding settings past past since base start) (reconcileBody env at_) (fun _ _ => True)
      world := by
  refine Follows.read_bind (execute_journalPending world) (.stay world) fun pending h => ?_
  obtain ⟨rfl, hlength⟩ := Journal.pending_eq_ok h
  -- the pending orders are all on the side of the only one
  set side := (world.journal.unresolved.head?.map (·.side)).getD .bid with hside
  have hsided : ∀ intent ∈ world.journal.unresolved, intent.side = side := by
    intro intent hintent
    cases hpending : world.journal.unresolved with
    | nil => simp [hpending] at hintent
    | cons first rest =>
      rw [hpending, List.length_cons] at hlength
      obtain rfl : rest = [] := List.length_eq_zero_iff.mp (by omega)
      rw [hpending, List.mem_singleton] at hintent
      simp [hside, hpending, hintent]
  have hstay := refl_of (Settling start settings past since base side)
  refine Follows.weaken (S := Settling start settings past since base side)
    (P := fun _ _ => True) ?_ (fun _ h => h.guarding hsided) fun _ _ _ _ => trivial
  refine Follows.trans_bind (M := fun _ _ => True) ?_ fun _ reconciled _ _ => ?_
  · cases hpending : world.journal.unresolved with
    | nil => exact Follows.pure (hstay _) trivial
    | cons intent rest =>
      rw [hpending, List.length_cons] at hlength
      obtain rfl : rest = [] := List.length_eq_zero_iff.mp (by omega)
      refine Follows.trans_bind (reconcileIntent_settles env hclock hpending hbase)
        fun _ _ _ _ => ?_
      exact Follows.pure (hstay _) trivial
  refine Follows.trans_bind (Follows.monitored (request_monitors env.accounts reconciled))
    fun data asked _ _ => ?_
  refine Follows.read_bind (execute_lift _ _) (hstay _) fun accounts _ => ?_
  refine Follows.read_bind (execute_currentHealth asked) (hstay _) fun _ _ => ?_
  refine Follows.read_bind (execute_journalPending asked) (hstay _) fun _ _ => ?_
  refine Follows.read_bind (execute_journalState asked) (hstay _) fun _ h => ?_
  cases h
  cases asked.journal.state with
  | none => exact Follows.pure (hstay _) trivial
  | some state =>
    refine Follows.read_bind (execute_lift _ _) (hstay _) fun _ _ => ?_
    refine Follows.trans_bind (Follows.monitored (persistHealth_monitors env _ asked))
      fun _ _ _ _ => ?_
    exact Follows.pure (hstay _) trivial

/-- A reconciliation guards the position. -/
theorem reconcile_guards (hclock : world.clock = at_) (hbase : base ≤ world.reports.length) :
    Follows (Guarding settings past past since base start) (reconcile env at_) (fun _ _ => True)
      world := by
  refine Follows.recover (S := Guarding settings past past since base start) (T := Steady)
    (reconcileBody_guards env hclock hbase) (fun _ h => h)
    (fun _ _ h hrest => h.steady hrest) fun error rest failed hrest _ => ?_
  split at hrest
  · cases hrest
    refine Follows.trans_bind ((failure_monitors env error at_ failed).weaken
      (fun _ h => h.steady) fun _ _ _ _ => trivial) fun _ _ _ _ => ?_
    exact Follows.pure (refl_of Steady _) trivial
  · cases hrest

end Reconciled

/-! ## Submission and prices -/

section Submission

variable (env : Environment) (settings : Settings) {world : World} {at_ : ℤ}

/-- A counted access leaves the position alone. -/
theorem steady_accessed (world : World) (n : ℕ) : Steady world { world with accesses := n } :=
  (monitored_accessed world n).steady

/-- What follows the monitor leaves the position alone. -/
theorem Follows.steady {α : Type} {x : Process α} {post : α → World → Prop}
    (h : Follows Monitored x post world) : Follows Steady x post world :=
  h.weaken (fun _ hmonitored => hmonitored.steady) fun _ _ _ hpost => hpost

/-- A journal whose state has another monitor has the same position. -/
theorem committed_steady {change : Journal → Except LiveError Journal} {state : LiveState}
    (hstate : world.journal.state = some state)
    (hchange : ∀ journal, change world.journal = .ok journal →
      ∃ health, journal.state = some { state with health }) :
    Follows Steady (commit env change id)
      (fun _ next => ∃ health, next.journal.state = some { state with health }) world := by
  refine (commit_follows env (steady_accessed world) fun journal n h => ?_).weaken (fun _ h => h) ?_
  · obtain ⟨health, hjournal⟩ := hchange journal h
    exact ⟨by simp [Journal.position, hjournal, hstate], rfl, List.prefix_refl _⟩
  · rintro _ _ _ ⟨journal, n, h, rfl⟩
    exact hchange journal h

/-- A market order leaves the position alone until it is reported. -/
theorem placeMarket_steady (intent : LiveIntent) (world : World) :
    Follows Steady (placeMarket env intent)
      (fun _ next => next.journal = world.journal) world := by
  refine Follows.trans_bind (R := Steady) (M := fun _ next => next.journal = world.journal) ?_ ?_
  · refine follows_iff.mpr ⟨?_, fun e next h => by cases h⟩
    rintro _ _ h
    cases h
    exact ⟨⟨rfl, rfl, List.prefix_refl _⟩, rfl⟩
  rintro _ sent _ hsent
  refine Follows.read_bind (execute_lift _ _) (refl_of Steady _) fun _ _ => ?_
  refine Follows.read_bind (execute_lift _ _) (refl_of Steady _) fun _ _ => ?_
  refine Follows.trans_bind (Follows.steady (request_monitors env.placements sent))
    fun data answered _ hjournal => ?_
  refine Follows.read_bind (execute_lift _ _) (refl_of Steady _) fun result _ => ?_
  have hsame := hjournal.trans hsent
  split
  · refine Follows.read_bind (execute_lift _ _) (refl_of Steady _) fun _ _ => ?_
    exact Follows.pure (refl_of Steady _) hsame
  · refine Follows.read_bind (execute_lift _ _) (refl_of Steady _) fun _ _ => ?_
    exact Follows.pure (refl_of Steady _) hsame

/-- An intent that is sent leaves the position alone. -/
theorem sendIntent_steady {state : LiveState} (intent : LiveIntent)
    (hstate : world.journal.state = some state) :
    Follows Steady (sendIntent env state intent at_) (fun _ _ => True) world := by
  refine Follows.trans_bind (committed_steady env hstate fun journal h => ?_) ?_
  · obtain ⟨_, _, _, _, rfl⟩ := Journal.insert_eq_ok h
    exact ⟨_, rfl⟩
  rintro _ inserted _ ⟨health, hinserted⟩
  refine Follows.trans_bind (placeMarket_steady env intent inserted) fun acknowledgement placed _
    hjournal => ?_
  refine Follows.read_bind (execute_journalState placed) (refl_of Steady _) fun _ h => ?_
  cases h
  refine Follows.read_bind (execute_lift _ _) (refl_of Steady _) fun current hcurrent => ?_
  rw [require_eq_ok] at hcurrent
  refine (committed_steady env hcurrent fun journal h => ?_).weaken (fun _ h => h)
    fun _ _ _ _ => trivial
  obtain ⟨_, _, _, rfl⟩ := Journal.update_eq_ok h
  exact ⟨current.health, rfl⟩

/-- A submission leaves the position alone. -/
theorem submit_steady (trade : Trade) (price entryAtr : ℚ) (balances : Account × Account)
    (world : World) :
    Follows Steady (submit env settings trade price entryAtr at_ balances) (fun _ _ => True)
      world := by
  refine Follows.read_bind (execute_journalPending world) (refl_of Steady _) fun pending _ => ?_
  refine Follows.read_bind (execute_journalState world) (refl_of Steady _) fun _ h => ?_
  cases h
  cases hstate : world.journal.state with
  | none => exact Follows.pure (refl_of Steady _) trivial
  | some state =>
    simp only
    split
    · exact Follows.pure (refl_of Steady _) trivial
    · refine Follows.recover (S := Steady) (T := Steady) ?_ (fun _ h => h)
        (fun _ _ => trans_of Steady) ?_
      · refine Follows.trans_bind (Follows.steady (request_monitors env.chances world))
          fun data asked _ hjournal => ?_
        refine Follows.read_bind (execute_lift _ _) (refl_of Steady _) fun chance _ => ?_
        refine Follows.read_bind (execute_lift _ _) (refl_of Steady _) fun _ _ => ?_
        split
        · exact Follows.pure (refl_of Steady _) trivial
        · refine Follows.trans_bind (Follows.steady (access_monitors asked))
            fun n named _ hnamed => ?_
          exact sendIntent_steady env _ (by rw [hnamed, hjournal, hstate])
      · intro error rest failed hrest _
        split at hrest
        · cases hrest
          exact Follows.steady (failure_monitors env error at_ failed)
        · cases hrest

end Submission

end AutoBit.Live
