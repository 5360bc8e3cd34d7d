import AutoBit.Live.Steps

/-!
# The calls follow the steps

Every computation of the service follows the steps of a run, whatever the environment answers
and wherever it ends. One lemma for each computation says along which steps it goes.
-/

namespace AutoBit.Live

open Library Health Risk Strategy Relation

/-! ## Reading and writing -/

section Basics

variable (env : Environment) {world next : World}

/-- Quiet steps leave the clock alone. -/
theorem Reaches.clock (h : Reaches world next) : next.clock = world.clock := by
  induction h with
  | refl => rfl
  | tail _ hstep ih => exact hstep.clock.trans ih

/-- Quiet steps only add reports. -/
theorem Reaches.reports (h : Reaches world next) : world.reports <+: next.reports := by
  induction h with
  | refl => exact List.prefix_refl _
  | tail _ hstep ih => exact ih.trans hstep.reports

/-- Quiet steps send nothing. -/
theorem Reaches.sends (h : Reaches world next) : next.sends = world.sends := by
  induction h with
  | refl => rfl
  | tail _ hstep ih => exact hstep.sends.trans ih

/-- Quiet steps hand nothing over. -/
theorem Reaches.handed (h : Reaches world next) : next.handed = world.handed := by
  induction h with
  | refl => rfl
  | tail _ hstep ih => exact hstep.handed.trans ih

/-- An access changes nothing else. -/
theorem reaches_accessed (world : World) (n : ℕ) : Reaches world { world with accesses := n } :=
  .single ⟨.inl rfl, rfl, rfl, List.prefix_refl _, rfl⟩

/-- A report changes nothing else. -/
theorem reaches_reported (world : World) (actual : VenueOrder) :
    Reaches world { world with reports := world.reports ++ [actual] } :=
  .single ⟨.inl rfl, rfl, rfl, List.prefix_append _ _, rfl⟩

/-- A step of the journal is a quiet step. -/
theorem reaches_written {journal : Journal} (n : ℕ)
    (h : JournalStep world.reports world.clock world.journal journal) :
    Reaches world { world with accesses := n, journal } :=
  .single ⟨.inr h, rfl, rfl, List.prefix_refl _, rfl⟩

/-- The state is read from the journal. -/
theorem execute_journalState (world : World) :
    execute journalState world = (.ok world.journal.state, world) := rfl

/-- The pending intents are read from the journal. -/
theorem execute_journalPending (world : World) :
    execute journalPending world = (world.journal.pending, world) := rfl

/-- The monitor is read from the journal, or new. -/
theorem execute_currentHealth (world : World) :
    execute currentHealth world = (.ok ((world.journal.state.map (·.health)).getD {}), world) := rfl

/-- An access is counted. -/
theorem execute_access (world : World) :
    execute access world = (.ok world.accesses, { world with accesses := world.accesses + 1 }) := rfl

/-- The first pending intent is the only one. -/
theorem firstPending_follows (world : World) : Follows Reaches firstPending
    (fun intent next => next = world ∧ world.journal.unresolved = [intent]) world := by
  refine Follows.read_bind (execute_journalPending world) (refl_of Reaches _) fun pending h => ?_
  obtain ⟨rfl, hlength⟩ := Journal.pending_eq_ok h
  refine Follows.read (execute_lift _ _) (refl_of Reaches _) fun intent hintent => ⟨rfl, ?_⟩
  rw [require_eq_ok] at hintent
  obtain ⟨rest, hrest⟩ := List.head?_eq_some_iff.mp hintent
  rw [hrest] at hlength ⊢
  rw [List.length_eq_zero_iff.mp (Nat.le_zero.mp (Nat.le_of_succ_le_succ hlength))]

/-- An access is a quiet step. -/
theorem access_follows (world : World) :
    Follows Reaches access (fun _ next => next.journal = world.journal) world := by
  refine follows_iff.mpr ⟨?_, ?_⟩
  · intro n next h
    rw [execute_access] at h
    cases h
    exact ⟨reaches_accessed world _, rfl⟩
  · intro e next h
    rw [execute_access] at h
    cases h

/-- A request is a quiet step. -/
theorem request_follows {α : Type} (answers : ℕ → Response α) (world : World) :
    Follows Reaches (request answers) (fun _ next => next.journal = world.journal) world := by
  refine Follows.trans_bind (access_follows world) fun n next _ hjournal => ?_
  exact Follows.read (execute_lift _ _) (refl_of Reaches _) fun _ _ => hjournal

/-- A transaction of the journal is done, or nothing changes. -/
theorem commit_follows {R : World → World → Prop} {change : Journal → Except LiveError Journal}
    {record : World → World} (hstay : ∀ n, R world { world with accesses := n })
    (hdone : ∀ journal n, change world.journal = .ok journal →
      R world (record { world with accesses := n, journal })) :
    Follows R (commit env change record) (fun _ next => ∃ journal n,
      change world.journal = .ok journal ∧
        next = record { world with accesses := n, journal }) world := by
  refine Follows.read_bind (execute_get world) (hstay world.accesses) fun _ hget => ?_
  cases hget
  refine Follows.read_bind (execute_lift _ _) (hstay world.accesses) fun journal hchange => ?_
  have hrun : execute (do
      let n ← access
      modify fun world =>
        if (env.fates n).isDurable then record { world with journal } else world
      liftM (env.fates n).outcome : Process Unit) world =
      ((env.fates world.accesses).outcome,
        if (env.fates world.accesses).isDurable then
          record { world with accesses := world.accesses + 1, journal }
        else { world with accesses := world.accesses + 1 }) := rfl
  refine follows_iff.mpr ?_
  rw [hrun]
  have hwritten := hdone journal (world.accesses + 1) hchange
  have hrefused := hstay (world.accesses + 1)
  cases env.fates world.accesses with
  | committed =>
    refine ⟨?_, fun e next h => by cases h⟩
    rintro _ _ h
    cases h
    exact ⟨hwritten, journal, _, hchange, rfl⟩
  | refused message =>
    refine ⟨fun _ next h => (by cases h), ?_⟩
    rintro _ _ h
    cases h
    exact hrefused
  | crashedBefore =>
    refine ⟨fun _ next h => (by cases h), ?_⟩
    rintro _ _ h
    cases h
    exact hrefused
  | crashedAfter =>
    refine ⟨fun _ next h => (by cases h), ?_⟩
    rintro _ _ h
    cases h
    exact hwritten

/-- A change of the journal that is a step of it. -/
theorem journal_follows {change : Journal → Except LiveError Journal}
    (hstep : ∀ journal, change world.journal = .ok journal →
      JournalStep world.reports world.clock world.journal journal) :
    Follows Reaches (commit env change id)
      (fun _ next => change world.journal = .ok next.journal) world := by
  refine (commit_follows env (reaches_accessed world) fun journal n h =>
    reaches_written n (hstep journal h)).weaken (fun _ h => h) ?_
  rintro _ _ _ ⟨journal, n, hchange, rfl⟩
  exact hchange

/-- The state is saved with another monitor or another protection. -/
theorem saveState_follows {state other : LiveState} (hstate : world.journal.state = some state)
    (hagrees : state.Agrees other) : Follows Reaches (saveState env other)
      (fun _ next => validateState other = .ok () ∧
        next.journal = { world.journal with state := some other }) world := by
  refine (journal_follows env fun journal h => ?_).weaken (fun _ h => h)
    fun _ _ _ h => Journal.write_eq_ok h
  obtain ⟨hvalid, rfl⟩ := Journal.write_eq_ok h
  exact .observed hstate hagrees hvalid

/-- A state agrees with itself. -/
theorem LiveState.Agrees.refl (state : LiveState) : state.Agrees state :=
  ⟨rfl, rfl, rfl, rfl, rfl, rfl⟩

/-- A monitor that is saved is a quiet step. -/
theorem persistHealth_follows (health : HealthSnapshot) (world : World) :
    Follows Reaches (persistHealth env health)
      (fun _ next => match world.journal.state with
        | some state => validateState { state with health } = .ok () ∧
          next.journal = { world.journal with state := some { state with health } }
        | none => next.journal = world.journal) world := by
  refine Follows.read_bind (execute_journalState world) (refl_of Reaches _) fun _ h => ?_
  cases h
  cases hstate : world.journal.state with
  | none => exact Follows.pure (refl_of Reaches _) rfl
  | some state => exact saveState_follows env hstate ⟨rfl, rfl, rfl, rfl, rfl, rfl⟩

/-- A failed request takes quiet steps. -/
theorem failure_follows (error : LiveError) (at_ : ℤ) (world : World) :
    Follows Reaches (failure env error at_) (fun _ _ => True) world := by
  refine Follows.read_bind (execute_currentHealth world) (refl_of Reaches _) fun _ _ => ?_
  refine Follows.read_bind (execute_journalPending world) (refl_of Reaches _) fun _ _ => ?_
  exact (persistHealth_follows env _ world).weaken (fun _ h => h) fun _ _ _ _ => trivial

end Basics

/-! ## Reconciliation -/

section Reconciliation

variable (env : Environment) {world next : World} {at_ : ℤ}

/-- An order that is returned is recorded as reported, and consistent. -/
theorem getOrder_follows (identifier : String) (world : World) :
    Follows Reaches (getOrder env identifier)
      (fun actual next => next.journal = world.journal ∧ actual ∈ next.reports ∧
        actual.Consistent) world := by
  refine Follows.trans_bind (request_follows env.orders world) fun data next _ hjournal => ?_
  refine Follows.read_bind (execute_lift _ _) (refl_of Reaches _) fun actual hactual => ?_
  refine Follows.trans_bind (M := fun _ last =>
      last = { next with reports := next.reports ++ [actual] }) ?_ ?_
  · refine follows_iff.mpr ⟨?_, fun e last h => by cases h⟩
    rintro _ _ h
    cases h
    exact ⟨reaches_reported next actual, rfl⟩
  · rintro _ _ _ rfl
    refine Follows.pure (refl_of Reaches _) ⟨hjournal, ?_, (order_consistent hactual).2⟩
    exact List.mem_append_right _ (List.mem_singleton.mpr rfl)

/-- A cancellation is a quiet step. -/
theorem cancelOrder_follows (identifier : String) (world : World) :
    Follows Reaches (cancelOrder env identifier)
      (fun _ next => next.journal = world.journal) world := by
  refine Follows.trans_bind (request_follows env.cancels world) fun data next _ hjournal => ?_
  exact Follows.read (execute_lift _ _) (refl_of Reaches _) fun _ _ => hjournal

/-- A reported order is applied by quiet steps. -/
theorem applyOrder_follows {intent : LiveIntent} {actual : VenueOrder} (hclock : world.clock = at_)
    (hpending : world.journal.unresolved = [intent]) (hreported : actual ∈ world.reports)
    (hconsistent : actual.Consistent) :
    Follows Reaches (applyOrder env intent actual at_) (fun _ _ => True) world := by
  subst hclock
  refine Follows.read_bind (execute_journalState world) (refl_of Reaches _) fun _ h => ?_
  cases h
  refine Follows.read_bind (execute_lift _ _) (refl_of Reaches _) fun state hstate => ?_
  rw [require_eq_ok] at hstate
  refine Follows.read_bind (execute_lift _ _) (refl_of Reaches _) fun settled hsettled => ?_
  refine (journal_follows env fun journal hupdate => ?_).weaken (fun _ h => h)
    fun _ _ _ _ => trivial
  exact .settled hstate hpending hreported hconsistent hsettled hupdate

/-- A remainder is canceled by quiet steps. -/
theorem cancelRemainder_follows (identifier : String) (hclock : world.clock = at_) :
    Follows Reaches (cancelRemainder env identifier at_) (fun _ _ => True) world := by
  refine Follows.trans_bind (firstPending_follows world) ?_
  rintro updated _ _ ⟨rfl, hupdated⟩
  refine Follows.read_bind (execute_journalState _) (refl_of Reaches _) fun _ h => ?_
  cases h
  refine Follows.read_bind (execute_lift _ _) (refl_of Reaches _) fun state hstate => ?_
  rw [require_eq_ok] at hstate
  refine Follows.trans_bind (journal_follows env fun journal h =>
    JournalStep.marked hstate hupdated h) fun _ marked hmarked _ => ?_
  refine Follows.trans_bind (cancelOrder_follows env identifier marked) fun _ cancelled hcancelled
    _ => ?_
  refine Follows.trans_bind (firstPending_follows cancelled) ?_
  rintro current _ _ ⟨rfl, hcurrent⟩
  refine Follows.trans_bind (getOrder_follows env identifier _) ?_
  rintro actual last hlast ⟨hjournal, hreported, hconsistent⟩
  refine applyOrder_follows env ?_ (hjournal ▸ hcurrent) hreported hconsistent
  rw [hlast.clock, hcancelled.clock, hmarked.clock, hclock]

/-- An intent is reconciled by quiet steps. -/
theorem reconcileIntent_follows {intent : LiveIntent} (hclock : world.clock = at_)
    (hpending : world.journal.unresolved = [intent]) :
    Follows Reaches (reconcileIntent env at_ intent) (fun _ _ => True) world := by
  refine Follows.trans_bind (getOrder_follows env intent.identifier world) ?_
  rintro actual found hfound ⟨hjournal, hreported, hconsistent⟩
  have hfoundClock : found.clock = at_ := hfound.clock.trans hclock
  refine Follows.trans_bind (applyOrder_follows env hfoundClock (hjournal ▸ hpending) hreported
    hconsistent) fun _ applied happlied _ => ?_
  split
  · exact cancelRemainder_follows env _ (happlied.clock.trans hfoundClock)
  · exact Follows.pure (refl_of Reaches _) trivial

/-- What the accounts hold is not negative. -/
def Account.Sound (account : Account) : Prop := 0 ≤ account.balance ∧ 0 ≤ account.total

/-- What is read of an account is sound. -/
theorem account_sound {data : RawAccount} {expected : Option String} {read : Account}
    (h : account data expected = .ok read) : read.Sound := by
  simp only [account, Except.bind_eq_ok, reject_eq_ok, require_eq_ok, Except.pure_eq_ok] at h
  obtain ⟨_, _, _, _, balance, hbalance, locked, hlocked, rfl⟩ := h
  have hbalance := (decimal_eq_ok hbalance).1
  exact ⟨hbalance, add_nonneg hbalance (decimal_eq_ok hlocked).1⟩

/-- The balances of sound accounts are sound. -/
theorem balancesOf_sound {accounts : List Account} (h : ∀ account ∈ accounts, account.Sound) :
    (balancesOf accounts).1.Sound ∧ (balancesOf accounts).2.Sound := by
  have hbalance : ∀ currency, ((accounts.find? fun account => account.currency = currency).getD
      ⟨currency, 0, 0⟩).Sound := by
    intro currency
    cases hfound : accounts.find? fun account => account.currency = currency with
    | none => exact ⟨le_refl _, by simp [Account.total]⟩
    | some account => exact h account (List.mem_of_find?_eq_some hfound)
  exact ⟨hbalance "KRW", hbalance "BTC"⟩

/-- The body of a reconciliation takes quiet steps and returns sound balances. -/
theorem reconcileBody_follows (hclock : world.clock = at_) :
    Follows Reaches (reconcileBody env at_) (fun balances _ => ∀ found ∈ balances,
      found.1.Sound ∧ found.2.Sound) world := by
  refine Follows.read_bind (execute_journalPending world) (refl_of Reaches _) fun pending h => ?_
  obtain ⟨rfl, hlength⟩ := Journal.pending_eq_ok h
  refine Follows.trans_bind (M := fun _ _ => True) ?_ fun _ reconciled _ _ => ?_
  · cases hpending : world.journal.unresolved with
    | nil => exact Follows.pure (refl_of Reaches _) trivial
    | cons intent rest =>
      rw [hpending] at hlength
      obtain rfl := List.length_eq_zero_iff.mp (Nat.le_zero.mp (Nat.le_of_succ_le_succ hlength))
      refine Follows.trans_bind (reconcileIntent_follows env hclock hpending) fun _ _ _ _ => ?_
      exact Follows.pure (refl_of Reaches _) trivial
  refine Follows.trans_bind (request_follows env.accounts reconciled) fun data asked _ _ => ?_
  refine Follows.read_bind (execute_lift _ _) (refl_of Reaches _) fun accounts haccounts => ?_
  have hsound : ∀ read ∈ accounts, read.Sound := by
    simp only [readAccounts, Except.bind_eq_ok, reject_eq_ok, Except.pure_eq_ok] at haccounts
    obtain ⟨found, hfound, _, _, rfl⟩ := haccounts
    intro read hread
    obtain ⟨item, _, hitem⟩ := forall₂_exists_left (mapM_eq_ok.mp hfound) hread
    exact account_sound hitem
  refine Follows.read_bind (execute_currentHealth asked) (refl_of Reaches _) fun _ _ => ?_
  refine Follows.read_bind (execute_journalPending asked) (refl_of Reaches _) fun _ _ => ?_
  refine Follows.read_bind (execute_journalState asked) (refl_of Reaches _) fun _ h => ?_
  cases h
  cases asked.journal.state with
  | none =>
    refine Follows.pure (refl_of Reaches _) ?_
    rintro _ ⟨⟩
    exact balancesOf_sound hsound
  | some state =>
    refine Follows.read_bind (execute_lift _ _) (refl_of Reaches _) fun _ _ => ?_
    refine Follows.trans_bind (persistHealth_follows env _ asked) fun _ _ _ _ => ?_
    refine Follows.pure (refl_of Reaches _) ?_
    rintro _ ⟨⟩
    exact balancesOf_sound hsound

/-- The balances that a reconciliation returns are sound. -/
theorem reconcile_follows (hclock : world.clock = at_) :
    Follows Reaches (reconcile env at_) (fun balances _ => ∀ found ∈ balances,
      found.1.Sound ∧ found.2.Sound) world := by
  refine Follows.recover (reconcileBody_follows env hclock) (fun _ h => h)
    (fun _ _ => trans_of Reaches) fun error rest failed hrest _ => ?_
  split at hrest
  · cases hrest
    refine Follows.trans_bind (failure_follows env error at_ failed) fun _ _ _ _ => ?_
    exact Follows.pure (refl_of Reaches _) (by simp)
  · cases hrest

end Reconciliation

/-! ## Submission -/

section Submission

variable (env : Environment) (settings : Settings) {world next : World} {at_ : ℤ}

/-- One submission is a submission among quiet steps. -/
theorem Submitted.single (h : Submits world next) : Submitted world next :=
  .submitted (refl_of Reaches world) h (refl_of Reaches next)

/-- After a submission, quiet steps stay within the call. -/
theorem Follows.submitted {α : Type} {x : Process α} {post : α → World → Prop} {middle : World}
    (h : Follows Reaches x post middle) (hsubmitted : Submitted world middle) :
    Follows (fun _ => Submitted world) x post middle :=
  h.weaken (fun _ hnext => hsubmitted.after hnext) fun _ _ _ hpost => hpost

/-- After the order was sent, the answer is only read. -/
theorem placeMarket_follows {intent : LiveIntent}
    (hsent : Submitted world { next with sends := next.sends ++
      [⟨intent.identifier, intent.side, intent.amount, next.journal⟩] }) :
    Follows (fun _ => Submitted world) (placeMarket env intent)
      (fun _ last => last.journal = next.journal ∧
        Reaches { next with sends := next.sends ++
          [⟨intent.identifier, intent.side, intent.amount, next.journal⟩] } last) next := by
  set sent : World := { next with sends := next.sends ++
    [⟨intent.identifier, intent.side, intent.amount, next.journal⟩] } with hsentWorld
  refine Follows.bind (S := fun _ => Submitted world) (M := fun _ last => last = sent) ?_
    (fun _ h => h) (fun _ _ _ h => h) ?_
  · refine follows_iff.mpr ⟨?_, fun e last h => by cases h⟩
    rintro _ _ h
    cases h
    exact ⟨hsent, rfl⟩
  rintro _ _ _ rfl
  refine Follows.submitted (Follows.weaken (S := Reaches)
    (P := fun _ last => last.journal = next.journal) ?_ (fun _ h => h)
    fun _ _ hreaches hjournal => ⟨hjournal, hreaches⟩) hsent
  refine Follows.read_bind (execute_lift _ _) (refl_of Reaches _) fun _ _ => ?_
  refine Follows.read_bind (execute_lift _ _) (refl_of Reaches _) fun _ _ => ?_
  refine Follows.trans_bind (request_follows env.placements sent) fun data answered _ hjournal => ?_
  refine Follows.read_bind (execute_lift _ _) (refl_of Reaches _) fun result _ => ?_
  split
  · refine Follows.read_bind (execute_lift _ _) (refl_of Reaches _) fun _ _ => ?_
    exact Follows.pure (refl_of Reaches _) hjournal
  · refine Follows.read_bind (execute_lift _ _) (refl_of Reaches _) fun _ _ => ?_
    exact Follows.pure (refl_of Reaches _) hjournal

/-- An intent that is committed is the pending one, and may be sent. -/
theorem sendIntent_follows {state : LiveState} {identifier : String} {side : Side}
    {amount price entryAtr initialAtrMult : ℚ} (hclock : world.clock = at_)
    (hstate : world.journal.state = some state) :
    Follows Submitted (sendIntent env state {
      identifier, side, amount, referencePrice := price, entryAtr, initialAtrMult
      createdAt := at_ } at_) (fun _ _ => True) world := by
  subst hclock
  set intent : LiveIntent := {
    identifier, side, amount, referencePrice := price, entryAtr, initialAtrMult
    createdAt := world.clock } with hintent
  have hagrees : ∀ health, state.Agrees { state with health } := fun _ => ⟨rfl, rfl, rfl, rfl, rfl, rfl⟩
  refine Follows.bind (S := Submitted) (T := fun _ => Submitted world)
    (commit_follows env (fun n => .quiet (reaches_accessed world n)) fun journal n h => ?_)
    (fun _ h => h) (fun _ _ _ h => h) ?_
  · exact Submitted.single ⟨⟨state, _, identifier, side, amount, price, entryAtr, initialAtrMult,
      hstate, hagrees _, h, .inl rfl⟩, rfl, rfl, rfl⟩
  rintro _ _ _ ⟨journal, n, hinsert, rfl⟩
  have hpending : journal.unresolved = [intent] := by
    obtain ⟨_, _, hnone, _, rfl⟩ := Journal.insert_eq_ok hinsert
    simp only [Journal.unresolved] at hnone
    simp [Journal.unresolved, hnone, hintent]
  have hstored : ∃ stored, journal.state = some stored := by
    obtain ⟨_, _, _, _, rfl⟩ := Journal.insert_eq_ok hinsert
    exact ⟨_, rfl⟩
  obtain ⟨stored, hstored⟩ := hstored
  set inserted : World := { world with accesses := n, journal } with hinserted
  have hsent : Submitted world { inserted with sends := inserted.sends ++
      [⟨identifier, side, amount, inserted.journal⟩] } :=
    Submitted.single ⟨⟨state, _, identifier, side, amount, price, entryAtr, initialAtrMult,
      hstate, hagrees _, hinsert, .inr rfl⟩, rfl, rfl, rfl⟩
  refine Follows.bind (T := fun _ => Submitted world) (placeMarket_follows env hsent)
    (fun _ h => h) (fun _ _ _ h => h) ?_
  rintro acknowledgement placed _ ⟨hjournal, hplaced⟩
  refine Follows.submitted (Follows.weaken (S := Reaches) (P := fun _ _ => True) ?_
    (fun _ h => h) fun _ _ _ _ => trivial) (hsent.after hplaced)
  refine Follows.read_bind (execute_journalState placed) (refl_of Reaches _) fun _ h => ?_
  cases h
  refine Follows.read_bind (execute_lift _ _) (refl_of Reaches _) fun current hcurrent => ?_
  rw [require_eq_ok] at hcurrent
  refine (journal_follows env fun journal' h => ?_).weaken (fun _ h => h) fun _ _ _ _ => trivial
  exact JournalStep.marked hcurrent (hjournal ▸ hpending) h

/-- A submission takes quiet steps around at most one intent. -/
theorem submit_follows {trade : Trade} {price entryAtr : ℚ} {balances : Account × Account}
    (hclock : world.clock = at_) :
    Follows Submitted (submit env settings trade price entryAtr at_ balances) (fun _ _ => True)
      world := by
  have hstay : Submitted world world := .quiet (refl_of Reaches _)
  refine Follows.read_bind (execute_journalPending world) hstay fun pending _ => ?_
  refine Follows.read_bind (execute_journalState world) hstay fun _ h => ?_
  cases h
  cases hstate : world.journal.state with
  | none => exact Follows.pure hstay trivial
  | some state =>
    simp only
    split
    · exact Follows.pure hstay trivial
    · refine Follows.recover (S := Submitted) (T := Reaches) ?_ (fun _ h => h)
        (fun _ _ h hrest => h.after hrest) ?_
      · refine Follows.bind (S := Reaches) (T := Submitted) (request_follows env.chances world)
          (fun _ h => .quiet h) (fun _ _ h hrest => hrest.before h) fun data asked hasked
          hjournal => ?_
        have hstayed : Submitted asked asked := .quiet (refl_of Reaches _)
        refine Follows.read_bind (execute_lift _ _) hstayed fun chance _ => ?_
        refine Follows.read_bind (execute_lift _ _) hstayed fun _ _ => ?_
        split
        · exact Follows.pure hstayed trivial
        · refine Follows.bind (S := Reaches) (T := Submitted) (access_follows asked)
            (fun _ h => .quiet h) (fun _ _ h hrest => hrest.before h) fun n named hnamed
            hnamedJournal => ?_
          refine sendIntent_follows env ?_ ?_
          · rw [hnamed.clock, hasked.clock, hclock]
          · rw [hnamedJournal, hjournal, hstate]
      · intro error rest failed hrest _
        split at hrest
        · cases hrest
          exact failure_follows env error at_ failed
        · cases hrest

end Submission

/-! ## Prices -/

/-- An activated stop leaves the holding of a position alone. -/
@[simp] theorem activate_holding (position : LivePosition) (at_ : ℤ) :
    (activate position at_).holding = position.holding := by
  unfold activate
  split
  · split <;> rfl
  · rfl

section Prices

variable (env : Environment) (settings : Settings) {world : World} {at_ : ℤ}

/-- A protected price takes quiet steps with at most one submission. -/
theorem protectAt_follows {state : LiveState} {price : ℚ} {balances : Option (Account × Account)}
    (hclock : world.clock = at_) (hstate : world.journal.state = some state) :
    Follows Submitted (protectAt env settings state price at_ balances) (fun _ _ => True)
      world := by
  unfold protectAt
  extract_lets position rest
  have hrest : ∀ {middle : World}, middle.clock = at_ →
      Follows Submitted (rest ⟨⟩) (fun _ _ => True) middle := by
    intro middle hmiddle
    have hstay : Submitted middle middle := .quiet (refl_of Reaches _)
    simp only [rest]
    generalize position = held
    split
    · split
      · exact submit_follows env settings hmiddle
      · exact Follows.pure hstay trivial
    · exact Follows.pure hstay trivial
  split
  · refine Follows.bind (S := Reaches) (saveState_follows env hstate ?_) (fun _ h => .quiet h)
      (fun _ _ h hlast => hlast.before h) fun _ saved hsaved _ => hrest (hsaved.clock.trans hclock)
    refine ⟨rfl, ?_, rfl, rfl, rfl, rfl⟩
    simp only [position, Option.map_map]
    congr 1
    funext held
    exact activate_holding held at_
  · exact hrest hclock

/-- A price submits at most once. -/
theorem onPrice_follows (observed : Reading) (world : World) :
    Follows Submitted (onPrice env settings observed) (fun _ _ => True) world := by
  have hstay : ∀ middle, Submitted middle middle := fun _ => .quiet (refl_of Reaches _)
  refine Follows.read_bind (execute_get world) (hstay world) fun _ h => ?_
  cases h
  refine Follows.bind (S := Reaches) (T := Submitted) (reconcile_follows env rfl)
    (fun _ h => .quiet h) (fun _ _ h hlast => hlast.before h) fun balances reconciled hreconciled
    _ => ?_
  refine Follows.read_bind (execute_journalState _) (hstay reconciled) fun _ h => ?_
  cases h
  have hpersist : ∀ health, Follows Submitted (persistHealth env health) (fun _ _ => True)
      reconciled := fun health =>
    (persistHealth_follows env health reconciled).weaken (fun _ h => .quiet h) fun _ _ _ _ => trivial
  cases hstate : reconciled.journal.state with
  | none => exact Follows.pure (hstay reconciled) trivial
  | some state =>
    simp only
    split
    · split
      · exact protectAt_follows env settings hreconciled.clock hstate
      · exact hpersist _
    · exact hpersist _

end Prices

end AutoBit.Live
