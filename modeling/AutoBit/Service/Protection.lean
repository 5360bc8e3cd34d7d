import AutoBit.Broker.Guard
import AutoBit.Service.Completions

/-!
# No unprotected position

The transaction of the fills is the only one that can enter a position, and it does not end
without a stop for it. Every other transaction of a cycle leaves the inventory and its stops
alone, or tightens the stops. So a position is guarded wherever the process stops.
-/

namespace AutoBit.Service

open Library Store Risk Data Strategy Broker

/-- The rates that `PaperBroker` accepts. -/
def ValidRates (costs : CostConfig) : Prop := 0 ≤ costs.feeRate ∧ 0 ≤ costs.slippageRate

/-- What keeps a guard. -/
def KeepsGuard (db db' : Database) : Prop := Guarded db → Guarded db'

instance : Std.Refl KeepsGuard := ⟨fun _ h => h⟩

instance : IsTrans Database KeepsGuard := ⟨fun _ _ _ h h' hguarded => h' (h hguarded)⟩

/-- What is recorded outside of trading is foreign to the broker. -/
theorem isForeign_of_isRecord {payload : Payload} (h : isRecord payload = true) :
    isForeign payload = true := by
  cases payload <;> simp_all [isRecord, isForeign]

/-- The records of a cycle keep the guard. -/
theorem records_keep : Records KeepsGuard :=
  fun _ _ _ _ _ hrecord happend hguarded => hguarded.record (isForeign_of_isRecord hrecord) happend

section Fills

variable {Cell : Type} {c : ServiceConfig Cell} (chances : Chances Cell)
  (end_ barAt : ℤ) (enriched : List TrendRow) (bar : Ohlcv ℚ)

/-- The stops that a cycle sets keep the guard. -/
theorem protects_keep {costs : CostConfig} (hrates : ValidRates costs) (barAt : ℤ) :
    Protects costs barAt KeepsGuard := by
  rintro db db' price activeAfter reason source stop hset ⟨a, hanchored, hguarded⟩
  obtain ⟨hheld, -⟩ := hanchored.sound.setStop_cases hrates.1 hrates.2 hset
  refine hanchored.setStop hrates.1 hrates.2 (fun hnone => ?_) hset
  exact absurd hnone (hguarded hheld)

/-- A prepared context that is bound keeps the guard. -/
theorem bindPrepared_keep (prepared : PreparedContexts) (order : PaperOrder) :
    Respects KeepsGuard (bindPrepared prepared order) :=
  bindPrepared_respects (fun _ _ _ _ _ hbound hguarded => hguarded.bindEntryContext hbound)
    prepared order

/-- A round of the fills leaves a guarded database entered. -/
theorem fillRound_entered (prepared : PreparedContexts) (progress : FillProgress)
    (order : PaperOrder) : Triple Guarded (fillRound barAt bar prepared progress order)
      (fun _ => Entered) fun _ => True := by
  refine Triple.lift_bind (fun _ _ => trivial) fun _ _ => ?_
  split
  · refine Triple.bind (Triple.of_respects (bindPrepared_keep prepared order)
      (fun _ _ hguarded hkeeps => hkeeps hguarded) fun _ _ _ _ => trivial) fun _ => ?_
    refine Triple.bind (triple_brokerCall (fun _ _ => trivial) fun db fill db' hguarded hopened =>
      hguarded.processOpen hopened) fun fill => ?_
    exact Triple.pure fun _ h => h
  · exact Triple.pure fun _ hguarded => hguarded.entered

/-- The only active order of an account is the only one that may be filled. -/
theorem fillRounds_entered (prepared : PreparedContexts) {orders : List PaperOrder}
    (horders : orders = [] ∨ ∃ order, orders = [order]) (progress : FillProgress) :
    Triple Guarded (orders.foldlM (fillRound barAt bar prepared) progress) (fun _ => Entered)
      fun _ => True := by
  rcases horders with rfl | ⟨order, rfl⟩
  · exact Triple.pure fun _ hguarded => hguarded.entered
  · rw [List.foldlM_cons]
    refine Triple.bind (fillRound_entered barAt bar prepared progress order) fun progress' => ?_
    rw [List.foldlM_nil]
    exact Triple.pure fun _ h => h

/-- A position that was just entered gets its initial stop. -/
theorem protectPosition_guarded (hrates : ValidRates c.brokerCosts) (entryFilled : Bool) :
    Triple Entered (protectPosition c chances barAt enriched entryFilled) (fun _ => Guarded)
      fun _ => True := by
  refine triple_read_bind (fun _ _ => trivial) fun db account hentered haccount => ?_
  obtain ⟨a, hanchored, hguarded⟩ := hentered
  have hsame : a.ledger db.events = account :=
    Except.ok.inj (hanchored.sound.ledger.symm.trans haccount)
  subst hsame
  split
  · rename_i hbare
    have hset : ∀ price activeAfter source, Triple (· = db) (fencedCycle (chances.runs .initialStop)
        (brokerCall fun db => Broker.setStop c.brokerCosts db barAt price activeAfter "HARD_STOP"
          source)) (fun _ => Guarded) fun _ => True := by
      intro price activeAfter source
      refine triple_fencedCycle (fun _ _ => trivial) (triple_brokerCall (fun _ _ => trivial) ?_)
      rintro _ stop db' rfl hstop
      exact hanchored.setStop hrates.1 hrates.2 (fun _ => rfl) hstop
    have hactive : (a.ledger db.events).activeStop = none := hbare.2.2
    have hensured : Triple (· = db) (ensureStop c barAt enriched (chances.runs .initialStop)
        (a.ledger db.events) (if entryFilled then some barAt else none) none) (fun _ => Guarded)
        fun _ => True := by
      refine triple_read_bind (fun _ _ => trivial) fun db' position hdb _ => ?_
      subst hdb
      dsimp only
      rw [hactive]
      exact Triple.bind (hset _ _ _) fun _ => Triple.pure fun _ h => h
    exact Triple.bind hensured fun _ => (triple_readDatabase reconcile).relax fun _ _ => trivial
  · rename_i hcovered
    refine Triple.pure ?_
    rintro _ rfl
    refine ⟨a, hanchored, fun hheld hnone => hcovered ⟨hheld, ?_, ?_⟩⟩
    · exact (hguarded hheld).resolve_left (not_not_intro hnone)
    · change a.stops.open_.getLast? = none
      rw [hnone]
      rfl

/-- A stop that is checked at a bar leaves the database guarded. -/
theorem stopOut_guarded (account : Ledger) :
    Triple Guarded (stopOut barAt bar account) (fun _ => Guarded) fun _ => True := by
  unfold stopOut
  split
  · exact triple_brokerCall (fun _ _ => trivial) fun db fill db' hguarded hstopped =>
      hguarded.processIntrabarStop hstopped
  · exact Triple.pure fun _ h => h

/-- The fills of a bar leave the database guarded. -/
theorem fillBar_guarded (hrates : ValidRates c.brokerCosts) (prepared : PreparedContexts) :
    Triple Guarded (fillBar c chances barAt enriched bar prepared) (fun _ => Guarded)
      fun _ => True := by
  refine triple_read_bind (fun _ _ => trivial) fun db account hguarded haccount => ?_
  have horders : account.activeOrders = [] ∨ ∃ order, account.activeOrders = [order] := by
    obtain ⟨a, hanchored, -⟩ := id hguarded
    obtain rfl := Except.ok.inj (hanchored.sound.ledger.symm.trans haccount)
    exact activeOrders_cases hanchored.sound.coherent.active
  have hfilled : Triple (· = db) (account.activeOrders.foldlM (fillRound barAt bar prepared) {})
      (fun _ => Entered) fun _ => True := by
    rintro _ rfl
    exact fillRounds_entered barAt bar prepared horders {} _ hguarded
  refine Triple.bind hfilled fun progress => ?_
  refine Triple.bind (Triple.of_respects (respects_fault (R := Eq) _ _) (fun _ _ h hsame => hsame ▸ h)
    fun _ _ _ _ => trivial) fun _ => ?_
  refine Triple.bind (protectPosition_guarded chances barAt enriched hrates _) fun account' => ?_
  exact Triple.bind (stopOut_guarded barAt bar account') fun stopFill => Triple.pure fun _ h => h

/-- The transaction of the fills does not end without a stop for the position that it enters. -/
theorem fillTransaction_guarded (hrates : ValidRates c.brokerCosts) (prepared : PreparedContexts) :
    Triple Guarded (fillTransaction c chances end_ barAt enriched bar prepared)
      (fun _ => Guarded) Guarded := by
  refine triple_fencedCycle (fun _ h => h) ?_
  have hread : ∀ {α : Type} (view : Database → Except Failure α),
      Triple Guarded (readDatabase view) (fun _ => Guarded) fun _ => True :=
    fun view => (triple_readDatabase view).relax fun _ _ => trivial
  refine Triple.bind (hread _) fun snapshot => ?_
  refine Triple.lift_bind (fun _ _ => trivial) fun _ _ => Triple.bind (hread _) fun completed => ?_
  split
  · exact Triple.pure fun _ h => h
  · exact Triple.bind (fillBar_guarded chances barAt enriched bar hrates prepared) fun filled =>
      Triple.pure fun _ h => h

/-- The guard is kept along a cycle. -/
theorem along_keepsGuard (hrates : ValidRates c.brokerCosts) : Along c KeepsGuard where
  records := records_keep
  completes := fun _ _ _ _ _ happend hguarded => hguarded.record rfl happend
  observes := fun _ _ _ _ _ hobserved hguarded => hguarded.observePosition hobserved
  protects := protects_keep hrates
  entry := fun _ _ _ _ _ _ hsubmitted hguarded =>
    hguarded.submitEntry hrates.1 hrates.2 (by decide) hsubmitted
  exit := fun _ _ _ _ _ _ _ hsubmitted hguarded =>
    hguarded.submitExit hrates.1 hrates.2 hsubmitted
  fills := by
    intro chances end_ barAt enriched bar prepared db hguarded
    exact (fillTransaction_guarded chances end_ barAt enriched bar hrates prepared).leaves hguarded

end Fills

/-! ## Runs -/

section Runs

variable {Cell : Type} [DecidableEq Cell] {db : Database}

/-- The calls of services whose brokers accept their rates. -/
def Rated (_ : Database) (c : ServiceConfig Cell) (_ : Chances Cell) (_ : ℤ) : Prop :=
  ValidRates c.brokerCosts

/-- A step of the service leaves the database guarded. -/
theorem guarded_step {db' : Database} (h : Guarded db)
    (hstep : ServiceStep (@Rated Cell) db db') : Guarded db' := by
  cases hstep with
  | @cycle c chances end_ hrates =>
    exact (along_keepsGuard hrates).processCompletedCandle chances end_ db h
  | recorded event happend =>
    exact h.record (isForeign_of_isRecord (isRecord_of_isOperational event.operational)) happend

/-- Every run of the service leaves the database guarded. -/
theorem guarded_of_run (hrun : Relation.ReflTransGen (ServiceStep (@Rated Cell)) {} db) :
    Guarded db := by
  induction hrun with
  | refl => exact guarded_empty
  | tail _ hstep ih => exact guarded_step ih hstep

/-- Wherever a run of the service stops, the verifier accepts its ledger, and an active stop of
the open entry, at least as tight as its initial one, guards the position that it holds. -/
theorem position_is_protected (hrun : Relation.ReflTransGen (ServiceStep (@Rated Cell)) {} db) :
    ∃ ledger, buildLedger db = .ok ledger ∧
      (0 < ledger.snapshot.btcQuantity → ∃ stop initial,
        ledger.activeStop = some stop ∧ openEntryIdentity ledger = .ok stop.sourceId ∧
        0 < stop.stopPrice ∧ initialStop ledger stop.sourceId = some initial ∧
        initial ≤ stop.stopPrice) ∧
      (ledger.snapshot.btcQuantity = 0 → ledger.activeStop = none) :=
  (guarded_of_run hrun).active

/-- The breakout is bought, and its position ends the cycle behind a stop. -/
theorem position_is_protected_breakout : ∃ ledger, buildLedger filledCycle.2 = .ok ledger ∧
    0 < ledger.snapshot.btcQuantity ∧ ∃ stop, ledger.activeStop = some stop ∧
      0 < stop.stopPrice := by
  have hrates : ValidRates shortService.brokerCosts := by
    unfold ValidRates
    decide +kernel
  have hrun : Relation.ReflTransGen (ServiceStep (@Rated ℤ)) {} filledCycle.2 :=
    .tail (.tail .refl (.cycle (c := shortService) hrates)) (.cycle hrates)
  obtain ⟨ledger, hledger, hheld, -⟩ := position_is_protected hrun
  have hbought : (buildLedger filledCycle.2).toOption.any (0 < ·.snapshot.btcQuantity) = true := by
    decide +kernel
  rw [hledger] at hbought
  have hpositive : 0 < ledger.snapshot.btcQuantity := of_decide_eq_true hbought
  obtain ⟨stop, _, hactive, -, hstop, -⟩ := hheld hpositive
  exact ⟨ledger, hledger, hpositive, stop, hactive, hstop⟩

end Runs

end AutoBit.Service
