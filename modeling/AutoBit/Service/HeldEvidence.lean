import AutoBit.Broker.Observations
import AutoBit.Service.HeldCandles

/-!
# The evidence of a held position

Whatever a cycle does and wherever it stops, the observations in the log hold highs of the
candle history and the first hard stop of their entry. A cycle that is processed with an open
position leaves an observation of its bar, and hands the engine the position of that
observation. With the chain that the ledger accepts this is the whole history of the position.
-/

namespace AutoBit.Service

open Library Store Risk Data Strategy Broker

/-! ## Exact observations -/

section Recorded

variable {history : CandleHistory} {log block : List StoredEvent} {db db' db'' : Database}
  {id : PaperId}

/-- Every observation in a log holds highs of a history, and the first hard stop of its
entry. -/
def Recorded (history : CandleHistory) (log : List StoredEvent) : Prop :=
  ∀ event ∈ view readPosition log,
    (∀ candle ∈ event.body.candleHighs,
      canonicalHigh history (nanoseconds candle.1) = .number candle.2) ∧
    firstHardStop log event.body.orderId = some event.body.initialStop

/-- What leaves the observations exact when they are. -/
def Keeps (history : CandleHistory) (db db' : Database) : Prop :=
  Recorded history db.events → Recorded history db'.events

instance : Std.Refl (Keeps history) := ⟨fun _ h => h⟩

instance : IsTrans Database (Keeps history) := ⟨fun _ _ _ h h' hrecorded => h' (h hrecorded)⟩

/-- What appends no fill and leaves the observations exact. -/
def Observes (history : CandleHistory) (db db' : Database) : Prop :=
  Keeps history db db' ∧ Grows (readFill · = none) db db'

/-- The first hard stop of an entry stays the first in a longer log. -/
theorem firstHardStop_append {price : ℚ} (h : firstHardStop log id = some price) :
    firstHardStop (log ++ block) id = some price := by
  obtain ⟨stop, hstop, rfl⟩ := Option.map_eq_some_iff.mp h
  rw [firstHardStop, view_append, List.find?_append, hstop]
  rfl

/-- A log that grows without observations leaves them exact. -/
theorem keeps_of_grows (h : Grows Unobserved db db') : Keeps history db db' := by
  intro hrecorded event hevent
  rw [h.view_eq fun _ hkind => hkind] at hevent
  obtain ⟨hhighs, hstop⟩ := hrecorded event hevent
  obtain ⟨block, hevents, -⟩ := h
  rw [hevents]
  exact ⟨hhighs, firstHardStop_append hstop⟩

/-- The completion of a cycle is quiet. -/
theorem completes_quiet (db db' : Database) (eventId : EventId) (occurredAt : ℤ)
    (completion : CycleCompletion)
    (h : appendEvent db eventId occurredAt (.paperCycle completion) = .ok db') :
    Grows Quiet db db' := grows_of_appendEvent h ⟨rfl, rfl⟩

/-- The stops that a cycle sets are quiet. -/
theorem protects_quiet (costs : CostConfig) (barAt : ℤ) : Protects costs barAt (Grows Quiet) := by
  intro db db' price activeAfter reason source stop h
  refine (setStop_grows h).mono ?_
  rintro payload ⟨set, rfl⟩
  exact ⟨rfl, rfl⟩

/-- The stops that a cycle sets are no observations. -/
theorem protects_unobserved (costs : CostConfig) (barAt : ℤ) :
    Protects costs barAt (Grows Unobserved) :=
  fun db db' price activeAfter reason source stop h =>
    (protects_quiet costs barAt db db' price activeAfter reason source stop h).mono
      fun _ => Quiet.unobserved

/-- The orders that a cycle places are quiet. -/
theorem orders_quiet (costs : CostConfig) (barAt : ℤ) (decision : Decision) :
    Orders costs barAt decision (Grows Quiet) where
  entry := fun _ _ _ _ _ _ _ h => (submitEntry_grows h).mono fun _ hplaced =>
    quiet_of_isPlacement _ hplaced.1
  exit := fun _ _ _ _ _ _ h => (submitExit_grows h).mono fun _ hplaced =>
    quiet_of_isPlacement _ hplaced.1

/-- The fills of a bar are no observations. -/
theorem fills_unobserved (barAt : ℤ) : Fills barAt (Grows Unobserved) where
  bind := fun _ _ _ _ _ h => (bindEntryContext_grows h).mono fun _ hplaced =>
    readPosition_of_isTrade (isTrade_of_isPlacement hplaced.1)
  open_ := fun _ _ _ _ _ h => (processOpen_grows h).mono fun _ htrade =>
    readPosition_of_isTrade htrade.1
  stop := fun _ _ _ _ _ h => (processIntrabarStop_grows h).mono fun _ htrade =>
    readPosition_of_isTrade htrade.1

/-- A log that grows by quiet payloads leaves the observations exact. -/
theorem keeps_of_quiet (h : Grows Quiet db db') : Keeps history db db' :=
  keeps_of_grows (h.mono fun _ => Quiet.unobserved)

/-- A log that grows by quiet payloads gets no fill and leaves the observations exact. -/
theorem observes_of_quiet (h : Grows Quiet db db') : Observes history db db' :=
  ⟨keeps_of_quiet h, h.mono fun _ hquiet => hquiet.1⟩

/-- Two stretches that append no fill and leave the observations exact do so together. -/
theorem Observes.trans (h : Observes history db db') (h' : Observes history db' db'') :
    Observes history db db'' :=
  ⟨fun hrecorded => h'.1 (h.1 hrecorded), h.2.trans h'.2⟩

instance : IsTrans Database (Observes history) := ⟨fun _ _ _ => Observes.trans⟩

/-- A quiet log adds no observation of an entry. -/
theorem observationsOf_grows (h : Grows Quiet db db') :
    observationsOf db'.events id = observationsOf db.events id := by
  rw [observationsOf, observationsOf, h.view_eq fun _ hkind => hkind.2]

/-- One more observation is exact, and the last of its entry. -/
theorem observePosition_observes {candles : List (ℤ × ℚ)} {initialStop : ℚ} {barAt : ℤ}
    (h : observePosition db id candles initialStop = .ok db') (hends : EndsAt history barAt candles)
    (hstop : Recorded history db.events → firstHardStop db.events id = some initialStop) :
    Observes history db db' ∧ ∃ last, (observationsOf db'.events id).getLast? = some last ∧
      last.occurredAtUtc = barAt := by
  obtain ⟨ledger, last, fill, highWater, -, hlast, -, happended, -⟩ := observePosition_appended h
  obtain ⟨event, hview, rfl, htime, rfl, rfl⟩ : ∃ event : Stamped PositionObservation,
      view readPosition db'.events = view readPosition db.events ++ [event] ∧
      event.body.orderId = id ∧ event.occurredAtUtc = last.1 ∧
      event.body.initialStop = initialStop ∧ event.body.candleHighs = candles := by
    rw [happended.events, view_append]
    exact ⟨_, rfl, rfl, rfl, rfl, rfl⟩
  refine ⟨⟨?_, grows_of_appended happended rfl⟩, event, ?_, htime.trans (hends.last last hlast)⟩
  · intro hrecorded other hother
    have hfirst := hstop hrecorded
    rw [hview] at hother
    rw [happended.events]
    rcases List.mem_append.mp hother with hold | hnew
    · obtain ⟨hhighs, hbefore⟩ := hrecorded other hold
      exact ⟨hhighs, firstHardStop_append hbefore⟩
    · obtain rfl := List.mem_singleton.mp hnew
      exact ⟨hends.highs, firstHardStop_append hfirst⟩
  · rw [observationsOf, hview, List.filter_append]
    simp

end Recorded

/-! ## The open entry -/

section Entry

variable {account account' : Ledger} {entry : PaperFill}

/-- The open entry depends on the fills and on the inventory only. -/
theorem openEntry_congr (hfills : account'.fills = account.fills)
    (hbtc : account'.snapshot.btcQuantity = account.snapshot.btcQuantity) :
    openEntry account' = openEntry account := by
  rw [openEntry, openEntry, hfills, hbtc]

/-- The entry that a round leaves open was open before it or is one of its buys. -/
theorem entryRound_open {fills : List PaperFill} {scan scan' : EntryScan}
    (h : fills.foldlM entryRound scan = .ok scan') (hentry : scan'.openEntry = some entry) :
    scan.openEntry = some entry ∨ entry ∈ fills ∧ entry.side = .buy := by
  induction fills generalizing scan with
  | nil =>
    cases h
    exact Or.inl hentry
  | cons fill fills ih =>
    rw [List.foldlM_cons, Except.bind_eq_ok] at h
    obtain ⟨middle, hround, hrest⟩ := h
    rcases ih hrest with hmiddle | ⟨hmem, hbuy⟩
    · unfold entryRound at hround
      split at hround
      · rename_i hside
        simp only [Except.bind_eq_ok, Except.pure_eq_ok] at hround
        obtain ⟨_, -, rfl⟩ := hround
        obtain rfl : fill = entry := by simpa using hmiddle
        exact Or.inr ⟨by simp, hside⟩
      · simp only [Except.bind_eq_ok, Except.pure_eq_ok] at hround
        obtain ⟨_, -, rfl⟩ := hround
        dsimp only at hmiddle
        split at hmiddle
        · cases hmiddle
        · exact Or.inl hmiddle
    · exact Or.inr ⟨List.mem_cons_of_mem _ hmem, hbuy⟩

/-- The open entry is a purchase of the ledger. -/
theorem openEntry_mem (h : openEntry account = .ok entry) :
    entry ∈ account.fills ∧ entry.side = .buy := by
  simp only [openEntry, Except.bind_eq_ok, require_eq_ok, Except.pure_eq_ok] at h
  obtain ⟨_, -, scan, hscan, found, hfound, _, -, rfl⟩ := h
  rcases entryRound_open hscan hfound with hnone | hmem
  · cases hnone
  · exact hmem

end Entry

/-! ## The observation of a cycle -/

section Cycle

variable {Cell : Type} [DecidableEq Cell] (c : ServiceConfig Cell) (chances : Chances Cell)
  {history : CandleHistory} {barAt : ℤ} {enriched : List TrendRow} {account : Ledger}
  {db : Database}

/-- The stop that an observation repeats is the first hard stop of its entry. -/
theorem observedInitialStop_eq_ok {entry : PaperFill}
    {observation : Option (Stamped PositionObservation)} {initial : ℚ}
    (h : observedInitialStop entry observation db = .ok initial)
    (hmem : ∀ before ∈ observation, before ∈ view readPosition db.events ∧
      before.body.orderId = entry.orderId) (hrecorded : Recorded history db.events) :
    firstHardStop db.events entry.orderId = some initial := by
  cases observation with
  | some before =>
    cases h
    obtain ⟨hbefore, hid⟩ := hmem before rfl
    rw [← hid]
    exact (hrecorded before hbefore).2
  | none =>
    simp only [observedInitialStop, brokerInitialStop, Except.bind_eq_ok, require_eq_ok,
      Except.pure_eq_ok] at h
    obtain ⟨recorded, ⟨ledger, hledger, rfl⟩, hinitial⟩ := h
    rw [initialStop, events_of_ledger hledger] at hinitial
    exact hinitial

/-- The observation of a cycle leaves one of its bar for the open entry. -/
theorem observeHeldPosition_follows (hsource : Deterministic c.pd history chances.source)
    (hreads : Reads history enriched) (hbar : IsBoundary barAt) :
    Follows (Observes history) (observeHeldPosition c chances barAt enriched account)
      (fun _ db' => ∃ entry, openEntry account = .ok entry ∧
        ∃ last, (observationsOf db'.events entry.orderId).getLast? = some last ∧
          last.occurredAtUtc = barAt) db := by
  have hsame : ∀ db', Observes history db' db' := fun db' => observes_of_quiet (Grows.refl db')
  refine Follows.read_bind (execute_lift _ _) (hsame db) fun entry hentry => ?_
  refine Follows.read_bind (execute_readDatabase _ _) (hsame db) fun observation hobservation => ?_
  have hlast : observation = (observationsOf db.events entry.orderId).getLast? := by
    simp only [positionObservation, Except.bind_eq_ok, Except.pure_eq_ok] at hobservation
    obtain ⟨ledger, hbuilt, rfl⟩ := hobservation
    rw [latestObservation, (observations_of_ledger hbuilt).1, observationsOf]
  dsimp only
  split
  · rename_i hlate
    refine Follows.read (execute_lift _ _) (hsame db) fun _ hahead => ?_
    obtain ⟨before, hbefore, hle⟩ := hlate
    have hahead := reject_eq_ok.mp hahead
    refine ⟨entry, hentry, before, hlast ▸ hbefore, le_antisymm ?_ hle⟩
    by_contra hlt
    exact hahead ⟨before, hbefore, not_le.mp hlt⟩
  · refine Follows.bind (heldCandles_follows c chances hsource hreads hbar _ db)
      (fun _ h => observes_of_quiet h) (fun _ _ h h' => (observes_of_quiet h).trans h')
      fun rows db₁ hquiet hends => ?_
    refine Follows.read_bind (execute_readDatabase _ _) (hsame db₁) fun initial hinitial => ?_
    have hobserved : ∀ before ∈ observation, before ∈ view readPosition db₁.events ∧
        before.body.orderId = entry.orderId := by
      intro before hbefore
      rw [hlast, ← observationsOf_grows hquiet] at hbefore
      have hmem := List.mem_of_getLast? hbefore
      obtain ⟨hview, hid⟩ := List.mem_filter.mp hmem
      exact ⟨hview, of_decide_eq_true hid⟩
    have hstop : Recorded history db₁.events →
        firstHardStop db₁.events entry.orderId = some initial :=
      observedInitialStop_eq_ok hinitial hobserved
    refine Follows.trans_bind (M := fun _ db' =>
      ∃ last, (observationsOf db'.events entry.orderId).getLast? = some last ∧
        last.occurredAtUtc = barAt) (Follows.transaction (hsame db₁) ?_) fun _ db₂ _ hend => ?_
    · refine Triple.lift_bind (fun _ _ => trivial) fun _ _ => ?_
      rintro db₁ rfl
      refine ⟨?_, fun _ _ _ => trivial⟩
      rintro ⟨⟩ db₂ hresult
      cases hobserve : observePosition db₁ entry.orderId (candleHighs rows) initial with
      | error e =>
        rw [execute_brokerUpdate_error hobserve] at hresult
        cases hresult
      | ok after =>
        rw [execute_brokerUpdate_ok hobserve] at hresult
        cases hresult
        exact observePosition_observes hobserve hends hstop
    · exact Follows.read (execute_fault _ _ _) (hsame db₂) fun _ _ => ⟨entry, hentry, hend⟩

/-- A position that is held at a bar is observed at it. -/
theorem observeIfHeld_follows (hsource : Deterministic c.pd history chances.source)
    (hreads : Reads history enriched) (hbar : IsBoundary barAt) :
    Follows (Observes history) (observeIfHeld c chances barAt enriched account)
      (fun _ db' => 0 < account.snapshot.btcQuantity → ∃ entry, openEntry account = .ok entry ∧
        ∃ last, (observationsOf db'.events entry.orderId).getLast? = some last ∧
          last.occurredAtUtc = barAt) db := by
  unfold observeIfHeld
  split
  · exact (observeHeldPosition_follows c chances hsource hreads hbar).weaken (fun _ h => h)
      fun _ _ _ hobserved _ => hobserved
  · rename_i hflat
    exact Follows.pure (observes_of_quiet (Grows.refl db)) fun hopen => absurd hopen hflat

/-! ## The decision of a cycle -/

/-- The position for the engine is the one of an observation of the bar. -/
theorem decisionPosition_of_observed {config : IndicatorConfig} {position : Option PositionContext}
    (h : decisionPosition config db account enriched barAt = .ok position)
    (hopen : 0 < account.snapshot.btcQuantity) {entry : PaperFill}
    (hentry : openEntry account = .ok entry) {last : Stamped PositionObservation}
    (hlast : (observationsOf db.events entry.orderId).getLast? = some last)
    (htime : last.occurredAtUtc = barAt) :
    ∃ context, position = some context ∧ context.highWater = last.body.highWater ∧
      context.heldBars = heldBars barAt entry.fillTime := by
  simp only [decisionPosition, if_pos hopen, Except.bind_eq_ok, Except.pure_eq_ok] at h
  obtain ⟨found, hfound, rfl⟩ := h
  simp only [openPosition, Except.bind_eq_ok, hentry, Except.ok.injEq] at hfound
  obtain ⟨_, rfl, order, horder, observation, hobservation, hfound⟩ := hfound
  simp only [orderById, Except.bind_eq_ok, require_eq_ok] at horder
  obtain ⟨_, -, _, -, horder⟩ := horder
  simp only [positionObservation, Except.bind_eq_ok, Except.pure_eq_ok] at hobservation
  obtain ⟨ledger, hledger, rfl⟩ := hobservation
  have hobserved : latestObservation ledger.positionObservations order.orderId = some last := by
    rw [latestObservation, (observations_of_ledger hledger).1, (findPaperOrder_some horder).2]
    exact hlast
  rw [hobserved] at hfound
  simp only [Option.filter_some, htime, decide_true, if_true] at hfound
  cases hfound
  exact ⟨_, rfl, rfl, rfl⟩

/-- The engine was handed the position of an observation of the bar, which is the last one of
the open entry. -/
def HandsObserved (barAt : ℤ) (outcome : Outcome) (db : Database) : Prop :=
  ∀ ledger, buildLedger db = .ok ledger → 0 < ledger.snapshot.btcQuantity →
    ∃ entry handed position last, openEntry ledger = .ok entry ∧ outcome.handed = some handed ∧
      handed.position = some position ∧
      (observationsOf db.events entry.orderId).getLast? = some last ∧
      last.occurredAtUtc = barAt ∧ position.highWater = last.body.highWater ∧
      position.heldBars = heldBars barAt entry.fillTime

/-- The close of a bar leaves the observations exact and hands the strategy the last one. -/
theorem closeBar_follows (hsource : Deterministic c.pd history chances.source)
    (hreads : Reads history enriched) (hbar : IsBoundary barAt) (end_ : ℤ) (bar : Ohlcv ℚ)
    (row : TrendRow) (filled : List PaperId) :
    Follows (Keeps history) (closeBar c chances end_ barAt enriched bar row filled)
      (HandsObserved barAt) db := by
  have hsame : ∀ db', Keeps history db' db' := fun db' => refl_of (Keeps history) db'
  have hquiet : ∀ {x y z : Database}, Grows Quiet x y → Keeps history y z → Keeps history x z :=
    fun h h' => trans_of (Keeps history) (keeps_of_quiet h) h'
  refine Follows.read_bind (execute_readDatabase _ _) (hsame db) fun account haccount => ?_
  refine Follows.bind (observeIfHeld_follows c chances hsource hreads hbar) (fun _ h => h.1)
    (fun _ _ h h' => trans_of (Keeps history) h.1 h') fun _ db₁ hobserves hobserved => ?_
  refine Follows.read_bind (execute_lift _ _) (hsame db₁) fun equity _ => ?_
  refine Follows.bind (Follows.of_respects (riskDecision_respects (records_quiet.atBar _) _ _ _))
    (fun _ => keeps_of_quiet) (fun _ _ => hquiet) fun risk db₂ hrisk _ => ?_
  refine Follows.read_bind (execute_readDatabase _ _) (hsame db₂) fun account' haccount' => ?_
  refine Follows.read_bind (execute_readDatabase _ _) (hsame db₂) fun position hposition => ?_
  dsimp only
  refine Follows.bind (Follows.of_respects (carryOut_respects c chances barAt enriched
    (protects_quiet _ _) row account' position (orders_quiet _ _ _))) (fun _ => keeps_of_quiet)
    (fun _ _ => hquiet) fun created db₃ hcarried _ => ?_
  refine Follows.bind (Follows.of_respects (recordCompletion_respects chances completes_quiet _))
    (fun _ => keeps_of_quiet) (fun _ _ => hquiet) fun _ db₄ hcompleted _ => ?_
  refine Follows.pure (hsame db₄) ?_
  intro ledger hledger hopen
  -- no fill was appended since the account was read
  have hlater : Grows Quiet db₂ db₄ := hcarried.trans hcompleted
  obtain ⟨block, hevents, hkind⟩ := hobserves.2.trans (hrisk.mono fun _ h => h.1)
  have hsecond := fills_grown haccount haccount' hevents
    (List.filterMap_eq_nil_iff.mpr fun e he => by simp [stamp, hkind e he])
  obtain ⟨block', hevents', hkind'⟩ := hlater
  have hlast := fills_grown haccount' hledger hevents'
    (List.filterMap_eq_nil_iff.mpr fun e he => by simp [stamp, (hkind' e he).1])
  rw [hlast.2, hsecond.2] at hopen
  obtain ⟨entry, hentry, last, hobservation, htime⟩ := hobserved hopen
  have hentry' := (openEntry_congr hsecond.1 hsecond.2).trans hentry
  rw [← observationsOf_grows hrisk] at hobservation
  obtain ⟨context, rfl, hhighWater, hheld⟩ := decisionPosition_of_observed hposition
    (hsecond.2 ▸ hopen) hentry' hobservation htime
  rw [← observationsOf_grows ⟨block', hevents', hkind'⟩] at hobservation
  exact ⟨entry, _, context, last, (openEntry_congr hlast.1 hlast.2).trans hentry', rfl, rfl,
    hobservation, htime, hhighWater, hheld⟩

/-! ## The whole cycle -/

/-- What is known after a cycle that is processed. -/
def Exact (end_ : ℤ) (outcome : Outcome) (db : Database) : Prop :=
  outcome.result.status = .processed → HandsObserved (end_ - fourHours) outcome db

variable {end_ : ℤ}

/-- A call whose lease is lost leaves the observations exact. -/
theorem resultAfterLostLease_follows :
    Follows (Keeps history) (resultAfterLostLease end_) (Exact end_) db := by
  refine Follows.read_bind (execute_readDatabase _ _) (refl_of _ db) fun completed _ => ?_
  refine Follows.pure (refl_of _ db) ?_
  intro hprocessed
  cases completed <;> cases hprocessed

omit [DecidableEq Cell] in
/-- An unsafe cycle leaves the observations exact. -/
theorem completeUnsafe_follows :
    Follows (Keeps history) (completeUnsafe chances end_) (Exact end_) db := by
  refine Follows.read_bind (execute_readDatabase _ _) (refl_of _ db) fun account _ => ?_
  refine Follows.read_bind (execute_readDatabase _ _) (refl_of _ db) fun snapshot _ => ?_
  refine Follows.read_bind (execute_lift _ _) (refl_of _ db) fun _ _ => ?_
  refine Follows.trans_bind (Follows.of_respects ((recordCompletion_respects chances
    completes_quiet _).mono fun _ _ => keeps_of_quiet)) fun _ db' _ _ => ?_
  exact Follows.pure (refl_of _ db') fun hprocessed => by cases hprocessed

/-- A call whose cycle was processed before leaves the observations exact. -/
theorem alreadyProcessed_follows : Follows (Keeps history)
    (pure (alreadyProcessed end_) : Stateful Failure Database Outcome) (Exact end_) db :=
  Follows.pure (refl_of _ db) fun hprocessed => by cases hprocessed

/-- A cycle over its window leaves the observations exact and hands over the last one. -/
theorem processWindow_follows (hsource : Deterministic c.pd history chances.source)
    (hreads : Reads history enriched) (hend : IsBoundary end_) :
    Follows (Keeps history) (processWindow c chances end_ enriched) (Exact end_) db := by
  unfold processWindow
  split
  · exact completeUnsafe_follows chances
  · rename_i row bar _
    refine Follows.trans_bind (Follows.of_respects ((prepareLegacyEntryContexts_respects c chances _
      (records_quiet.atBar _)).mono fun _ _ => keeps_of_quiet)) fun prepared db₁ _ _ => ?_
    split
    · exact resultAfterLostLease_follows
    · refine Follows.read_bind (execute_readDatabase _ _) (refl_of _ db₁) fun completed _ => ?_
      split
      · exact alreadyProcessed_follows
      · refine Follows.trans_bind (Follows.of_respects ((fillTransaction_respects c chances end_ _
          enriched bar (fills_unobserved _) (protects_unobserved _ _) prepared).mono
          fun _ _ => keeps_of_grows)) fun filled db₂ _ _ => ?_
        split
        · exact alreadyProcessed_follows
        · exact (closeBar_follows c chances hsource hreads hend.sub_fourHours end_ bar row
            _).weaken (fun _ h => h) fun _ _ _ hexact _ => hexact

/-- A call that holds the lease leaves the observations exact and hands over the last one. -/
theorem leasedCycle_follows (hsource : Deterministic c.pd history chances.source)
    (hend : IsBoundary end_) :
    Follows (Keeps history) (leasedCycle c chances end_) (Exact end_) db := by
  refine Follows.read_bind (execute_readDatabase _ _) (refl_of _ db) fun evidence _ => ?_
  obtain ⟨completed, attempted⟩ := evidence
  dsimp only
  split
  · exact alreadyProcessed_follows
  · refine Follows.read_bind (execute_lift _ _) (refl_of _ db) fun _ _ => ?_
    refine Follows.trans_bind (Follows.of_respects ((recordAttempt_respects chances end_
      records_quiet attempted).mono fun _ _ => keeps_of_quiet)) fun _ db₁ _ _ => ?_
    refine Follows.read_bind (execute_fault _ _ _) (refl_of _ db₁) fun _ _ => ?_
    refine Follows.bind (load_follows _ db₁) (fun _ => keeps_of_quiet)
      (fun _ _ h h' => trans_of _ (keeps_of_quiet h) h') fun raw db₂ _ hraw => ?_
    refine Follows.read_bind (execute_lift _ _) (refl_of _ db₂) fun quality hquality => ?_
    have hreads := reads_of_shows (hsource.completed end_ raw hraw) hquality c.kernels c.strategy
    split
    · exact resultAfterLostLease_follows
    · refine Follows.read_bind (execute_readDatabase _ _) (refl_of _ db₂) fun completed _ => ?_
      split
      · exact alreadyProcessed_follows
      · exact processWindow_follows c chances hsource hreads hend

/-- However a cycle ends, it leaves the observations exact, and a processed one hands the
engine the observation of its bar. -/
theorem processCompletedCandle_follows (hsource : Deterministic c.pd history chances.source) :
    Follows (Keeps history) (processCompletedCandle c chances end_) (Exact end_) db := by
  refine Follows.read_bind (execute_lift _ _) (refl_of _ db) fun _ hboundary => ?_
  have hend : IsBoundary end_ := not_not.mp (reject_eq_ok.mp hboundary)
  refine Follows.read_bind (execute_lift _ _) (refl_of _ db) fun _ _ => ?_
  refine Follows.read_bind (execute_readDatabase _ _) (refl_of _ db) fun evidence _ => ?_
  obtain ⟨completed, attempted⟩ := evidence
  dsimp only
  split
  · exact alreadyProcessed_follows
  · refine Follows.read_bind (execute_lift _ _) (refl_of _ db) fun _ _ => ?_
    split
    · exact Follows.pure (refl_of _ db) fun hprocessed => by cases hprocessed
    · refine Follows.recover (leasedCycle_follows c chances hsource hend) (fun _ h => h)
        (fun _ _ h h' => trans_of _ h h') fun e rest db' hrest _ => ?_
      cases e <;> cases hrest
      exact resultAfterLostLease_follows

end Cycle

/-! ## Runs of the service -/

section Runs

variable {Cell : Type} [DecidableEq Cell] {pd : Pandas Cell} {history : CandleHistory}
  {start db db' : Database}

/-- The calls that see one candle history. -/
def Sees (pd : Pandas Cell) (history : CandleHistory) (_ : Database) (c : ServiceConfig Cell)
    (chances : Chances Cell) (_ : ℤ) : Prop :=
  c.pd = pd ∧ Deterministic pd history chances.source

/-- A step of the service that sees one candle history leaves the observations exact. -/
theorem ServiceStep.keeps (h : ServiceStep (Sees pd history) db db') : Keeps history db db' := by
  cases h with
  | @cycle c chances end_ hsees =>
    obtain ⟨rfl, hsource⟩ := hsees
    exact (processCompletedCandle_follows c chances hsource).leaves
  | recorded event happend =>
    exact keeps_of_quiet (grows_of_appendEvent happend (quiet_of_isRecord _ (isRecord_of_isOperational event.operational)))

/-- Every run leaves the observations exact. -/
theorem recorded_of_run (h : Relation.ReflTransGen (ServiceStep (Sees pd history)) start db)
    (hstart : view readPosition start.events = []) : Recorded history db.events := by
  induction h with
  | refl =>
    intro event hevent
    rw [hstart] at hevent
    cases hevent
  | tail _ hstep ih => exact hstep.keeps ih

/-- The evidence of a held position: one chain of observations over the bars from its entry
on, with the highs of the history, whose last one is what the engine is handed. -/
structure HeldEvidence (history : CandleHistory) (log : List StoredEvent) (entry : PaperFill)
    (barAt : ℤ) (handed : DecisionInput) : Prop where
  linked : Linked none (observationsOf log entry.orderId)
  bars : (candlesOf (observationsOf log entry.orderId)).map Prod.fst =
    barsBetween entry.fillTime barAt
  highs : ∀ candle ∈ candlesOf (observationsOf log entry.orderId),
    canonicalHigh history (nanoseconds candle.1) = .number candle.2
  last : ∃ last position, (observationsOf log entry.orderId).getLast? = some last ∧
    handed.position = some position ∧ last.occurredAtUtc = barAt ∧
    IsGreatest {high | high ∈ (candlesOf (observationsOf log entry.orderId)).map Prod.snd}
      last.body.highWater ∧
    firstHardStop log entry.orderId = some last.body.initialStop ∧
    position.highWater = last.body.highWater ∧
    position.heldBars * fourHours = barAt - entry.fillTime

/-- After any run of the service and a cycle that is processed with an open position, the
evidence of that position is exact. -/
theorem held_evidence_exact (hstart : view readPosition start.events = [])
    (hrun : Relation.ReflTransGen (ServiceStep (Sees pd history)) start db) (c : ServiceConfig Cell)
    (hpd : c.pd = pd) (chances : Chances Cell)
    (hsource : Deterministic pd history chances.source) (end_ : ℤ) {outcome : Outcome}
    (hcycle : execute (processCompletedCandle c chances end_) db = (.ok outcome, db'))
    (hprocessed : outcome.result.status = .processed) {ledger : Ledger}
    (hledger : buildLedger db' = .ok ledger) (hopen : 0 < ledger.snapshot.btcQuantity) :
    ∃ entry handed, openEntry ledger = .ok entry ∧ outcome.handed = some handed ∧
      HeldEvidence history db'.events entry (end_ - fourHours) handed := by
  subst hpd
  have hfollows : Follows (Keeps history) (processCompletedCandle c chances end_) (Exact end_) db :=
    processCompletedCandle_follows c chances hsource
  obtain ⟨hkeeps, hexact⟩ := (follows_iff.mp hfollows).1 outcome db' hcycle
  have hrecorded : Recorded history db'.events := hkeeps (recorded_of_run hrun hstart)
  obtain ⟨entry, handed, position, last, hentry, hhanded, hposition, hlast, htime, hhighWater,
    hheld⟩ := hexact hprocessed ledger hledger hopen
  obtain ⟨hmem, hside⟩ := openEntry_mem hentry
  obtain ⟨hlinked, ⟨k, hk⟩, hbars, hgreatest⟩ := chain_of_ledger hledger hmem hside hlast
  have hview : ∀ event ∈ observationsOf db'.events entry.orderId,
      event ∈ view readPosition db'.events ∧ event.body.orderId = entry.orderId := by
    intro event hevent
    obtain ⟨hevent, hid⟩ := List.mem_filter.mp hevent
    exact ⟨hevent, of_decide_eq_true hid⟩
  refine ⟨entry, handed, hentry, hhanded, hlinked, ?_, ?_, last, position, hlast, hposition, htime,
    hgreatest, ?_, hhighWater, ?_⟩
  · rw [← htime]
    exact hbars
  · intro candle hcandle
    obtain ⟨event, hevent, hcandle⟩ := List.mem_flatMap.mp hcandle
    exact (hrecorded event (hview event hevent).1).1 candle hcandle
  · obtain ⟨hevent, hid⟩ := hview last (List.mem_of_getLast? hlast)
    rw [← hid]
    exact (hrecorded last hevent).2
  · rw [htime] at hk
    rw [hheld, heldBars, hk, add_sub_cancel_left, Int.mul_tdiv_cancel _ (by decide)]

end Runs

/-! ## Two bars -/

/-- Bars of one price at some times. -/
def calmBars (times : List ℤ) : RawFrame ℤ where
  columns := ohlcvColumns
  rows := times.map fun time => (.time time, [1000, 1010, 990, 1000, 1])
  aligned := by
    intro row hrow
    obtain ⟨time, -, rfl⟩ := List.mem_map.mp hrow
    rfl

/-- The history of bars of one price. -/
def calmHistory (times : List ℤ) : CandleHistory := fun time =>
  if time ∈ times then some ⟨.number 1000, .number 1010, .number 990, .number 1000, .number 1⟩
  else none

/-- The calm bars show the history of calm candles. -/
theorem shows_calmBars (times : List ℤ) :
    Shows wholeNumbers (calmHistory times) (calmBars times) := by
  constructor
  · intro row hrow time bar hread
    obtain ⟨instant, hinstant, rfl⟩ := List.mem_map.mp hrow
    obtain ⟨rfl, rfl⟩ := Prod.mk.inj (Option.some.inj hread)
    exact if_pos hinstant
  · intro _ _ _ _ _ _ _ _ time _ _ hknown
    have htime : time ∈ times := by
      by_contra hother
      exact hknown (if_neg hother)
    refine ⟨(.time time, [1000, 1010, 990, 1000, 1]), ?_, rfl⟩
    exact List.mem_map_of_mem (f := fun time : ℤ => (Stamp.time time, [1000, 1010, 990, 1000, 1]))
      htime

/-- A service with short indicators. -/
def shortService : ServiceConfig ℤ where
  pd := wholeNumbers
  kernels := shortKernels
  strategy := { emaPeriod := 3, entryPeriod := 1, exitPeriod := 1, atrPeriod := 1, warmupBars := 1 }
  risk := {}
  costs := {}
  brokerCosts := {}

/-- A call that stops at one point or nowhere, ten minutes after its end. -/
def callAt (end_ : ℤ) (stop : Option CyclePoint) (frame : RawFrame ℤ) : Chances ℤ where
  now := end_ + maturityDelay
  acquires := true
  renews := fun _ => true
  runs := fun point => stop ≠ some point
  source := ⟨fun _ => ⟨[], .ok frame⟩, none⟩

/-- A call that is given the calm bars sees the history of calm candles. -/
theorem sees_calmBars (db : Database) (end_ : ℤ) (stop : Option CyclePoint) (times : List ℤ) :
    Sees wholeNumbers (calmHistory times) db shortService (callAt end_ stop (calmBars times)) end_ := by
  refine ⟨rfl, ?_, ?_⟩
  · intro end_ raw hraw
    cases hraw
    exact shows_calmBars times
  · intro loader hloader
    cases hloader

/-- The times of four bars. -/
def fourTimes : List ℤ := [0, frequency, 2 * frequency, 3 * frequency]

/-- A ledger with an accepted entry and no observations. -/
def enteredDatabase : Database :=
  ((submitEntry {} {} (hours 4) (1 / 1000) "ENTRY" none).toOption.map Prod.snd).getD {}

/-- The ledger after a cycle over those bars. -/
def calmCycle (db : Database) (end_ : ℤ) (stop : Option CyclePoint) :
    Except Failure Outcome × Database :=
  execute (processCompletedCandle shortService (callAt end_ stop (calmBars fourTimes)) end_) db

/-- The cycle in which the entry is filled, which stops once its bar is observed, and runs again. -/
def filledTwice : Database :=
  (calmCycle (calmCycle enteredDatabase (hours 12) (some .afterPosition)).2 (hours 12) none).2

/-- The next cycle. -/
def secondBar : Except Failure Outcome × Database := calmCycle filledTwice (hours 16) none

/-- The evidence of a position over two bars, the first of which ran twice. -/
theorem held_evidence_exact_second_bar : ∃ outcome ledger entry handed,
    secondBar.1 = .ok outcome ∧ buildLedger secondBar.2 = .ok ledger ∧ openEntry ledger = .ok entry ∧
      outcome.handed = some handed ∧
      HeldEvidence (calmHistory fourTimes) secondBar.2.events entry (hours 12) handed := by
  have hrun : Relation.ReflTransGen (ServiceStep (Sees wholeNumbers (calmHistory fourTimes)))
      enteredDatabase filledTwice :=
    .tail (.tail .refl (.cycle (sees_calmBars _ _ _ fourTimes)))
      (.cycle (sees_calmBars _ _ _ fourTimes))
  have hprocessed : secondBar.1.toOption.any (·.result.status = .processed) = true := by
    decide +kernel
  have hopen : (buildLedger secondBar.2).toOption.any (0 < ·.snapshot.btcQuantity) = true := by
    decide +kernel
  obtain ⟨outcome, houtcome, hprocessed⟩ := (Option.any_eq_true _ _).mp hprocessed
  obtain ⟨ledger, hledger, hopen⟩ := (Option.any_eq_true _ _).mp hopen
  have houtcome := Except.toOption_eq_some.mp houtcome
  have hledger := Except.toOption_eq_some.mp hledger
  obtain ⟨hpd, hsource⟩ := sees_calmBars filledTwice (hours 16) none fourTimes
  obtain ⟨entry, handed, hentry, hhanded, hexact⟩ := held_evidence_exact (by decide +kernel)
    hrun shortService hpd _ hsource (hours 16) (Prod.ext houtcome rfl)
    (of_decide_eq_true hprocessed) hledger (of_decide_eq_true hopen)
  exact ⟨outcome, ledger, entry, handed, houtcome, hledger, hentry, hhanded, hexact⟩

end AutoBit.Service
