import AutoBit.Service.Chronicle
import AutoBit.Service.Protection

/-!
# A call for the end that is due

A call for the end that is due either completes its cycle, or leaves the end due. Whatever it
appends between the attempt and the completion lies at its bar, and its completion lists
orders of its bar only.
-/

namespace AutoBit.Service

open Library Store Risk Health Data Strategy Broker

/-! ## What a bar appends -/

section Bars

variable {end_ : ℤ} {e : StoredEvent}

/-- An identifier of the broker names no cycle and no attempt. -/
theorem unnamed_of_isBrokerId {eventId : EventId} (h : isBrokerId eventId = true) :
    namesCycle eventId = false ∧ namesAttempt eventId = false := by
  cases eventId <;> simp_all [isBrokerId, namesCycle, namesAttempt]

/-- What trading records is no cycle and no attempt. -/
theorem unscheduled_of_isTrade {payload : Payload} (h : isTrade payload = true) :
    payload.eventType ≠ "PAPER_CYCLE" ∧ payload.eventType ≠ "PAPER_CYCLE_ATTEMPT" := by
  cases payload <;> simp_all [isTrade, isPlacement, Payload.eventType]

/-- An event under an identity of the broker lies at a bar by its orders, fills and stops. -/
theorem atBar_of_isBrokerId (hidentity : isBrokerId e.eventId = true)
    (htype : e.payload.eventType ≠ "PAPER_CYCLE" ∧ e.payload.eventType ≠ "PAPER_CYCLE_ATTEMPT")
    (horder : ∀ m, e.payload = .paperOrder m → e.occurredAtUtc + fourHours = end_)
    (hfill : ∀ fill, e.payload = .fill fill → e.occurredAtUtc + fourHours = end_)
    (hstop : ∀ set, e.payload = .paperStopSet set → e.occurredAtUtc + fourHours = end_) :
    AtBar end_ e where
  uncompleted := by
    have hnamed := unnamed_of_isBrokerId hidentity
    simp [concernsCycle, htype.1, hnamed.1]
  unattempted := ⟨htype.2, (unnamed_of_isBrokerId hidentity).2⟩
  order := horder
  fill := hfill
  stop := hstop
  risk := fun payload cursor _ hid => by
    rw [hid] at hidentity
    cases hidentity

/-- An order that is placed at a bar is dated at it. -/
theorem atBar_of_placing {P : OrderMetadata → Prop} (h : Placing (end_ - fourHours) P e) :
    AtBar end_ e := by
  have hplaced := h.places.1
  refine atBar_of_isBrokerId h.identity
    (unscheduled_of_isTrade (isTrade_of_isPlacement hplaced)) ?_ ?_ ?_
  · intro m hm
    rw [h.order m hm]
    omega
  · intro fill hfill
    simp [hfill, isPlacement] at hplaced
  · intro set hset
    simp [hset, isPlacement] at hplaced

/-- A trade at a bar is dated at it. -/
theorem atBar_of_trading (h : Trading (end_ - fourHours) e) : AtBar end_ e := by
  refine atBar_of_isBrokerId h.identity (unscheduled_of_isTrade h.trades.1) ?_ ?_ ?_
  · intro m hm
    rw [h.order m hm]
    omega
  · intro fill hfill
    rw [h.fill fill hfill]
    omega
  · intro set hset
    have hunset := h.unset
    simp [hset, readStopSet] at hunset

/-- A stop that is set at a bar is dated at it. -/
theorem atBar_of_setting (h : Setting (end_ - fourHours) e) : AtBar end_ e := by
  obtain ⟨set, hset⟩ := h.sets
  refine atBar_of_isBrokerId h.identity (by simp [hset, Payload.eventType]) ?_ ?_ ?_
  · intro m hm
    cases hset.symm.trans hm
  · intro fill hfill
    cases hset.symm.trans hfill
  · intro _ _
    rw [h.time]
    omega

/-- What a bar notes lies at the bar, whenever it is noted. -/
theorem atBar_of_noted (h : Noted (end_ - fourHours) e.eventId e.payload) : AtBar end_ e := by
  generalize hid : e.eventId = eventId at h
  generalize hpayload : e.payload = payload at h
  cases h with
  | operational h => exact atBar_of_isOperational (hid ▸ hpayload ▸ h) end_
  | base breaker =>
    refine ⟨by simp [concernsCycle, hid, hpayload, Payload.eventType, namesCycle],
      by simp [hid, hpayload, Payload.eventType, namesAttempt], ?_, ?_, ?_, ?_⟩
    · intro m hm
      cases hpayload.symm.trans hm
    · intro fill hfill
      cases hpayload.symm.trans hfill
    · intro set hset
      cases hpayload.symm.trans hset
    · intro _ cursor _ hcursor
      cases hid.symm.trans hcursor
      omega
  | followup sequence version source breaker =>
    refine ⟨by simp [concernsCycle, hid, hpayload, Payload.eventType, namesCycle],
      by simp [hid, hpayload, Payload.eventType, namesAttempt], ?_, ?_, ?_, ?_⟩
    · intro m hm
      cases hpayload.symm.trans hm
    · intro fill hfill
      cases hpayload.symm.trans hfill
    · intro set hset
      cases hpayload.symm.trans hset
    · intro _ cursor _ hcursor
      cases hid.symm.trans hcursor

end Bars

/-! ## What the steps of a bar keep -/

/-- A log that has more events of a bar. -/
def GrowsAt (end_ : ℤ) (db db' : Database) : Prop := Grown (AtBar end_) db.events db'.events

instance (end_ : ℤ) : Std.Refl (GrowsAt end_) := ⟨fun _ => Grown.refl _⟩

instance (end_ : ℤ) : IsTrans Database (GrowsAt end_) := ⟨fun _ _ _ h h' => Grown.trans h h'⟩

/-- A step of a cycle between its attempt and its completion. -/
structure StepsAt (end_ : ℤ) (db db' : Database) : Prop where
  grows : GrowsAt end_ db db'
  keeps : KeepsGuard db db'

instance (end_ : ℤ) : Std.Refl (StepsAt end_) := ⟨fun db => ⟨refl_of _ db, refl_of _ db⟩⟩

instance (end_ : ℤ) : IsTrans Database (StepsAt end_) :=
  ⟨fun _ _ _ h h' => ⟨trans_of _ h.grows h'.grows, trans_of _ h.keeps h'.keeps⟩⟩

section Steps

variable {Cell : Type} {c : ServiceConfig Cell} (chances : Chances Cell) (end_ : ℤ)
  (hrates : ValidRates c.brokerCosts)

/-- The records of a bar are steps at its end. -/
theorem records_stepAt : RecordsAt (end_ - fourHours) (StepsAt end_) := by
  intro db db' eventId occurredAt payload hnoted happend
  refine ⟨?_, records_keep.atBar _ db db' eventId occurredAt payload hnoted happend⟩
  exact grown_of_appended (appendEvent_appended happend) (atBar_of_noted hnoted)

/-- The observations of a bar are steps at its end. -/
theorem observes_stepAt : Observations (StepsAt end_) := by
  intro db db' id highs initialStop hobserved
  refine ⟨?_, fun hguarded => hguarded.observePosition hobserved⟩
  obtain ⟨_, last, fill, highWater, -, -, -, happended, -⟩ := observePosition_appended hobserved
  refine grown_of_appended happended (atBar_of_isBrokerId rfl ?_ ?_ ?_ ?_)
  · simp [Database.nextEvent, Payload.eventType]
  · intro m hm
    cases hm
  · intro fill hfill
    cases hfill
  · intro set hset
    cases hset

include hrates

/-- The stops of a bar are steps at its end. -/
theorem protects_stepAt : Protects c.brokerCosts (end_ - fourHours) (StepsAt end_) := by
  intro db db' price activeAfter reason source stop hset
  refine ⟨?_, protects_keep hrates _ db db' price activeAfter reason source stop hset⟩
  exact (setStop_writes hset).mono fun _ => atBar_of_setting

/-- The orders of a bar are steps at its end. -/
theorem orders_stepAt (strategy : StrategyConfig) (costs : CostConfig) (handed : DecisionInput) :
    Orders c.brokerCosts (end_ - fourHours) (Strategy.decide strategy costs handed)
      (StepsAt end_) := by
  have hkeeps : Orders c.brokerCosts (end_ - fourHours) (Strategy.decide strategy costs handed)
      KeepsGuard := (along_keepsGuard hrates).orders _ strategy costs handed
  constructor
  · intro reason quantity haction db db' context order hsubmitted
    refine ⟨?_, hkeeps.entry reason quantity haction db db' context order hsubmitted⟩
    exact (submitEntry_writes hsubmitted).mono fun _ => atBar_of_placing
  · intro db db' quantity owned reason order hsubmitted
    refine ⟨?_, hkeeps.exit db db' quantity owned reason order hsubmitted⟩
    exact (submitExit_writes hsubmitted).mono fun _ => atBar_of_placing

/-- The fills of a bar are steps at its end. -/
theorem fillTransaction_stepAt (enriched : List TrendRow) (bar : Ohlcv ℚ)
    (prepared : PreparedContexts) :
    Respects (StepsAt end_)
      (fillTransaction c chances end_ (end_ - fourHours) enriched bar prepared) := by
  have hfills : Fills (end_ - fourHours) (GrowsAt end_) := by
    refine ⟨?_, ?_, ?_⟩
    · intro db db' id context order hbound
      exact (bindEntryContext_writes _ hbound).mono fun _ => atBar_of_placing
    · intro db db' id price fill hopened
      exact (processOpen_writes hopened).mono fun _ => atBar_of_trading
    · intro db db' openPrice lowPrice fill hstopped
      exact (processIntrabarStop_writes hstopped).mono fun _ => atBar_of_trading
  have hset : Protects c.brokerCosts (end_ - fourHours) (GrowsAt end_) :=
    fun db db' price activeAfter reason source stop h =>
      (protects_stepAt end_ hrates db db' price activeAfter reason source stop h).grows
  intro db
  refine ⟨fillTransaction_respects c chances end_ _ enriched bar hfills hset prepared db, ?_⟩
  exact (along_keepsGuard hrates).fills chances end_ _ enriched bar prepared db

end Steps

/-! ## What is filled and ordered -/

/-- Some orders are filled at the bar of an end, each once. -/
structure FilledAt (end_ : ℤ) (filled : List PaperId) (log : List StoredEvent) : Prop where
  once : filled.Nodup
  described : ∀ id ∈ filled, ∃ metadata ∈ view readFillMetadata log,
    metadata.body.orderId = id ∧ metadata.occurredAtUtc = end_ - fourHours

/-- No orders are filled at any end. -/
theorem filledAt_nil (end_ : ℤ) (log : List StoredEvent) : FilledAt end_ [] log :=
  ⟨List.nodup_nil, by simp⟩

/-- Orders that were filled stay filled in a longer log. -/
theorem FilledAt.grown {end_ : ℤ} {filled : List PaperId} {log more : List StoredEvent}
    {P : StoredEvent → Prop} (h : FilledAt end_ filled log) (hgrown : Grown P log more) :
    FilledAt end_ filled more := by
  refine ⟨h.once, fun id hid => ?_⟩
  obtain ⟨metadata, hmetadata, hsame⟩ := h.described id hid
  obtain ⟨block, rfl, -⟩ := hgrown
  exact ⟨metadata, by rw [view_append]; exact List.mem_append_left _ hmetadata, hsame⟩

/-- What a call has filled is described in a guarded store. -/
theorem filledAt_of_progress {start db : Database} {end_ : ℤ} {filled : List PaperId}
    (hguarded : Guarded db) (h : Progress start (end_ - fourHours) filled [] db) :
    FilledAt end_ filled db.events := by
  obtain ⟨a, hanchored, -⟩ := hguarded
  have hcoherent := hanchored.sound.coherent
  have hnodup : ((fillMarks db.events).map Prod.fst).Nodup := by
    rw [fillMarks, List.map_map]
    refine List.Nodup.map_on ?_ ?_
    · intro raw hraw raw' hraw' hid
      exact hcoherent.raw_unique hraw hraw' hid
    · exact List.Nodup.of_map _ (view_ids_nodup readFill hcoherent.ids)
  have hmarks := h.marks.fills
  constructor
  · rw [hmarks, List.map_append] at hnodup
    have hfilled := (List.nodup_append.mp hnodup).2.1
    simpa [allAt, Function.comp_def] using hfilled
  · intro id hid
    have hmark : (id, end_ - fourHours) ∈ fillMarks db.events := by
      rw [hmarks]
      exact List.mem_append_right _ (List.mem_map_of_mem hid)
    obtain ⟨raw, hraw, hsame⟩ := List.mem_map.mp hmark
    obtain ⟨hrawId, hrawTime⟩ := Prod.mk.inj hsame
    obtain ⟨metadata, hmetadata, horderId, htime⟩ := hcoherent.fill_described hraw
    exact ⟨metadata, List.mem_of_find?_eq_some hmetadata, horderId.trans hrawId,
      htime.trans hrawTime⟩

/-- Some orders are signalled at the bar of an end, at most one. -/
def SignalledAt (end_ : ℤ) (created : List PaperId) (log : List StoredEvent) : Prop :=
  created = [] ∨ ∃ id, created = [id] ∧ (id, end_ - fourHours) ∈ rootMarks log

/-- The orders of a decision are signalled at its bar. -/
theorem carryOut_signalled {Cell : Type} (c : ServiceConfig Cell) (chances : Chances Cell)
    (end_ : ℤ) (enriched : List TrendRow) (row : TrendRow) (account : Ledger)
    (position : Option PositionContext) (decision : Decision) :
    Triple (fun _ => True)
      (carryOut c chances (end_ - fourHours) enriched row account position decision)
      (fun created db => SignalledAt end_ created db.events) fun _ => True := by
  have hsignalled : ∀ {db db' : Database} {order : PaperOrder},
      Marks [] [] db db' ∧ (order.orderId, end_ - fourHours) ∈ rootMarks db.events ∨
        Marks [] [(order.orderId, end_ - fourHours)] db db' →
      (order.orderId, end_ - fourHours) ∈ rootMarks db'.events := by
    rintro db db' order (⟨hnothing, hbefore⟩ | hroot)
    · rw [hnothing.roots]
      exact List.mem_append_left _ hbefore
    · rw [hroot.roots]
      exact List.mem_append_right _ (List.mem_singleton_self _)
  have hlisted : ∀ order : PaperOrder,
      Triple (fun db => (order.orderId, end_ - fourHours) ∈ rootMarks db.events)
        (pure [order.orderId] : Stateful Failure Database (List PaperId))
        (fun created db => SignalledAt end_ created db.events) fun _ => True :=
    fun order => Triple.pure fun _ hroot => Or.inr ⟨_, rfl, hroot⟩
  have hnothing : Triple (fun _ => True) (pure [] : Stateful Failure Database (List PaperId))
      (fun created db => SignalledAt end_ created db.events) fun _ => True :=
    Triple.pure fun _ _ => Or.inl rfl
  unfold carryOut
  split
  · split
    · refine Triple.bind (triple_fencedCycle (fun _ _ => trivial)
        (triple_brokerCall (fun _ _ => trivial) ?_)) hlisted
      exact fun _ _ _ _ hsubmitted => hsignalled (submitExit_marks hsubmitted)
    · exact hnothing
  · refine Triple.bind (triple_fencedCycle (fun _ _ => trivial) (Triple.bind
      (Triple.unsaid _) fun context => triple_brokerCall (fun _ _ => trivial) ?_)) fun order =>
        Triple.lift_bind (fun _ _ => trivial) fun _ _ => hlisted order
    exact fun _ _ _ _ hsubmitted => hsignalled (submitEntry_marks hsubmitted)
  · split
    · exact Triple.bind (Triple.unsaid _) fun _ => hnothing
    · exact hnothing

/-! ## The reasons of a decision -/

/-- A decision that is read from a payload can be stored. -/
theorem storable_of_payload {payload : BreakerPayload} {state : RiskState}
    (h : riskStateFromPayload payload = .ok state) : StorableDecision state.decision := by
  unfold riskStateFromPayload at h
  split at h
  · cases h
    exact ready_init.decision
  · cases h
  · simp only [Except.bind_eq_ok, reject_eq_ok, Except.pure_eq_ok, not_or, not_lt] at h
    obtain ⟨_, -, _, -, _, -, _, hreasons, _, hrates, _, -, _, -, rfl⟩ := h
    exact ⟨hrates.1, hrates.2, hreasons⟩

/-- The decision of the latest base is storable in a chain that is accepted. -/
theorem storable_of_chain {snapshot : PaperSnapshot} {chain : RiskChain}
    (h : validateHealthAndRiskChain snapshot = .ok chain) :
    StorableDecision chain.latestBase.decision := by
  refine foldlM_invariant (fun c : RiskChain => StorableDecision c.latestBase.decision) ?_
    ready_init.decision (chain_folded h)
  intro c c' e _ hstorable hround
  unfold chainRound at hround
  split at hround
  · cases hround
    exact hstorable
  · simp only [Except.bind_eq_ok] at hround
    obtain ⟨_, -, candidate, hcandidate, _, -, hround⟩ := hround
    split at hround <;> simp only [Except.bind_eq_ok, Except.pure_eq_ok] at hround <;>
      obtain ⟨c₁, hstep, rfl⟩ := hround
    · simp only [followupRound, Except.bind_eq_ok, Except.pure_eq_ok] at hstep
      obtain ⟨_, -, _, -, _, -, _, -, _, -, _, -, _, -, _, -, _, -, rfl⟩ := hstep
      exact hstorable
    · simp only [baseRound, Except.bind_eq_ok, Except.pure_eq_ok] at hstep
      obtain ⟨_, -, _, -, _, -, _, -, _, -, rfl⟩ := hstep
      exact storable_of_payload hcandidate
  · cases hround
    exact hstorable

/-- A decision that the risk state advances to can be stored. -/
theorem storable_of_advanceRow {prior base : RiskState} {barAt : ℤ} {row : RiskRow}
    {config : RiskConfig} {systemHealthy : Bool}
    (h : advanceRow prior barAt row config systemHealthy = .ok base) :
    StorableDecision base.decision := by
  simp only [advanceRow, Except.bind_eq_ok, Except.mapError_eq_ok] at h
  obtain ⟨ratio, -, h⟩ := h
  obtain ⟨input, hadvanced⟩ := advanced_of_ok h
  have hwellFormed := evaluateRisk_wellFormed input
  rw [← hadvanced.decision] at hwellFormed
  exact ⟨hwellFormed.rate, hwellFormed.cap,
    fun hempty => absurd (hwellFormed.reasons "" hempty) (by decide)⟩

/-- The decision of a bar is storable, whatever the log holds. -/
theorem riskDecision_storable (config : RiskConfig) (runs : RunPoint → Bool) (barAt : ℤ)
    (row : RiskRow) : Triple (fun _ => True) (riskDecision config runs barAt row)
      (fun decision _ => StorableDecision decision) fun _ => True := by
  have hanswer : ∀ {pre : Database → Prop} base final gate, StorableDecision final →
      Triple pre (answerWithFollowup runs barAt base final gate)
        (fun decision _ => StorableDecision decision) fun _ => True := by
    intro pre base final gate hfinal
    refine Triple.bind (Triple.unsaid _) fun _ => ?_
    exact Triple.lift_bind (fun _ _ => trivial) fun _ _ => Triple.pure fun _ _ => hfinal
  refine Triple.get_bind fun db _ => ?_
  refine Triple.lift_bind (fun _ _ => trivial) fun snapshot _ => ?_
  refine Triple.lift_bind (fun _ _ => trivial) fun chain hchain => ?_
  refine Triple.lift_bind (fun _ _ => trivial) fun gate _ => ?_
  refine Triple.lift_bind (fun _ _ => trivial) fun _ _ => ?_
  split
  · have hfinal := (storable_of_chain hchain).applyHealthAction gate.action
    refine Triple.lift_bind (fun _ _ => trivial) fun _ _ => ?_
    refine Triple.lift_bind (fun _ _ => trivial) fun expected _ => ?_
    dsimp only
    split
    · exact hanswer _ _ _ hfinal
    · exact Triple.pure fun _ _ => hfinal
  · refine Triple.lift_bind (fun _ _ => trivial) fun base hbase => ?_
    have hfinal := (storable_of_advanceRow hbase).applyHealthAction gate.action
    refine Triple.bind (Triple.unsaid _) fun _ => ?_
    dsimp only
    split
    · exact hanswer _ _ _ hfinal
    · exact Triple.pure fun _ _ => hfinal

/-! ## The evidence before a call -/

section Evidence

variable {db : Database} {log : List StoredEvent} {completed : List ℤ} {current : Option ℤ}
  {end_ latest : ℤ}

/-- The attempts of a chronicle are mature, if they are accepted. -/
theorem Chronicle.mature {attempts : Attempts} (h : Chronicle log completed current)
    (hrounds : log.foldlM (attemptRound latest) [] = .ok attempts) :
    ∀ end_ ∈ attemptedEnds completed current, end_ ≤ latest := by
  induction h generalizing attempts with
  | start => simp [attemptedEnds]
  | operational _ _ ih =>
    obtain ⟨before, hbefore, -⟩ := foldlM_snoc_eq_ok.mp hrounds
    exact ih hbefore
  | attempt _ _ _ hattempt ih =>
    obtain ⟨before, hbefore, hround⟩ := foldlM_snoc_eq_ok.mp hrounds
    simp only [attemptRound, hattempt.payload, Except.bind_eq_ok, reject_eq_ok, not_lt] at hround
    obtain ⟨_, -, _, -, _, -, _, -, _, hlatest, -⟩ := hround
    intro end' hend
    rcases List.mem_append.mp hend with hold | hnew
    · exact ih hbefore end' (by simpa [attemptedEnds] using hold)
    · obtain rfl := Option.mem_some.mp (Option.mem_toList.mp hnew)
      exact hlatest
  | bar _ _ ih =>
    obtain ⟨before, hbefore, -⟩ := foldlM_snoc_eq_ok.mp hrounds
    exact ih hbefore
  | complete _ _ _ ih =>
    obtain ⟨before, hbefore, -⟩ := foldlM_snoc_eq_ok.mp hrounds
    intro end' hend
    exact ih hbefore end' (by simpa [attemptedEnds] using hend)

/-- The evidence of a chronicle is what it says, if it is accepted. -/
theorem Chronicle.cycleEvidence (h : Chronicle db.events completed current) (hguarded : Guarded db)
    {evidence : List ℤ × List ℤ} (hevidence : cycleEvidence latest db = .ok evidence) :
    evidence = (completed, attemptedEnds completed current) := by
  obtain ⟨a, hanchored, -⟩ := hguarded
  have hsound := hanchored.sound
  simp only [Service.cycleEvidence, validatedSnapshot, Except.bind_eq_ok, Except.pure_eq_ok]
    at hevidence
  obtain ⟨_, ⟨snapshot, hsnapshot, _, -, rfl⟩, _, -, _, -, completed', hends, attempted, hattempts,
    rfl⟩ := hevidence
  obtain ⟨s, -, -, rfl⟩ := replayAndVerify_eq_ok.mp hsnapshot
  have hrounds := hattempts
  simp only [snapshotFromComponents, Service.validatedCycleAttempts, requireCycleEnd,
    Except.bind_eq_ok, reject_eq_ok, not_not] at hrounds
  obtain ⟨_, hboundary, attempts, hrounds, -⟩ := hrounds
  have hmature := h.mature hrounds
  have hcompleted := h.completedCycleEnds hsound fun end_ hend =>
    hmature end_ (List.mem_append_left _ hend)
  obtain rfl := Except.ok.inj (hends.symm.trans hcompleted)
  obtain rfl := Except.ok.inj (hattempts.symm.trans
    (h.validatedCycleAttempts hsound hboundary hmature))
  rfl

/-- An end that is not completed has no completion under its identity. -/
theorem Chronicle.filter_cycle (h : Chronicle db.events completed current)
    (hfresh : end_ ∉ completed) : db.events.filter (fun event => event.eventId = .cycle end_) = [] := by
  rw [List.filter_eq_nil_iff]
  intro e he hid
  have hid : e.eventId = .cycle end_ := of_decide_eq_true hid
  have hunnamed : ∀ {end' : ℤ}, ¬AtBar end' e := by
    intro end' hbar
    have huncompleted := hbar.uncompleted
    simp [concernsCycle, hid, namesCycle] at huncompleted
  rcases h.mem_cases he with hoperational | ⟨end', -, hattempt | hbar | ⟨hdone, completion, hcompletion⟩⟩
  · exact hunnamed (atBar_of_isOperational hoperational 0)
  · cases hid.symm.trans hattempt.eventId
  · exact hunnamed hbar
  · cases hid.symm.trans hcompletion.eventId
    exact hfresh hdone

/-- An end that no cycle completed is not read as completed. -/
theorem Chronicle.cycleIsCompleted (h : Chronicle db.events completed current)
    (hfresh : end_ ∉ completed) {answer : Bool}
    (hanswer : cycleIsCompleted end_ db = .ok answer) : answer = false := by
  simp only [Service.cycleIsCompleted, validatedSnapshot, Except.bind_eq_ok, Except.pure_eq_ok] at hanswer
  obtain ⟨_, ⟨snapshot, hsnapshot, _, -, rfl⟩, hanswer⟩ := hanswer
  obtain ⟨s, -, -, rfl⟩ := replayAndVerify_eq_ok.mp hsnapshot
  simp only [snapshotFromComponents, hasCompletedCycle, h.filter_cycle hfresh] at hanswer
  exact (Except.ok.inj hanswer).symm

end Evidence

/-! ## The states of a call -/

/-- A cycle at work, with the orders that it has filled. -/
structure Working (completed : List ℤ) (end_ : ℤ) (filled : List PaperId) (db : Database) :
    Prop where
  chronicle : Chronicle db.events completed (some end_)
  guarded : Guarded db
  lists : FilledAt end_ filled db.events

/-- A cycle at work, with the orders that it has filled and created. -/
structure Ordered (completed : List ℤ) (end_ : ℤ) (filled created : List PaperId)
    (db : Database) : Prop where
  working : Working completed end_ filled db
  signalled : SignalledAt end_ created db.events

/-- A cycle that is not completed: its end is attempted, or as it was. -/
structure Unfinished (completed : List ℤ) (current : Option ℤ) (end_ : ℤ) (db : Database) :
    Prop where
  guarded : Guarded db
  chronicle : Chronicle db.events completed current ∨ Chronicle db.events completed (some end_)

/-- A cycle that is completed. -/
structure Closed (completed : List ℤ) (end_ : ℤ) (db : Database) : Prop where
  guarded : Guarded db
  chronicle : Chronicle db.events (completed ++ [end_]) none

/-- A call that returns has completed its cycle, unless it returns that the lease is held. -/
def Concluded (completed : List ℤ) (current : Option ℤ) (end_ : ℤ) (outcome : Outcome)
    (db : Database) : Prop :=
  outcome.result.status = .leaseHeld ∧ Unfinished completed current end_ db ∨
    outcome.result.status ≠ .leaseHeld ∧ Closed completed end_ db

/-- The end that is due: the one that is attempted, or the one after the last completion. -/
def Due (completed : List ℤ) (current : Option ℤ) (end_ : ℤ) : Prop :=
  end_ ∉ completed ∧ ∀ due ∈ current.or (completed.getLast?.map (· + fourHours)), end_ = due

section Calls

variable {Cell : Type} {c : ServiceConfig Cell} {chances : Chances Cell} {end_ : ℤ}
  {enriched : List TrendRow} {bar : Ohlcv ℚ} {completed : List ℤ} {current : Option ℤ}
  {filled : List PaperId} {α : Type}

/-- A call at work has not finished its cycle. -/
theorem Working.unfinished {db : Database} (h : Working completed end_ filled db) :
    Unfinished completed current end_ db := ⟨h.guarded, Or.inr h.chronicle⟩

/-- A step of the cycle leaves the call at work. -/
theorem Working.step {db db' : Database} (h : Working completed end_ filled db)
    (hstep : StepsAt end_ db db') : Working completed end_ filled db' :=
  ⟨h.chronicle.grown hstep.grows, hstep.keeps h.guarded, h.lists.grown hstep.grows⟩

/-- A step of a bar keeps a cycle at work. -/
theorem triple_steps {x : Stateful Failure Database α} (h : Respects (StepsAt end_) x) :
    Triple (Working completed end_ filled) x (fun _ => Working completed end_ filled)
      (Unfinished completed current end_) :=
  Triple.of_respects h (fun _ _ hworking hstep => hworking.step hstep)
    fun _ _ hworking hstep => (hworking.step hstep).unfinished

/-- A reading leaves the call at work. -/
theorem triple_reads (view : Database → Except Failure α) :
    Triple (Working completed end_ filled) (readDatabase view)
      (fun _ => Working completed end_ filled) (Unfinished completed current end_) :=
  triple_steps (respects_readDatabase view)

/-- The transaction of the fills finds no completion. -/
theorem fillTransaction_some (hfresh : end_ ∉ completed) (prepared : PreparedContexts) :
    Triple (fun db => Chronicle db.events completed (some end_))
      (fillTransaction c chances end_ (end_ - fourHours) enriched bar prepared)
      (fun filled _ => filled ≠ none) fun _ => True := by
  refine triple_fencedCycle (fun _ _ => trivial) ?_
  refine triple_read_bind (fun _ _ => trivial) fun db snapshot hchronicle hsnapshot => ?_
  refine Triple.lift_bind (fun _ _ => trivial) fun _ _ => ?_
  refine triple_read_bind (fun _ _ => trivial) fun db' answer hsame hanswer => ?_
  subst hsame
  obtain rfl : answer = false := by
    refine hchronicle.cycleIsCompleted hfresh ?_
    simp only [cycleIsCompleted, Except.bind_eq_ok]
    exact ⟨snapshot, hsnapshot, hanswer⟩
  exact Triple.bind (Triple.unsaid _) fun filled => Triple.pure fun _ _ => by simp

/-- What the transaction of the fills returns is filled at the bar. -/
theorem fillTransaction_working (hrates : ValidRates c.brokerCosts) (hfresh : end_ ∉ completed)
    (prepared : PreparedContexts) :
    Triple (Working completed end_ [])
      (fillTransaction c chances end_ (end_ - fourHours) enriched bar prepared)
      (fun filled db => ∃ ids, filled = some ids ∧ Working completed end_ ids db)
      (Unfinished completed current end_) := by
  intro db hworking
  have hsteps := fillTransaction_stepAt chances end_ hrates enriched bar prepared db
  constructor
  · intro filled db' hresult
    have hsome := (fillTransaction_some hfresh prepared db hworking.chronicle).1 filled db' hresult
    have hprogress := (fillTransaction_progress prepared db (progress_start db _)).1 filled db' hresult
    rw [hresult] at hsteps
    have hguarded := hsteps.keeps hworking.guarded
    obtain ⟨ids, rfl⟩ := Option.ne_none_iff_exists'.mp hsome
    exact ⟨ids, rfl, hworking.chronicle.grown hsteps.grows, hguarded,
      filledAt_of_progress hguarded hprogress⟩
  · intro e db' hresult
    rw [hresult] at hsteps
    exact (hworking.step hsteps).unfinished

/-- A completion that lists orders of its bar closes the cycle. -/
theorem recordCompletion_closed {result : CycleResult} {created : List PaperId}
    (hend : result.endUtc = end_) (hfilled : result.filledOrderIds = filled)
    (hcreated : result.createdOrderIds = created)
    (hstatus : result.status = .processed ∨
      result.status = .unsafeData ∧ result.createdOrderIds = [] ∧ result.filledOrderIds = [])
    (hreasons : "" ∉ result.reasons) :
    Triple (Ordered completed end_ filled created) (recordCompletion chances result)
      (fun _ => Closed completed end_) (Unfinished completed current end_) := by
  subst hend hfilled hcreated
  refine Triple.transaction (fun _ h => h.working.unfinished)
    (Triple.lift_bind (fun _ _ => trivial) fun _ _ => ?_)
  refine Triple.get_bind fun db h => ?_
  obtain ⟨hworking, hsignalled⟩ := h
  refine Triple.lift_bind (fun _ _ => trivial) fun db' happend => ?_
  refine Triple.modify fun _ _ => ⟨hworking.guarded.record rfl happend, ?_⟩
  have hwitnessed : Witnessed db.events ⟨result.createdOrderIds, result.endUtc,
      result.filledOrderIds, result.reasons, result.status⟩ := by
    refine ⟨hstatus.imp_right And.left, hreasons, ?_, hworking.lists.described, ?_,
      hworking.lists.once, ?_⟩
    · rcases hsignalled with hnone | ⟨id, hone, hroot⟩
      · simp [hnone]
      · simpa [hone] using hroot
    · rcases hsignalled with hnone | ⟨id, hone, -⟩
      · simp [hnone]
      · simp [hone]
    · intro hunsafe
      rcases hstatus with hprocessed | ⟨-, hempty⟩
      · cases hunsafe.symm.trans hprocessed
      · exact hempty
  rw [(appendEvent_appended happend).events]
  exact .complete hworking.chronicle hwitnessed ⟨rfl, rfl, rfl, rfl⟩

/-- A call whose lease is lost returns that it is held, and leaves its cycle unfinished. -/
theorem resultAfterLostLease_concluded (hfresh : end_ ∉ completed) :
    Triple (Unfinished completed current end_) (resultAfterLostLease end_)
      (Concluded completed current end_) (Unfinished completed current end_) := by
  refine triple_read_bind (fun _ h => h) fun db answer hunfinished hanswer => ?_
  obtain rfl : answer = false := by
    rcases hunfinished.chronicle with hchronicle | hchronicle
    · exact hchronicle.cycleIsCompleted hfresh hanswer
    · exact hchronicle.cycleIsCompleted hfresh hanswer
  refine Triple.pure ?_
  rintro _ rfl
  exact Or.inl ⟨rfl, hunfinished⟩

/-- A call that finds its window unsafe completes the cycle. -/
theorem completeUnsafe_concluded : Triple (Working completed end_ []) (completeUnsafe chances end_)
    (Concluded completed current end_) (Unfinished completed current end_) := by
  refine Triple.bind (triple_reads _) fun account => ?_
  refine Triple.bind (triple_reads _) fun snapshot => ?_
  refine Triple.lift_bind (fun _ h => h.unfinished) fun _ _ => ?_
  refine Triple.assume ?_ fun _ h => Ordered.mk h (Or.inl rfl)
  refine Triple.bind (recordCompletion_closed rfl rfl rfl (Or.inr ⟨rfl, rfl, rfl⟩) (by simp))
    fun _ => ?_
  exact Triple.pure fun _ hclosed => Or.inr ⟨by simp, hclosed⟩

/-- The attempt of the end that is due, unless it is there. -/
theorem recordAttempt_working (hdue : Due completed current end_) (hboundary : IsBoundary end_) :
    Triple (fun db => Guarded db ∧ Chronicle db.events completed current)
      (recordAttempt chances end_ (attemptedEnds completed current))
      (fun _ => Working completed end_ []) (Unfinished completed current end_) := by
  unfold recordAttempt
  split
  · rename_i hattempted
    have hopen := (List.mem_append.mp hattempted).resolve_left hdue.1
    obtain rfl := Option.mem_toList.mp hopen
    exact Triple.pure fun db h => ⟨h.2, h.1, filledAt_nil _ _⟩
  · rename_i hfresh
    have hnone : current = none := by
      cases current with
      | none => rfl
      | some open_ =>
        obtain rfl := hdue.2 open_ rfl
        exact absurd (by simp [attemptedEnds]) hfresh
    subst hnone
    refine Triple.transaction (fun _ h => ⟨h.1, Or.inl h.2⟩)
      (Triple.lift_bind (fun _ _ => trivial) fun _ _ => ?_)
    refine Triple.get_bind fun db h => Triple.lift_bind (fun _ _ => trivial) fun db' happend => ?_
    refine Triple.modify fun _ _ => ?_
    have hnext : ∀ last ∈ completed.getLast?, end_ = last + fourHours := by
      intro last hlast
      exact hdue.2 _ (by simp [Option.mem_def.mp hlast])
    refine ⟨?_, h.1.record rfl happend, filledAt_nil _ _⟩
    rw [(appendEvent_appended happend).events]
    exact .attempt h.2 hboundary hnext ⟨rfl, rfl, rfl⟩

variable [DecidableEq Cell] (hrates : ValidRates c.brokerCosts)
include hrates

/-- The close of a bar completes the cycle. -/
theorem closeBar_concluded (row : TrendRow) : Triple (Working completed end_ filled)
    (closeBar c chances end_ (end_ - fourHours) enriched bar row filled)
    (Concluded completed current end_) (Unfinished completed current end_) := by
  have hobserved : ∀ account, Respects (StepsAt end_)
      (observeIfHeld c chances (end_ - fourHours) enriched account) :=
    observeIfHeld_respects c chances _ enriched (records_stepAt end_) (observes_stepAt end_)
  have hrisk : ∀ runs row, Triple (Working completed end_ filled)
      (riskDecision c.risk runs (end_ - fourHours) row)
      (fun decision db => Working completed end_ filled db ∧ StorableDecision decision)
      (Unfinished completed current end_) := by
    intro runs row
    have hsteps := riskDecision_respects (records_stepAt end_) c.risk runs row
    exact (triple_steps hsteps).besides (riskDecision_storable c.risk runs _ row)
  have hcarried : ∀ account position handed, Triple (Working completed end_ filled)
      (carryOut c chances (end_ - fourHours) enriched row account position
        (Strategy.decide c.strategy.toStrategyConfig c.costs handed))
      (Ordered completed end_ filled)
      (Unfinished completed current end_) := by
    intro account position handed
    have hsteps := carryOut_respects c chances (end_ - fourHours) enriched
      (protects_stepAt end_ hrates) row account position
      (orders_stepAt end_ hrates c.strategy.toStrategyConfig c.costs handed)
    exact ((triple_steps hsteps).besides (carryOut_signalled c chances end_ enriched row account
      position _)).weaken fun _ _ h => ⟨h.1, h.2⟩
  refine Triple.bind (triple_reads _) fun account => ?_
  refine Triple.bind (triple_steps (hobserved account)) fun _ => ?_
  refine Triple.lift_bind (fun _ h => h.unfinished) fun equity _ => ?_
  refine Triple.bind (hrisk _ _) fun risk => ?_
  refine Triple.extract fun hstorable => ?_
  refine Triple.bind (triple_reads _) fun account' => ?_
  refine Triple.bind (triple_reads _) fun position => ?_
  refine Triple.bind (hcarried account' position _) fun created => ?_
  refine Triple.bind (recordCompletion_closed rfl rfl rfl (Or.inl rfl) hstorable.reasons) fun _ => ?_
  exact Triple.pure fun _ hclosed => Or.inr ⟨by simp, hclosed⟩

/-- A call that goes over its window completes the cycle. -/
theorem processWindow_concluded (hfresh : end_ ∉ completed) :
    Triple (Working completed end_ []) (processWindow c chances end_ enriched)
      (Concluded completed current end_) (Unfinished completed current end_) := by
  have hprepared : Respects (StepsAt end_)
      (prepareLegacyEntryContexts c chances (end_ - fourHours)) :=
    prepareLegacyEntryContexts_respects c chances _ (records_stepAt end_)
  unfold processWindow
  split
  · exact completeUnsafe_concluded
  · rename_i row bar _
    refine Triple.bind (triple_steps hprepared) fun prepared => ?_
    split
    · exact (resultAfterLostLease_concluded hfresh).assume fun _ h => h.unfinished
    · refine triple_read_bind (fun _ h => h.unfinished) fun db answer hworking hanswer => ?_
      obtain rfl := hworking.chronicle.cycleIsCompleted hfresh hanswer
      refine Triple.assume ?_ fun s (hs : s = db) => hs ▸ hworking
      refine Triple.bind (fillTransaction_working hrates hfresh prepared) fun filled => ?_
      rintro db' ⟨ids, rfl, hfilled⟩
      exact closeBar_concluded hrates row db' hfilled

/-- A due call that holds the lease completes its cycle. -/
theorem leasedCycle_concluded (hdue : Due completed current end_) (hboundary : IsBoundary end_) :
    Triple (fun db => Guarded db ∧ Chronicle db.events completed current)
      (leasedCycle c chances end_) (Concluded completed current end_)
      (Unfinished completed current end_) := by
  refine triple_read_bind (fun _ h => ⟨h.1, Or.inl h.2⟩) fun db evidence hstart hevidence => ?_
  obtain rfl := hstart.2.cycleEvidence hstart.1 hevidence
  dsimp only
  rw [if_neg hdue.1]
  refine Triple.assume ?_ fun s (hs : s = db) => hs ▸ hstart
  refine Triple.lift_bind (fun _ h => ⟨h.1, Or.inl h.2⟩) fun _ _ => ?_
  refine Triple.bind (recordAttempt_working hdue hboundary) fun _ => ?_
  refine Triple.lift_bind (fun _ h => h.unfinished) fun _ _ => ?_
  refine Triple.bind (triple_steps (load_respects (records_stepAt end_) _)) fun raw => ?_
  refine Triple.lift_bind (fun _ h => h.unfinished) fun quality _ => ?_
  split
  · exact (resultAfterLostLease_concluded hdue.1).assume fun _ h => h.unfinished
  · refine triple_read_bind (fun _ h => h.unfinished) fun db answer hworking hanswer => ?_
    obtain rfl := hworking.chronicle.cycleIsCompleted hdue.1 hanswer
    exact (processWindow_concluded hrates hdue.1).assume fun s (hs : s = db) => hs ▸ hworking

/-- A call for the end that is due completes its cycle and leaves the next end due, or returns
that the lease is held or raises, and leaves its own end due. -/
theorem processCompletedCandle_concluded (hdue : Due completed current end_) :
    Triple (fun db => Guarded db ∧ Chronicle db.events completed current)
      (processCompletedCandle c chances end_) (Concluded completed current end_)
      (Unfinished completed current end_) := by
  have hkept : ∀ db, Guarded db ∧ Chronicle db.events completed current →
      Unfinished completed current end_ db := fun _ h => ⟨h.1, Or.inl h.2⟩
  refine Triple.lift_bind hkept fun _ hend => ?_
  have hboundary : IsBoundary end_ := not_not.mp (reject_eq_ok.mp hend)
  refine Triple.lift_bind hkept fun _ _ => ?_
  refine triple_read_bind hkept fun db evidence hstart hevidence => ?_
  obtain rfl := hstart.2.cycleEvidence hstart.1 hevidence
  dsimp only
  rw [if_neg hdue.1]
  refine Triple.assume ?_ fun s (hs : s = db) => hs ▸ hstart
  refine Triple.lift_bind hkept fun _ _ => ?_
  split
  · exact Triple.pure fun _ h => Or.inl ⟨rfl, hkept _ h⟩
  · refine Triple.recover (leasedCycle_concluded hrates hdue hboundary) fun e rest hrest => ?_
    cases e <;> cases hrest
    exact resultAfterLostLease_concluded hdue.1

end Calls

end AutoBit.Service
