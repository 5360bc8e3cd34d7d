import AutoBit.Service.Chronicle

/-!
# The end that a chronicle requires

Everything that the evidence of a chronicle observes lies at an end that was attempted, and
nothing is owed before the end that is required. So the service resolves that end, whatever
orders, fills, stops and risk decisions the log holds.
-/

namespace AutoBit.Service

open Library Store Broker

/-- The attempted ends are mature boundaries, each four hours after the one before it. -/
structure Timely (completed : List ℤ) (current : Option ℤ) (latest : ℤ) : Prop where
  spaced : Spaced fourHours (attemptedEnds completed current)
  boundaries : ∀ end_ ∈ attemptedEnds completed current, IsBoundary end_
  latestBoundary : IsBoundary latest
  mature : ∀ end_ ∈ attemptedEnds completed current, end_ ≤ latest

/-- What is observed lies at an attempted end, and nothing is owed before the required one. -/
structure Covered (completed : List ℤ) (current : Option ℤ) (latest : ℤ) (duties : CycleDuties) :
    Prop where
  observed : ∀ end_ ∈ duties.observed, end_ ∈ attemptedEnds completed current
  obligations : ∀ end_ ∈ duties.obligations,
    end_ ∈ completed ∨ requiredEnd completed current latest ≤ end_
  owed : attemptedEnds completed current ≠ [] →
    requiredEnd completed current latest ∈ duties.obligations
  idle : attemptedEnds completed current = [] → duties.obligations = []

section Duties

variable {completed : List ℤ} {current : Option ℤ} {latest end_ : ℤ} {duties : CycleDuties}

/-- The required end comes after the completed ones. -/
theorem Timely.required_fresh (h : Timely completed current latest)
    (hsome : attemptedEnds completed current ≠ []) :
    requiredEnd completed current latest ∉ completed ∧
      ∀ last ∈ completed.getLast?, requiredEnd completed current latest = last + fourHours := by
  have hspaced := h.spaced
  cases current with
  | some end_ => exact current_fresh hspaced rfl
  | none =>
    rw [attemptedEnds_none] at hspaced hsome
    obtain ⟨last, hlast⟩ := Option.ne_none_iff_exists'.mp (mt List.getLast?_eq_none_iff.mp hsome)
    have hrequired : requiredEnd completed none latest = last + fourHours := by
      simp [requiredEnd, hlast]
    rw [hrequired]
    refine ⟨fun hmem => ?_, fun last' hlast' => ?_⟩
    · have hle := hspaced.le_last fourHours_pos hlast hmem
      have hpos := fourHours_pos
      omega
    · rw [Option.some.inj (hlast.symm.trans hlast')]

/-- What is due at an attempted end is due at a completed end or at the required one. -/
theorem Timely.owed (h : Timely completed current latest)
    (hend : end_ ∈ attemptedEnds completed current) :
    end_ ∈ completed ∨ requiredEnd completed current latest ≤ end_ := by
  rcases List.mem_append.mp hend with hdone | hopen
  · exact Or.inl hdone
  · obtain rfl := Option.mem_toList.mp hopen
    exact Or.inr le_rfl

/-- What is due one end later is due at a completed end, at the required one, or after it. -/
theorem Timely.owed_next (h : Timely completed current latest)
    (hend : end_ ∈ attemptedEnds completed current) :
    end_ + fourHours ∈ completed ∨ requiredEnd completed current latest ≤ end_ + fourHours := by
  rcases h.spaced.succ_mem hend with hlast | hnext
  · right
    have hsome := List.ne_nil_of_mem hend
    cases current with
    | none =>
      rw [attemptedEnds_none] at hlast hend
      exact ((h.required_fresh hsome).2 end_ hlast).le
    | some open_ =>
      have hopen : open_ = end_ := by simpa [attemptedEnds] using hlast
      have hpos := fourHours_pos
      simp only [requiredEnd, Option.getD_some]
      omega
  · exact h.owed hnext

/-- An end that was attempted may be observed. -/
theorem Covered.observe (h : Covered completed current latest duties)
    (hend : end_ ∈ attemptedEnds completed current) :
    Covered completed current latest (duties.observe end_) := by
  refine ⟨fun direct hdirect => ?_, h.obligations, h.owed, h.idle⟩
  rcases List.mem_append.mp hdirect with hold | hnew
  · exact h.observed direct hold
  · rwa [List.mem_singleton.mp hnew]

/-- An end that is completed or required may be owed. -/
theorem Covered.owe (h : Covered completed current latest duties)
    (hsome : attemptedEnds completed current ≠ [])
    (hend : end_ ∈ completed ∨ requiredEnd completed current latest ≤ end_) :
    Covered completed current latest (duties.owe end_) := by
  refine ⟨h.observed, fun due hdue => ?_, fun _ => List.mem_append_left _ (h.owed hsome),
    fun hnone => absurd hnone hsome⟩
  rcases List.mem_append.mp hdue with hold | hnew
  · exact h.obligations due hold
  · rwa [List.mem_singleton.mp hnew]

/-- What is observed at the bar of an attempted end is accepted. -/
theorem Timely.observedCycleEnd_eq_ok (h : Timely completed current latest) {at_ : ℤ}
    (hat : at_ + fourHours ∈ attemptedEnds completed current) (label : String) :
    observedCycleEnd at_ latest label = .ok (at_ + fourHours) := by
  have hboundary : IsBoundary at_ := by
    simpa using (h.boundaries _ hat).sub_fourHours
  have hmature := h.mature _ hat
  simp only [observedCycleEnd, requireCycleEnd, Except.bind_eq_ok, reject_eq_ok, Except.pure_eq_ok]
  exact ⟨⟨⟩, not_not.mpr hboundary, ⟨⟩, not_lt.mpr hmature, trivial⟩

/-- What is owed from the bar of an attempted end on, or from that end on, is accepted. -/
theorem Timely.futureObligationEnd_eq_ok (h : Timely completed current latest) {at_ basis : ℤ}
    (hat : at_ + fourHours ∈ attemptedEnds completed current)
    (hbasis : basis = at_ ∨ basis = at_ + fourHours) (label : String) :
    futureObligationEnd basis latest label = .ok (basis + fourHours) := by
  have hmature := h.mature _ hat
  have hends := h.boundaries _ hat
  have hlatest := h.latestBoundary
  have hboundary : IsBoundary basis := by
    rcases hbasis with rfl | rfl
    · simpa using hends.sub_fourHours
    · exact hends
  simp only [futureObligationEnd, requireCycleEnd, Except.bind_eq_ok, reject_eq_ok,
    Except.pure_eq_ok]
  refine ⟨⟨⟩, not_not.mpr hboundary, ⟨⟩, ?_, trivial⟩
  rintro ⟨hlate, hskips⟩
  simp only [IsBoundary, fourHours_eq] at hlate hskips hmature hends hlatest hbasis
  rcases hbasis with rfl | rfl <;> omega

/-! ### What each piece of evidence comes to -/

variable (h : Timely completed current latest) (hcovered : Covered completed current latest duties)
include h

omit hcovered in
/-- The duties of the cycles are covered by the attempted ends. -/
theorem Timely.cycleDuties :
    ∃ duties, Service.cycleDuties completed (attemptedEnds completed current) = .ok duties ∧
      Covered completed current latest duties := by
  have hopen : ∀ end_ ∈ current.toList, requiredEnd completed current latest ≤ end_ := by
    intro end_ hend
    obtain rfl := Option.mem_toList.mp hend
    exact le_rfl
  simp only [Service.cycleDuties, unfinished_eq h.spaced]
  by_cases hnone : completed = []
  · subst hnone
    refine ⟨⟨[], current.toList⟩, by simp [Except.pure_eq_ok], by simp,
      fun end_ hend => Or.inr (hopen end_ hend), fun hsome => ?_, fun hidle => ?_⟩
    · cases current with
      | none => exact absurd rfl hsome
      | some end_ => simp [requiredEnd]
    · simpa [attemptedEnds] using hidle
  · obtain ⟨last, hlast⟩ := Option.ne_none_iff_exists'.mp (mt List.getLast?_eq_none_iff.mp hnone)
    have hsome : attemptedEnds completed current ≠ [] :=
      List.ne_nil_of_mem (List.mem_append_left _ (List.mem_of_getLast? hlast))
    have hrequired := (h.required_fresh hsome).2 last hlast
    refine ⟨⟨[], (last + fourHours) :: current.toList⟩, ?_, by simp, fun end_ hend => ?_,
      fun _ => ?_, fun hidle => absurd hidle hsome⟩
    · rw [if_neg hnone]
      simp only [Except.bind_eq_ok, Except.pure_eq_ok]
      exact ⟨_, firstUncompleted_eq_ok h.spaced.left hlast, rfl⟩
    · rcases List.mem_cons.mp hend with rfl | hunfinished
      · exact Or.inr hrequired.le
      · exact Or.inr (hopen end_ hunfinished)
    · rw [hrequired]
      exact List.mem_cons_self

include hcovered

/-- The duty of the last risk decision is covered when its end was attempted. -/
theorem Covered.riskDuty {lastRiskAt : Option ℤ} (hrisk : ∀ at_ ∈ lastRiskAt,
      at_ + fourHours ∈ attemptedEnds completed current) :
    ∃ duties', riskDuty latest duties lastRiskAt = .ok duties' ∧
      Covered completed current latest duties' := by
  cases lastRiskAt with
  | none => exact ⟨duties, rfl, hcovered⟩
  | some at_ =>
    have hat := hrisk at_ rfl
    refine ⟨duties.observe (at_ + fourHours), ?_, hcovered.observe hat⟩
    simp only [Service.riskDuty, h.observedCycleEnd_eq_ok hat, Except.bind_eq_ok, Except.pure_eq_ok]
    exact ⟨_, rfl, rfl⟩

/-- The duty of an order is covered when its ends were attempted. -/
theorem Covered.orderDuty {order : PaperOrder}
    (hsignal : order.signalAtUtc + fourHours ∈ attemptedEnds completed current)
    (hmarket : order.orderKind = .market →
      order.eligibleOpenUtc = order.signalAtUtc + fourHours)
    (hstop : order.orderKind = .stop → order.side = .sell ∧
      order.eligibleOpenUtc + fourHours ∈ attemptedEnds completed current) :
    ∃ duties', orderDuty latest duties order = .ok duties' ∧
      Covered completed current latest duties' := by
  have hobserved := hcovered.observe hsignal
  cases hkind : order.orderKind with
  | market =>
    have hopen := hmarket hkind
    have howed := h.futureObligationEnd_eq_ok hsignal (Or.inr hopen) "order execution"
    refine ⟨_, ?_, hobserved.owe (List.ne_nil_of_mem hsignal) (hopen ▸ h.owed_next hsignal)⟩
    simp only [Service.orderDuty, h.observedCycleEnd_eq_ok hsignal, hkind, howed,
      Except.bind_eq_ok, reject_eq_ok, Except.pure_eq_ok]
    exact ⟨_, rfl, ⟨⟩, not_not.mpr hopen, _, rfl, rfl⟩
  | stop =>
    obtain ⟨hside, htrigger⟩ := hstop hkind
    refine ⟨_, ?_, hobserved.observe htrigger⟩
    simp only [Service.orderDuty, h.observedCycleEnd_eq_ok hsignal,
      h.observedCycleEnd_eq_ok htrigger, hkind, Except.bind_eq_ok, reject_eq_ok, Except.pure_eq_ok]
    exact ⟨_, rfl, ⟨⟩, not_not.mpr hside, _, rfl, rfl⟩

/-- The duty of a fill is covered when its end was attempted. -/
theorem Covered.fillDuty {fill : PaperFill}
    (htime : fill.fillTime + fourHours ∈ attemptedEnds completed current) :
    ∃ duties', fillDuty latest duties fill = .ok duties' ∧
      Covered completed current latest duties' := by
  refine ⟨duties.observe (fill.fillTime + fourHours), ?_, hcovered.observe htime⟩
  simp only [Service.fillDuty, h.observedCycleEnd_eq_ok htime, Except.bind_eq_ok, Except.pure_eq_ok]
  exact ⟨_, rfl, rfl⟩

/-- The duty of the active stop is covered when its end was attempted. -/
theorem Covered.stopDuty {active : Option PaperStop} (hactive : ∀ stop ∈ active,
      stop.observedAtUtc + fourHours ∈ attemptedEnds completed current ∧
        (stop.activeAfterUtc = stop.observedAtUtc ∨
          stop.activeAfterUtc = stop.observedAtUtc + fourHours)) :
    ∃ duties', stopDuty latest duties active = .ok duties' ∧
      Covered completed current latest duties' := by
  cases active with
  | none => exact ⟨duties, rfl, hcovered⟩
  | some stop =>
    obtain ⟨hat, htime⟩ := hactive stop rfl
    have howed : stop.activeAfterUtc + fourHours ∈ completed ∨
        requiredEnd completed current latest ≤ stop.activeAfterUtc + fourHours := by
      rcases htime with htime | htime <;> rw [htime]
      · exact h.owed hat
      · exact h.owed_next hat
    refine ⟨_, ?_, (hcovered.observe hat).owe (List.ne_nil_of_mem hat) howed⟩
    simp only [Service.stopDuty, h.observedCycleEnd_eq_ok hat,
      h.futureObligationEnd_eq_ok hat htime, Except.bind_eq_ok, reject_eq_ok, Except.pure_eq_ok]
    refine ⟨_, rfl, ⟨⟩, ?_, _, rfl, rfl⟩
    rintro ⟨hnow, hlater⟩
    exact htime.elim hnow hlater

/-- The duties of a chronicle keep the chronology. -/
theorem Covered.checkDuties : checkDuties completed duties = .ok () := by
  unfold Service.checkDuties
  split
  · rename_i hcompleted
    obtain ⟨last, hlast⟩ := Option.ne_none_iff_exists'.mp
      (mt List.getLast?_eq_none_iff.mp hcompleted)
    have hsome : attemptedEnds completed current ≠ [] :=
      List.ne_nil_of_mem (List.mem_append_left _ (List.mem_of_getLast? hlast))
    have hrequired := (h.required_fresh hsome).2 last hlast
    simp only [Except.bind_eq_ok, reject_eq_ok]
    refine ⟨_, firstUncompleted_eq_ok h.spaced.left hlast, ⟨⟩, ?_, ?_⟩
    · rintro ⟨direct, hdirect, hopen, hother⟩
      rcases List.mem_append.mp (hcovered.observed direct hdirect) with hdone | hcurrent
      · exact hopen hdone
      · obtain rfl := Option.mem_toList.mp hcurrent
        exact hother hrequired
    · rintro ⟨due, hdue, hopen, hearly⟩
      rcases hcovered.obligations due hdue with hdone | hlater
      · exact hopen hdone
      · omega
  · rename_i hnone
    obtain rfl := not_not.mp hnone
    rw [reject_eq_ok, not_lt]
    have hsubset : duties.observed.dedup ⊆ current.toList := fun direct hdirect => by
      simpa [attemptedEnds] using hcovered.observed direct (List.mem_dedup.mp hdirect)
    have hlength := ((List.nodup_dedup _).subperm hsubset).length_le
    refine hlength.trans ?_
    cases current <;> simp

omit h hcovered in
/-- The first of the sorted instants is the least. -/
theorem head_sortedInstants {ends : List ℤ} {least : ℤ} (hmem : least ∈ ends)
    (hleast : ∀ end_ ∈ ends, least ≤ end_) : (sortedInstants ends).head? = some least := by
  have hperm := List.perm_insertionSort (· ≤ ·) ends
  have hsorted : (sortedInstants ends).Pairwise (· ≤ ·) := List.pairwise_insertionSort _ _
  cases hsort : sortedInstants ends with
  | nil =>
    rw [sortedInstants] at hsort
    rw [hsort] at hperm
    rw [hperm.symm.eq_nil] at hmem
    cases hmem
  | cons first rest =>
    rw [hsort, List.pairwise_cons] at hsorted
    rw [sortedInstants] at hsort
    rw [hsort] at hperm
    have hfirst := hleast first (hperm.subset List.mem_cons_self)
    have hle : first ≤ least := by
      rcases List.mem_cons.mp (hperm.symm.subset hmem) with rfl | hrest
      · exact le_rfl
      · exact hsorted.1 least hrest
    rw [List.head?_cons, le_antisymm hle hfirst]

/-- The oldest end that is left unfinished is the required one. -/
theorem Covered.unfinishedEnds (hsome : attemptedEnds completed current ≠ []) :
    (unfinishedEnds completed duties).head? = some (requiredEnd completed current latest) := by
  have hfresh := (h.required_fresh hsome).1
  refine head_sortedInstants ?_ ?_
  · refine List.mem_filter.mpr ⟨List.mem_append_right _ (hcovered.owed hsome), ?_⟩
    simpa using hfresh
  · intro end_ hend
    obtain ⟨hmem, hopen⟩ := List.mem_filter.mp hend
    have hopen : end_ ∉ completed := by simpa using hopen
    have hdue : end_ ∈ completed ∨ requiredEnd completed current latest ≤ end_ := by
      rcases List.mem_append.mp hmem with hobserved | hobligation
      · exact h.owed (hcovered.observed end_ hobserved)
      · exact hcovered.obligations end_ hobligation
    exact hdue.resolve_left hopen

end Duties

/-! ## The evidence of a chronicle -/

section Evidence

variable {db : Database} {a : Account} {log : List StoredEvent} {completed : List ℤ}
  {current : Option ℤ} {latest : ℤ}

/-- An event of a chronicle that is neither operational nor a mark of a cycle stands at the bar of
an attempted end. -/
theorem Chronicle.atBar (h : Chronicle log completed current) {e : StoredEvent} (he : e ∈ log)
    (hother : isOperational e.eventId e.payload = false)
    (htype : e.payload.eventType ≠ "PAPER_CYCLE" ∧ e.payload.eventType ≠ "PAPER_CYCLE_ATTEMPT") :
    ∃ end_ ∈ attemptedEnds completed current, AtBar end_ e := by
  rcases h.mem_cases he with hoperational | ⟨end_, hend, hattempt | hbar | ⟨-, _, hcompletion⟩⟩
  · rw [hoperational] at hother
    cases hother
  · rw [hattempt.payload] at htype
    exact absurd rfl htype.2
  · exact ⟨end_, hend, hbar⟩
  · rw [hcompletion.payload] at htype
    exact absurd rfl htype.1

/-- An empty log comes of no attempts. -/
theorem Chronicle.attempted_of_nil (h : Chronicle log completed current) (hlog : log = []) :
    attemptedEnds completed current = [] := by
  cases h <;> simp_all [attemptedEnds]

/-- Every order was recorded at an attempted end. -/
theorem Chronicle.order_dated (h : Chronicle log completed current) {m : Stamped OrderMetadata}
    (hm : m ∈ view readOrderMetadata log) :
    m.occurredAtUtc + fourHours ∈ attemptedEnds completed current := by
  obtain ⟨e, he, hread, -, -, htime⟩ := mem_view.mp hm
  cases hpayload : e.payload with
  | paperOrder metadata =>
    obtain ⟨end_, hend, hbar⟩ := h.atBar he (by simp [hpayload, isOperational])
      (by simp [hpayload, Payload.eventType])
    rwa [← htime, hbar.order metadata hpayload]
  | _ => simp [hpayload, readOrderMetadata] at hread

/-- Every fill was recorded at an attempted end. -/
theorem Chronicle.fill_dated (h : Chronicle log completed current) {raw : Stamped RawFill}
    (hraw : raw ∈ view readFill log) :
    raw.occurredAtUtc + fourHours ∈ attemptedEnds completed current := by
  obtain ⟨e, he, hread, -, -, htime⟩ := mem_view.mp hraw
  cases hpayload : e.payload with
  | fill fill =>
    obtain ⟨end_, hend, hbar⟩ := h.atBar he (by simp [hpayload, isOperational])
      (by simp [hpayload, Payload.eventType])
    rwa [← htime, hbar.fill fill hpayload]
  | _ => simp [hpayload, readFill] at hread

/-- Every stop was set at an attempted end. -/
theorem Chronicle.stop_dated (h : Chronicle log completed current) {set : Stamped StopSet}
    (hset : set ∈ view readStopSet log) :
    set.occurredAtUtc + fourHours ∈ attemptedEnds completed current := by
  obtain ⟨e, he, hread, -, -, htime⟩ := mem_view.mp hset
  cases hpayload : e.payload with
  | paperStopSet stop =>
    obtain ⟨end_, hend, hbar⟩ := h.atBar he (by simp [hpayload, isOperational])
      (by simp [hpayload, Payload.eventType])
    rwa [← htime, hbar.stop stop hpayload]
  | _ => simp [hpayload, readStopSet] at hread

/-- A log has a base decision of a bar. -/
def DecidedAt (log : List StoredEvent) (barAt : ℤ) : Prop :=
  ∃ e ∈ log, ∃ payload, e.payload = .breakerState payload ∧ e.eventId = .risk barAt

/-- The cursors of a risk chain are those of base decisions. -/
structure CursorsDecided (log : List StoredEvent) (c : RiskChain) : Prop where
  base : ∀ barAt ∈ c.latestBase.lastRiskAt, DecidedAt log barAt
  projection : ∀ barAt ∈ c.projection.lastRiskAt, DecidedAt log barAt

/-- A round of the chain keeps its cursors at decided bars. -/
theorem CursorsDecided.round {c c' : RiskChain} {e : StoredEvent} (h : CursorsDecided log c)
    (he : e ∈ log) (hround : chainRound c e = .ok c') : CursorsDecided log c' := by
  unfold chainRound at hround
  split at hround
  · cases hround
    exact ⟨h.base, h.projection⟩
  · rename_i payload hpayload
    simp only [Except.bind_eq_ok] at hround
    obtain ⟨_, -, candidate, -, _, -, hround⟩ := hround
    split at hround <;> simp only [Except.bind_eq_ok, Except.pure_eq_ok] at hround <;>
      obtain ⟨c₁, hstep, rfl⟩ := hround
    · -- a follow-up repeats the cursor of the latest base
      simp only [followupRound, Except.bind_eq_ok, require_eq_ok, reject_eq_ok, not_not,
        Except.pure_eq_ok] at hstep
      obtain ⟨_, -, cursor, hcursor, _, hsame, _, -, _, -, _, -, _, -, _, -, _, -, rfl⟩ := hstep
      refine ⟨h.base, fun barAt hbar => h.base barAt ?_⟩
      rw [hcursor, ← hsame]
      exact hbar
    · simp only [baseRound, Except.bind_eq_ok, require_eq_ok, reject_eq_ok, not_not,
        Except.pure_eq_ok] at hstep
      obtain ⟨cursor, hcursor, _, hid, _, -, _, -, _, -, rfl⟩ := hstep
      have hdecided : ∀ barAt ∈ candidate.lastRiskAt, DecidedAt log barAt := by
        intro barAt hbar
        obtain rfl := Option.some.inj (hcursor.symm.trans hbar)
        exact ⟨e, he, payload, hpayload, hid⟩
      exact ⟨hdecided, hdecided⟩
  · cases hround
    exact ⟨h.base, h.projection⟩

/-- The cursor of an accepted risk chain is that of a base decision in the log. -/
theorem decidedAt_of_cursor {snapshot : PaperSnapshot} {chain : RiskChain}
    (h : validateHealthAndRiskChain snapshot = .ok chain) :
    ∀ barAt ∈ chain.projection.lastRiskAt, DecidedAt snapshot.eventEvidence barAt := by
  have hstart : CursorsDecided snapshot.eventEvidence {} := ⟨by simp, by simp⟩
  exact (foldlM_invariant (CursorsDecided snapshot.eventEvidence)
    (fun c c' e he hdecided hround => hdecided.round he hround) hstart (chain_folded h)).projection

/-- Every bar that was decided ends at an attempted end. -/
theorem Chronicle.risk_dated (h : Chronicle log completed current) {barAt : ℤ}
    (hdecided : DecidedAt log barAt) : barAt + fourHours ∈ attemptedEnds completed current := by
  obtain ⟨e, he, payload, hpayload, hid⟩ := hdecided
  obtain ⟨end_, hend, hbar⟩ := h.atBar he (by simp [hpayload, isOperational])
    (by simp [hpayload, Payload.eventType])
  rwa [hbar.risk payload barAt hpayload hid]

/-- The orders that the evidence names are orders of the account. -/
theorem namedOrders_eq_ok (hsound : Sound db a) :
    ∃ orders, (view readOrderMetadata db.events).foldlM (namedOrder db)
      (a.ledger db.events).activeOrders = .ok orders ∧ ∀ order ∈ orders, order ∈ a.orders := by
  refine foldlM_succeeds (fun orders : List PaperOrder => ∀ order ∈ orders, order ∈ a.orders) ?_ ?_
  · intro orders metadata hmetadata hknown
    obtain ⟨order, horder, hfrom⟩ := forall₂_exists_right hsound.coherent.orders hmetadata
    have hid := orderFromMetadata_orderId hfrom
    have hnamed : metadata.body.orderId ≠ .external "" :=
      hid ▸ hsound.coherent.orderId_ne_empty horder
    have hfound : orderById db metadata.body.orderId = .ok order :=
      hsound.orderById_eq_ok.mpr ⟨hnamed, hid ▸ findPaperOrder_of_mem hsound.coherent.nodup horder⟩
    refine ⟨assignOrder orders order, ?_, fun other hother => ?_⟩
    · simp only [namedOrder, Except.bind_eq_ok, reject_eq_ok, Except.pure_eq_ok]
      exact ⟨⟨⟩, hnamed, order, hfound, rfl⟩
    · unfold assignOrder at hother
      split at hother
      · rcases mem_setOrder hother with rfl | ⟨hold, -⟩
        · exact horder
        · exact hknown other hold
      · rcases List.mem_append.mp hother with hold | hnew
        · exact hknown other hold
        · rwa [List.mem_singleton.mp hnew]
  · intro order horder
    exact List.mem_of_mem_filter horder

variable (hsound : Sound db a) (h : Chronicle db.events completed current)
  (htimely : Timely completed current latest)
include hsound h htimely

/-- All that the evidence of a chronicle observes and owes is covered. -/
theorem Chronicle.evidencedDuties {lastRiskAt : Option ℤ}
    (hrisk : ∀ barAt ∈ lastRiskAt, DecidedAt db.events barAt) :
    ∃ duties, Service.evidencedDuties db db.events lastRiskAt (a.ledger db.events) completed
      (attemptedEnds completed current) latest = .ok duties ∧
        Covered completed current latest duties := by
  obtain ⟨cycles, hcycles, hcovered⟩ := htimely.cycleDuties
  obtain ⟨risk, hriskDuty, hcovered⟩ := hcovered.riskDuty htimely
    fun barAt hbar => h.risk_dated (hrisk barAt hbar)
  obtain ⟨orders, horders, hknown⟩ := namedOrders_eq_ok hsound
  have hround : ∀ duties, ∀ order ∈ orders, Covered completed current latest duties →
      ∃ duties', orderDuty latest duties order = .ok duties' ∧
        Covered completed current latest duties' := by
    intro duties order horder hcovered
    have hmem := hknown order horder
    obtain ⟨m, hm, -, hmarket, hstop⟩ := hsound.coherent.order_recorded hmem
    have hdated := h.order_dated hm
    refine hcovered.orderDuty htimely ?_ (fun hkind => (hmarket hkind).1) fun hkind => ?_
    · cases hkind : order.orderKind with
      | market => rwa [(hmarket hkind).2] at hdated
      | stop =>
        obtain ⟨set, hset, hsignal⟩ := hsound.coherent.stopOrder_signal hsound.settled hmem hkind
        exact hsignal ▸ h.stop_dated hset
    · obtain ⟨hside, hrecorded, -⟩ := hstop hkind
      exact ⟨hside, hrecorded ▸ hdated⟩
  obtain ⟨placed, hplaced, hcovered⟩ := foldlM_succeeds _ hround hcovered
  have hfilled : ∀ duties, ∀ fill ∈ (a.ledger db.events).fills,
      Covered completed current latest duties →
        ∃ duties', fillDuty latest duties fill = .ok duties' ∧
          Covered completed current latest duties' := by
    intro duties fill hfill hcovered
    obtain ⟨raw, hraw, -, htime⟩ := hsound.coherent.fill_recorded hfill
    exact hcovered.fillDuty htimely (htime ▸ h.fill_dated hraw)
  obtain ⟨filled, hfills, hcovered⟩ := foldlM_succeeds _ hfilled hcovered
  have hstops : ∀ stop ∈ (a.ledger db.events).activeStop,
      stop.observedAtUtc + fourHours ∈ attemptedEnds completed current ∧
        (stop.activeAfterUtc = stop.observedAtUtc ∨
          stop.activeAfterUtc = stop.observedAtUtc + fourHours) := by
    intro stop hstop
    obtain ⟨⟨set, hset, htime⟩, hactive⟩ :=
      hsound.coherent.stop_recorded (List.mem_of_getLast? hstop)
    exact ⟨htime ▸ h.stop_dated hset, hactive⟩
  obtain ⟨duties, hduties, hcovered⟩ := hcovered.stopDuty htimely hstops
  refine ⟨duties, ?_, hcovered⟩
  simp only [Service.evidencedDuties, Except.bind_eq_ok]
  exact ⟨cycles, hcycles, risk, hriskDuty, orders, horders, placed, hplaced, filled, hfills, hduties⟩

/-- The oldest end that a chronicle leaves unfinished is resolved. -/
theorem Chronicle.oldestRequiredEnd {snapshot : PaperSnapshot} {chain : RiskChain}
    (hsnapshot : replayState db = .ok snapshot)
    (hchain : validateHealthAndRiskChain snapshot = .ok chain)
    (halerts : Alerts.validateOperationalAlertChain db.events = .ok ()) :
    Service.oldestRequiredEnd db latest = .ok (requiredEnd completed current latest) := by
  have hlog : snapshot.eventEvidence = db.events := by
    obtain ⟨s, -, -, rfl⟩ := replayAndVerify_eq_ok.mp hsnapshot
    rfl
  have hrisk : ∀ barAt ∈ chain.projection.lastRiskAt, DecidedAt db.events barAt :=
    hlog ▸ decidedAt_of_cursor hchain
  obtain ⟨duties, hduties, hcovered⟩ := h.evidencedDuties hsound htimely hrisk
  have hends := h.completedCycleEnds hsound fun end_ hend =>
    htimely.mature end_ (List.mem_append_left _ hend)
  have hattempts := h.validatedCycleAttempts hsound htimely.latestBoundary htimely.mature
  have hledger : reconcile db = .ok (a.ledger db.events) := hsound.ledger
  simp only [Service.oldestRequiredEnd, requireCycleEnd, Except.bind_eq_ok, reject_eq_ok]
  refine ⟨⟨⟩, not_not.mpr htimely.latestBoundary, snapshot, hsnapshot, chain, hchain, ⟨⟩,
    hlog ▸ halerts, _, hledger, completed, hlog ▸ hends, _, hlog ▸ hattempts, ?_⟩
  by_cases hsome : attemptedEnds completed current = []
  · obtain ⟨rfl, hnone⟩ := List.append_eq_nil_iff.mp hsome
    obtain rfl : current = none := by simpa using hnone
    have hempty : (unfinishedEnds [] duties).head? = none := by
      have hobserved : duties.observed = [] := by
        refine List.eq_nil_iff_forall_not_mem.mpr fun end_ hend => ?_
        have hmem := hcovered.observed end_ hend
        rw [hsome] at hmem
        cases hmem
      simp [unfinishedEnds, hobserved, hcovered.idle hsome, sortedInstants]
    split
    · rfl
    · simp only [Except.bind_eq_ok]
      refine ⟨duties, hlog ▸ hduties, ⟨⟩, hcovered.checkDuties htimely, ?_⟩
      rw [hempty]
      have hall : (snapshot.eventEvidence.all fun event =>
          event.payload.eventType ∈ operationalTypes) = true := by
        rw [hlog, List.all_eq_true]
        intro e he
        rcases h.mem_cases he with hoperational | ⟨end_, hend, -⟩
        · cases hpayload : e.payload <;>
            simp_all [isOperational, operationalTypes, Payload.eventType]
        · rw [hsome] at hend
          cases hend
      simp only [hall]
      rfl
  · have hnonempty : snapshot.eventEvidence ≠ [] := by
      rw [hlog]
      exact fun hnil => hsome (h.attempted_of_nil hnil)
    rw [if_neg hnonempty]
    simp only [Except.bind_eq_ok]
    refine ⟨duties, hlog ▸ hduties, ⟨⟩, hcovered.checkDuties htimely, ?_⟩
    rw [hcovered.unfinishedEnds htimely hsome]
    rfl

end Evidence

end AutoBit.Service
