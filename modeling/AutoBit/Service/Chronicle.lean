import AutoBit.Broker.Dates
import AutoBit.Broker.Marks
import AutoBit.Library.Grown
import AutoBit.Library.Spaced
import AutoBit.Service.Required

/-!
# The chronicle of scheduled cycles

A log is a chronicle when its cycles come one after the other: the attempt of an end, what
that cycle does at its bar, and its completion, before the attempt of the next end. Health
events and alerts may come in between. The service accepts the cycles of every chronicle
that the broker accepts, and resolves its oldest unfinished end.
-/

namespace AutoBit.Service

open Library Store Broker

/-- An event that a cycle appends at its bar, apart from its attempt and its completion. -/
structure AtBar (end_ : ℤ) (e : StoredEvent) : Prop where
  uncompleted : concernsCycle e = false
  unattempted : e.payload.eventType ≠ "PAPER_CYCLE_ATTEMPT" ∧ namesAttempt e.eventId = false
  order : ∀ m, e.payload = .paperOrder m → e.occurredAtUtc + fourHours = end_
  fill : ∀ fill, e.payload = .fill fill → e.occurredAtUtc + fourHours = end_
  stop : ∀ set, e.payload = .paperStopSet set → e.occurredAtUtc + fourHours = end_
  risk : ∀ payload cursor, e.payload = .breakerState payload → e.eventId = .risk cursor →
    cursor + fourHours = end_

/-- The attempt of an end. -/
structure IsAttempt (end_ : ℤ) (e : StoredEvent) : Prop where
  eventId : e.eventId = .cycleAttempt end_
  occurredAt : e.occurredAtUtc = end_ - fourHours
  payload : e.payload = .paperCycleAttempt ⟨end_, cycleAttemptVersion⟩

/-- A completion that lists orders of its bar only. -/
structure Witnessed (log : List StoredEvent) (completion : CycleCompletion) : Prop where
  status : completion.status = .processed ∨ completion.status = .unsafeData
  reasons : "" ∉ completion.reasonCodes
  created : ∀ id ∈ completion.createdOrderIds,
    (id, completion.endUtc - fourHours) ∈ rootMarks log
  filled : ∀ id ∈ completion.filledOrderIds, ∃ metadata ∈ view readFillMetadata log,
    metadata.body.orderId = id ∧ metadata.occurredAtUtc = completion.endUtc - fourHours
  createdOnce : completion.createdOrderIds.Nodup
  filledOnce : completion.filledOrderIds.Nodup
  unsafeEmpty : completion.status = .unsafeData →
    completion.createdOrderIds = [] ∧ completion.filledOrderIds = []

/-- The completion of an end. -/
structure IsCompletion (end_ : ℤ) (completion : CycleCompletion) (e : StoredEvent) : Prop where
  ends : completion.endUtc = end_
  eventId : e.eventId = .cycle end_
  occurredAt : e.occurredAtUtc = end_
  payload : e.payload = .paperCycle completion

/-- A log of cycles one after the other: the completed ends, and the end that is attempted
without a completion. -/
inductive Chronicle : List StoredEvent → List ℤ → Option ℤ → Prop
  | start : Chronicle [] [] none
  | operational {log : List StoredEvent} {completed : List ℤ} {current : Option ℤ}
      {e : StoredEvent} (h : Chronicle log completed current)
      (hoperational : isOperational e.eventId e.payload = true) :
      Chronicle (log ++ [e]) completed current
  | attempt {log : List StoredEvent} {completed : List ℤ} {end_ : ℤ} {e : StoredEvent}
      (h : Chronicle log completed none) (hboundary : IsBoundary end_)
      (hnext : ∀ last ∈ completed.getLast?, end_ = last + fourHours) (hattempt : IsAttempt end_ e) :
      Chronicle (log ++ [e]) completed (some end_)
  | bar {log : List StoredEvent} {completed : List ℤ} {end_ : ℤ} {e : StoredEvent}
      (h : Chronicle log completed (some end_)) (hbar : AtBar end_ e) :
      Chronicle (log ++ [e]) completed (some end_)
  | complete {log : List StoredEvent} {completed : List ℤ} {end_ : ℤ} {e : StoredEvent}
      {completion : CycleCompletion} (h : Chronicle log completed (some end_))
      (hwitnessed : Witnessed log completion) (hcompletion : IsCompletion end_ completion e) :
      Chronicle (log ++ [e]) (completed ++ [end_]) none

/-- The ends that were attempted. -/
def attemptedEnds (completed : List ℤ) (current : Option ℤ) : List ℤ := completed ++ current.toList

/-- The end that a scheduler must work on: the one that is attempted without a completion, the
one after the last completion, or the latest one when there is neither. -/
def requiredEnd (completed : List ℤ) (current : Option ℤ) (latestMatured : ℤ) : ℤ :=
  current.getD ((completed.getLast?.map (· + fourHours)).getD latestMatured)

/-- Four hours are a positive time. -/
theorem fourHours_pos : 0 < fourHours := by simp [fourHours_eq]

section Grammar

variable {log : List StoredEvent} {completed : List ℤ} {current : Option ℤ} {end_ : ℤ}

/-- An operational event may stand at any bar. -/
theorem atBar_of_isOperational {e : StoredEvent} (h : isOperational e.eventId e.payload = true)
    (end_ : ℤ) : AtBar end_ e where
  uncompleted := by
    cases hpayload : e.payload <;> simp_all [isOperational, concernsCycle, Payload.eventType]
  unattempted := by
    cases hpayload : e.payload <;> simp_all [isOperational, Payload.eventType]
  order := fun m hm => by simp [hm, isOperational] at h
  fill := fun fill hfill => by simp [hfill, isOperational] at h
  stop := fun set hset => by simp [hset, isOperational] at h
  risk := fun payload cursor hpayload _ => by simp [hpayload, isOperational] at h

/-- What a cycle does at its bar keeps a chronicle. -/
theorem Chronicle.grown {more : List StoredEvent} (h : Chronicle log completed (some end_))
    (hgrown : Grown (AtBar end_) log more) : Chronicle more completed (some end_) := by
  obtain ⟨block, rfl, hblock⟩ := hgrown
  induction block using List.reverseRecOn with
  | nil => simpa using h
  | append_singleton block e ih =>
    rw [← List.append_assoc]
    refine .bar (ih fun other hother => hblock other ?_) (hblock e ?_)
    · exact List.mem_append_left _ hother
    · exact List.mem_append_right _ (List.mem_singleton_self e)

/-- What an event of a chronicle is. -/
theorem Chronicle.mem_cases (h : Chronicle log completed current) {e : StoredEvent} (he : e ∈ log) :
    isOperational e.eventId e.payload = true ∨
      ∃ end_ ∈ attemptedEnds completed current, IsAttempt end_ e ∨ AtBar end_ e ∨
        end_ ∈ completed ∧ ∃ completion, IsCompletion end_ completion e := by
  induction h with
  | start => cases he
  | operational _ hoperational ih =>
    rcases List.mem_append.mp he with hold | hnew
    · exact ih hold
    · rw [List.mem_singleton.mp hnew]
      exact Or.inl hoperational
  | attempt _ _ _ hattempt ih =>
    rcases List.mem_append.mp he with hold | hnew
    · refine (ih hold).imp_right ?_
      rintro ⟨end_, hend, hcases⟩
      exact ⟨end_, List.mem_append_left _ (by simpa [attemptedEnds] using hend), hcases⟩
    · rw [List.mem_singleton.mp hnew]
      exact Or.inr ⟨_, by simp [attemptedEnds], Or.inl hattempt⟩
  | bar _ hbar ih =>
    rcases List.mem_append.mp he with hold | hnew
    · exact ih hold
    · rw [List.mem_singleton.mp hnew]
      exact Or.inr ⟨_, by simp [attemptedEnds], Or.inr (Or.inl hbar)⟩
  | complete _ _ hcompletion ih =>
    rcases List.mem_append.mp he with hold | hnew
    · refine (ih hold).imp_right ?_
      rintro ⟨end_, hend, hcases⟩
      refine ⟨end_, by simpa [attemptedEnds] using hend, hcases.imp_right (Or.imp_right ?_)⟩
      rintro ⟨hdone, hcompleted⟩
      exact ⟨List.mem_append_left _ hdone, hcompleted⟩
    · rw [List.mem_singleton.mp hnew]
      exact Or.inr ⟨_, by simp [attemptedEnds], Or.inr (Or.inr ⟨by simp, _, hcompletion⟩)⟩

/-- The attempted ends of a chronicle are boundaries, each four hours after the one before it. -/
theorem Chronicle.ends (h : Chronicle log completed current) :
    Spaced fourHours (attemptedEnds completed current) ∧
      ∀ end_ ∈ attemptedEnds completed current, IsBoundary end_ := by
  induction h with
  | start => exact ⟨spaced_nil, by simp [attemptedEnds]⟩
  | operational _ _ ih => exact ih
  | @attempt log completed end_ e _ hboundary hnext _ ih =>
    obtain ⟨hchain, hboundaries⟩ := ih
    simp only [attemptedEnds, Option.toList_none, List.append_nil] at hchain hboundaries
    refine ⟨spaced_snoc.mpr ⟨hchain, hnext⟩, fun end' hend => ?_⟩
    rcases List.mem_append.mp hend with hold | hnew
    · exact hboundaries end' hold
    · rw [List.mem_singleton.mp hnew]
      exact hboundary
  | bar _ _ ih => exact ih
  | complete _ _ _ ih => simpa [attemptedEnds] using ih

end Grammar

/-! ## Completions that are accepted -/

/-- A list without repetitions has one item with a property that only that item has. -/
theorem length_filter_eq_one {α : Type} {p : α → Bool} {xs : List α} {x : α} (hnodup : xs.Nodup)
    (hx : x ∈ xs) (hp : p x = true) (honly : ∀ y ∈ xs, p y = true → y = x) :
    (xs.filter p).length = 1 := by
  have hperm : (xs.filter p).Perm [x] := by
    refine (List.perm_ext_iff_of_nodup (hnodup.filter _) (List.nodup_singleton x)).mpr fun y => ?_
    rw [List.mem_filter, List.mem_singleton]
    exact ⟨fun hy => honly y hy.1 hy.2, fun hy => hy ▸ ⟨hx, hp⟩⟩
  exact hperm.length_eq

/-- An order of the database is evidenced. -/
theorem evidencedOrder_eq_ok {db : Database} {id : PaperId} {order : PaperOrder} {missing : String}
    (h : orderById db id = .ok order) : evidencedOrder db id missing = .ok order := by
  rw [evidencedOrder, h]
  rfl

section Completions

variable {db : Database} {a : Account} (hsound : Sound db a) {before after : List StoredEvent}
  {e : StoredEvent} (hevents : db.events = before ++ e :: after)
include hsound hevents

/-- What stands before an event has smaller sequence numbers. -/
theorem sequence_lt_of_before {x : StoredEvent} (hx : x ∈ before) : x.sequence < e.sequence := by
  have hnumbers : (db.events.map (·.sequence)).Pairwise (· < ·) := by
    rw [hsound.coherent.envelopes.sequences]
    exact List.pairwise_lt_range'
  rw [List.pairwise_map, hevents, List.pairwise_append] at hnumbers
  exact hnumbers.2.2 x hx e (by simp)

/-- An order that was placed at a bar passes as created at it. -/
theorem validateCreated_eq_ok {barAt : ℤ} {id : PaperId} (hroot : (id, barAt) ∈ rootMarks before) :
    validateCreated db db.events e.sequence barAt id = .ok () := by
  obtain ⟨m, hm, hmark⟩ := List.mem_map.mp hroot
  obtain ⟨hmem, hisRoot⟩ := List.mem_filter.mp hm
  obtain ⟨rfl, rfl⟩ := Prod.mk.inj hmark
  obtain ⟨hmarket, hparent⟩ : m.body.orderKind = .market ∧ m.body.parentOrderId = none := by
    simpa [isRoot] using hisRoot
  have hlog : m ∈ view readOrderMetadata db.events := by
    rw [hevents, view_append]
    exact List.mem_append_left _ hmem
  have hearly : m.sequence < e.sequence := by
    obtain ⟨x, hx, -, hsequence, -⟩ := mem_view.mp hmem
    exact hsequence ▸ sequence_lt_of_before hsound hevents hx
  have hnodup := hsound.coherent.metadata_nodup
  have hone : ((view readOrderMetadata db.events).filter fun candidate =>
      candidate.body.orderId = m.body.orderId ∧ candidate.sequence < e.sequence).length = 1 := by
    refine length_filter_eq_one (List.Nodup.of_map _ hnodup) hlog (by simpa using hearly) ?_
    intro other hother hsame
    exact List.inj_on_of_nodup_map hnodup hother hlog (by simpa using (of_decide_eq_true hsame).1)
  obtain ⟨order, horder, hfrom⟩ := forall₂_exists_right hsound.coherent.orders hlog
  have hnamed : m.body.orderId ≠ .external "" := by
    rw [← orderFromMetadata_orderId hfrom]
    exact hsound.coherent.orderId_ne_empty horder
  obtain ⟨_, _, _, _, _, _, _, _, -, -, -, -, -, -, -, rfl⟩ := orderFromMetadata_eq_ok.mp hfrom
  have hfound := hsound.orderById_eq_ok.mpr ⟨hnamed, findPaperOrder_of_mem hsound.coherent.nodup horder⟩
  simp only [validateCreated, Except.bind_eq_ok, reject_eq_ok, hone, not_not]
  refine ⟨⟨⟩, trivial, _, evidencedOrder_eq_ok hfound, ⟨⟩, ?_, rfl⟩
  simp [paperOrder, hmarket, hparent]

/-- An order that was filled at a bar passes as filled at it. -/
theorem validateFilled_eq_ok {barAt : ℤ} {id : PaperId} (hfilled : ∃ metadata ∈
      view readFillMetadata before, metadata.body.orderId = id ∧ metadata.occurredAtUtc = barAt) :
    validateFilled db db.events (a.ledger db.events) e.sequence barAt id = .ok () := by
  obtain ⟨metadata, hmem, rfl, rfl⟩ := hfilled
  have hcoherent := hsound.coherent
  have hlog : metadata ∈ view readFillMetadata db.events := by
    rw [hevents, view_append]
    exact List.mem_append_left _ hmem
  have hearly : metadata.sequence < e.sequence := by
    obtain ⟨x, hx, -, hsequence, -⟩ := mem_view.mp hmem
    exact hsequence ▸ sequence_lt_of_before hsound hevents hx
  have hnodup := (scanEvidence_eq_ok.mp hcoherent.evidence).2.2.2.2.2.1
  have hone : ((view readFillMetadata db.events).filter fun candidate =>
      candidate.body.orderId = metadata.body.orderId ∧
        candidate.occurredAtUtc = metadata.occurredAtUtc ∧
        candidate.sequence < e.sequence).length = 1 := by
    refine length_filter_eq_one (List.Nodup.of_map _ hnodup) hlog (by simpa using hearly) ?_
    intro other hother hsame
    exact hcoherent.fillMetadata_unique hother hlog (of_decide_eq_true hsame).1
  obtain ⟨raw, hraw, -, horderId, htime⟩ := hcoherent.raw_of_metadata hlog
  obtain ⟨fill, hfill, hbody, -, hfillTime⟩ := forall₂_exists_right hcoherent.raws hraw
  have hfillId : fill.orderId = metadata.body.orderId := by
    rw [← horderId, ← hbody]
    rfl
  have honeFill : ((a.ledger db.events).fills.filter fun fill =>
      fill.orderId = metadata.body.orderId ∧ fill.fillTime = metadata.occurredAtUtc).length = 1 := by
    refine length_filter_eq_one (List.Nodup.of_map _ hcoherent.fills_nodup) hfill
      (by simp [hfillId, hfillTime, htime]) ?_
    intro other hother hsame
    exact hcoherent.paperFill_unique hother hfill
      ((of_decide_eq_true hsame).1.trans hfillId.symm)
  obtain ⟨order, hfound, -⟩ := hcoherent.order_of_fill hraw
  obtain ⟨horder, hid⟩ := findPaperOrder_some hfound
  obtain ⟨_, -, -, -, hstop⟩ := hcoherent.order_recorded horder
  have hnamed : metadata.body.orderId ≠ .external "" := by
    rw [← horderId, ← hid]
    exact hcoherent.orderId_ne_empty horder
  have hfound := hsound.orderById_eq_ok.mpr ⟨hnamed, horderId ▸ hfound⟩
  simp only [validateFilled, Except.bind_eq_ok, reject_eq_ok, hone, honeFill]
  refine ⟨⟨⟩, by simp, order, evidencedOrder_eq_ok hfound, ?_⟩
  rintro ⟨hkind, hside⟩
  exact hside (hstop hkind).1

/-- A completion that lists orders of its bar only is accepted. -/
theorem validateCycleEvent_eq_ok {end_ : ℤ} {completion : CycleCompletion}
    (hwitnessed : Witnessed before completion) (hcompletion : IsCompletion end_ completion e) :
    validateCycleEvent db db.events e end_ = .ok () := by
  obtain ⟨rfl, -, htime, hpayload⟩ := hcompletion
  have hcreated : ∀ id ∈ completion.createdOrderIds, validateCreated db db.events e.sequence
      (completion.endUtc - fourHours) id = .ok () :=
    fun id hid => validateCreated_eq_ok hsound hevents (hwitnessed.created id hid)
  have hfilled : ∀ id ∈ completion.filledOrderIds, validateFilled db db.events
      (a.ledger db.events) e.sequence (completion.endUtc - fourHours) id = .ok () :=
    fun id hid => validateFilled_eq_ok hsound hevents (hwitnessed.filled id hid)
  have hnamed : .external "" ∉ completion.createdOrderIds ∧
      .external "" ∉ completion.filledOrderIds := by
    constructor
    · intro hmem
      obtain ⟨m, hm, hmark⟩ := List.mem_map.mp (hwitnessed.created _ hmem)
      have hlog : m ∈ view readOrderMetadata db.events := by
        rw [hevents, view_append]
        exact List.mem_append_left _ (List.mem_filter.mp hm).1
      obtain ⟨order, horder, hfrom⟩ := forall₂_exists_right hsound.coherent.orders hlog
      refine hsound.coherent.orderId_ne_empty horder ?_
      rw [orderFromMetadata_orderId hfrom]
      exact (Prod.mk.inj hmark).1
    · intro hmem
      obtain ⟨metadata, hmetadata, hid, -⟩ := hwitnessed.filled _ hmem
      have hlog : metadata ∈ view readFillMetadata db.events := by
        rw [hevents, view_append]
        exact List.mem_append_left _ hmetadata
      obtain ⟨raw, hraw, -, horderId, -⟩ := hsound.coherent.raw_of_metadata hlog
      obtain ⟨order, hfound, -⟩ := hsound.coherent.order_of_fill hraw
      obtain ⟨horder, hsame⟩ := findPaperOrder_some hfound
      exact hsound.coherent.orderId_ne_empty horder (by rw [hsame, horderId, hid])
  have hledger : buildLedger db = .ok (a.ledger db.events) := hsound.ledger
  simp only [validateCycleEvent, hpayload, validateCompletion, Except.bind_eq_ok, reject_eq_ok,
    Except.forM_eq_ok]
  refine ⟨⟨⟩, ?_, ⟨⟩, by simp, ⟨⟩, ?_, ⟨⟩, ?_, ⟨⟩, ?_, ⟨⟩, ?_, _, hledger, ⟨⟩, hcreated, hfilled⟩
  · simp [Payload.eventType, htime]
  · have hstatus := hwitnessed.status
    tauto
  · have hreasons := hwitnessed.reasons
    tauto
  · exact not_not.mpr ⟨hwitnessed.createdOnce, hwitnessed.filledOnce⟩
  · exact fun hunsafe => hunsafe.2 (hwitnessed.unsafeEmpty hunsafe.1)

end Completions

/-! ## Cycles that are read back -/

section Cycles

variable {db : Database} {a : Account} (hsound : Sound db a) {log after : List StoredEvent}
  {completed : List ℤ} {current : Option ℤ} {latest : ℤ}

/-- Without a current attempt the attempted ends are the completed ones. -/
theorem attemptedEnds_none : attemptedEnds completed none = completed := by simp [attemptedEnds]

/-- The end that is attempted without a completion comes after the completed ones. -/
theorem current_fresh (h : Spaced fourHours (attemptedEnds completed current)) {end_ : ℤ}
    (hcurrent : end_ ∈ current) : end_ ∉ completed ∧
      ∀ last ∈ completed.getLast?, end_ = last + fourHours := by
  obtain rfl := Option.mem_def.mp hcurrent
  refine ⟨fun hmem => ?_, (spaced_snoc.mp h).2⟩
  exact List.disjoint_of_nodup_append (h.nodup fourHours_pos) hmem (by simp)

/-- The ends that are attempted and not completed. -/
theorem unfinished_eq (h : Spaced fourHours (attemptedEnds completed current)) :
    (attemptedEnds completed current).filter (· ∉ completed) = current.toList := by
  rw [attemptedEnds, List.filter_append]
  have hdone : completed.filter (· ∉ completed) = [] := by simp
  have hopen : current.toList.filter (· ∉ completed) = current.toList := by
    rw [List.filter_eq_self]
    intro end_ hend
    simpa using (current_fresh h (Option.mem_toList.mp hend)).1
  rw [hdone, hopen, List.nil_append]

include hsound in
/-- The completions of a chronicle are accepted one after the other. -/
theorem Chronicle.completedRounds (h : Chronicle log completed current)
    (hevents : db.events = log ++ after) (hmature : ∀ end_ ∈ completed, end_ ≤ latest) :
    log.foldlM (completedRound db db.events latest) [] = .ok completed := by
  have hother : ∀ {e : StoredEvent} (found : List ℤ), concernsCycle e = false →
      completedRound db db.events latest found e = .ok found := by
    intro e found hnone
    rw [completedRound, if_pos hnone]
  induction h generalizing after with
  | start => rfl
  | @operational log completed current e _ hoperational ih =>
    rw [List.append_assoc] at hevents
    exact foldlM_snoc_eq_ok.mpr
      ⟨completed, ih hevents hmature, hother _ (atBar_of_isOperational hoperational 0).uncompleted⟩
  | @attempt log completed end_ e _ _ _ hattempt ih =>
    rw [List.append_assoc] at hevents
    refine foldlM_snoc_eq_ok.mpr ⟨completed, ih hevents hmature, hother _ ?_⟩
    simp [concernsCycle, hattempt.payload, hattempt.eventId, Payload.eventType, namesCycle]
  | @bar log completed end_ e _ hbar ih =>
    rw [List.append_assoc] at hevents
    exact foldlM_snoc_eq_ok.mpr ⟨completed, ih hevents hmature, hother _ hbar.uncompleted⟩
  | @complete log completed end_ e completion h hwitnessed hcompletion ih =>
    rw [List.append_assoc] at hevents
    have hbefore : ∀ end' ∈ completed, end' ≤ latest :=
      fun end' hend => hmature end' (List.mem_append_left _ hend)
    have hboundary := h.ends.2 end_ (by simp [attemptedEnds])
    have hvalid := validateCycleEvent_eq_ok hsound hevents hwitnessed hcompletion
    refine foldlM_snoc_eq_ok.mpr ⟨completed, ih hevents hbefore, ?_⟩
    have hconcerns : concernsCycle e = true := by
      simp [concernsCycle, hcompletion.payload, Payload.eventType]
    rw [completedRound, if_neg (by simp [hconcerns])]
    simp only [hcompletion.occurredAt, hcompletion.eventId, Except.bind_eq_ok, reject_eq_ok,
      Except.pure_eq_ok]
    refine ⟨⟨⟩, not_not.mpr hboundary, ⟨⟩, by simp, ⟨⟩, ?_, ⟨⟩, hvalid, ⟨⟩,
      (current_fresh h.ends.1 rfl).1, trivial⟩
    exact not_lt.mpr (hmature end_ (by simp))

/-- Evenly spaced ends pass the check of the chronology. -/
theorem contiguousEnds_of_spaced {ends : List ℤ} (h : Spaced fourHours ends) :
    contiguousEnds (sortedInstants ends) = true := by
  rw [sortedInstants, h.insertionSort_eq fourHours_pos, contiguousEnds, List.all_eq_true]
  intro pair hpair
  exact decide_eq_true (h.zip_tail pair hpair)

include hsound in
/-- The completions of a chronicle are accepted. -/
theorem Chronicle.completedCycleEnds (h : Chronicle db.events completed current)
    (hmature : ∀ end_ ∈ completed, end_ ≤ latest) :
    Service.completedCycleEnds db db.events latest = .ok completed := by
  have hrounds := h.completedRounds hsound (List.append_nil _).symm hmature
  simp only [Service.completedCycleEnds, Except.bind_eq_ok, reject_eq_ok, Except.pure_eq_ok]
  exact ⟨completed, hrounds, ⟨⟩, by simp [contiguousEnds_of_spaced h.ends.1.left], rfl⟩

/-- The first end that is not completed is the one after the last. -/
theorem firstUncompleted_eq_ok (h : Spaced fourHours completed) {last : ℤ}
    (hlast : last ∈ completed.getLast?) :
    firstUncompletedAfterCycleChain completed = .ok (last + fourHours) := by
  rw [firstUncompletedAfterCycleChain, sortedInstants, h.insertionSort_eq fourHours_pos,
    Option.mem_def.mp hlast]
  rfl

/-- What a chronicle says of the attempts that are read back: their targets, that they stand in
the log, and that the completion of a target comes after its attempt. -/
structure Attempted (log : List StoredEvent) (completed : List ℤ) (current : Option ℤ)
    (attempts : Attempts) : Prop where
  targets : attempts.map Prod.fst = attemptedEnds completed current
  standing : ∀ attempt ∈ attempts, ∃ x ∈ log, x.sequence = attempt.2
  closed : ∀ attempt ∈ attempts, attempt.1 ∈ completed →
    ∃ terminal ∈ terminalCycle log attempt.1, attempt.2 < terminal.sequence

/-- The terminal cycle of an end is the last one of the log. -/
theorem terminalCycle_snoc (log : List StoredEvent) (e : StoredEvent) (target : ℤ) :
    terminalCycle (log ++ [e]) target =
      if e.payload.eventType = "PAPER_CYCLE" ∧ e.occurredAtUtc = target then some e
      else terminalCycle log target := by
  unfold terminalCycle
  rw [List.filter_append]
  split
  · rename_i hmatch
    rw [List.filter_cons_of_pos (by simpa using hmatch)]
    simp
  · rename_i hmatch
    rw [List.filter_cons_of_neg (by simpa using hmatch)]
    simp

/-- An event that is no completion leaves the attempts as they are read. -/
theorem Attempted.other {attempts : Attempts} {e : StoredEvent}
    (h : Attempted log completed current attempts) (hother : concernsCycle e = false) :
    Attempted (log ++ [e]) completed current attempts := by
  have htype : e.payload.eventType ≠ "PAPER_CYCLE" := by
    intro htype
    simp [concernsCycle, htype] at hother
  refine ⟨h.targets, fun attempt hattempt => ?_, fun attempt hattempt hdone => ?_⟩
  · obtain ⟨x, hx, hsequence⟩ := h.standing attempt hattempt
    exact ⟨x, List.mem_append_left _ hx, hsequence⟩
  · rw [terminalCycle_snoc, if_neg fun hboth => htype hboth.1]
    exact h.closed attempt hattempt hdone

/-- An event that is no attempt leaves the attempts alone. -/
theorem attemptRound_other {attempts : Attempts} {e : StoredEvent}
    (htype : e.payload.eventType ≠ "PAPER_CYCLE_ATTEMPT") (hname : namesAttempt e.eventId = false) :
    attemptRound latest attempts e = .ok attempts := by
  unfold attemptRound
  split
  · rename_i attempt hpayload
    exact absurd (by rw [hpayload]; rfl) htype
  · simp only [Except.bind_eq_ok, reject_eq_ok, Except.pure_eq_ok]
    exact ⟨⟨⟩, htype, ⟨⟩, by simp [hname], trivial⟩

include hsound in
/-- The attempts of a chronicle are accepted one after the other. -/
theorem Chronicle.attemptRounds (h : Chronicle log completed current)
    (hevents : db.events = log ++ after)
    (hmature : ∀ end_ ∈ attemptedEnds completed current, end_ ≤ latest) :
    ∃ attempts, log.foldlM (attemptRound latest) [] = .ok attempts ∧
      Attempted log completed current attempts := by
  induction h generalizing after with
  | start => exact ⟨[], rfl, ⟨rfl, by simp, by simp⟩⟩
  | operational _ hoperational ih =>
    rw [List.append_assoc] at hevents
    obtain ⟨attempts, hrounds, hattempted⟩ := ih hevents hmature
    have hbar := atBar_of_isOperational hoperational 0
    exact ⟨attempts, foldlM_snoc_eq_ok.mpr ⟨attempts, hrounds,
      attemptRound_other hbar.unattempted.1 hbar.unattempted.2⟩, hattempted.other hbar.uncompleted⟩
  | @attempt log completed end_ e h hboundary hnext hattempt ih =>
    rw [List.append_assoc] at hevents
    obtain ⟨attempts, hrounds, hattempted⟩ := ih hevents fun end' hend =>
      hmature end' (List.mem_append_left _ (by simpa [attemptedEnds] using hend))
    have hfresh := current_fresh (Chronicle.attempt h hboundary hnext hattempt).ends.1 rfl
    have htargets := hattempted.targets
    rw [attemptedEnds_none] at htargets
    have hquiet : concernsCycle e = false := by
      simp [concernsCycle, hattempt.payload, hattempt.eventId, Payload.eventType, namesCycle]
    have hkept := hattempted.other hquiet
    refine ⟨attempts ++ [(end_, e.sequence)], foldlM_snoc_eq_ok.mpr ⟨attempts, hrounds, ?_⟩, ?_⟩
    · simp only [attemptRound, hattempt.payload, Except.bind_eq_ok, reject_eq_ok,
        Except.pure_eq_ok, htargets]
      refine ⟨⟨⟩, by simp, ⟨⟩, not_not.mpr hboundary, ⟨⟩, by simp [hattempt.eventId], ⟨⟩,
        by simp [hattempt.occurredAt], ⟨⟩, ?_, ⟨⟩, hfresh.1, trivial⟩
      exact not_lt.mpr (hmature end_ (by simp [attemptedEnds]))
    · refine ⟨?_, ?_, ?_⟩
      · rw [List.map_append, htargets]
        rfl
      · intro attempt hmem
        rcases List.mem_append.mp hmem with hold | hnew
        · exact hkept.standing attempt hold
        · rw [List.mem_singleton.mp hnew]
          exact ⟨e, by simp, rfl⟩
      · intro attempt hmem hdone
        rcases List.mem_append.mp hmem with hold | hnew
        · exact hkept.closed attempt hold hdone
        · rw [List.mem_singleton.mp hnew] at hdone
          exact absurd hdone hfresh.1
  | bar _ hbar ih =>
    rw [List.append_assoc] at hevents
    obtain ⟨attempts, hrounds, hattempted⟩ := ih hevents hmature
    exact ⟨attempts, foldlM_snoc_eq_ok.mpr ⟨attempts, hrounds,
      attemptRound_other hbar.unattempted.1 hbar.unattempted.2⟩, hattempted.other hbar.uncompleted⟩
  | @complete log completed end_ e completion h hwitnessed hcompletion ih =>
    rw [List.append_assoc] at hevents
    obtain ⟨attempts, hrounds, hattempted⟩ := ih hevents (by simpa [attemptedEnds] using hmature)
    refine ⟨attempts, foldlM_snoc_eq_ok.mpr ⟨attempts, hrounds, ?_⟩, ?_⟩
    · refine attemptRound_other ?_ ?_
      · simp [hcompletion.payload, Payload.eventType]
      · rw [hcompletion.eventId]
        rfl
    · refine ⟨by simpa [attemptedEnds] using hattempted.targets, ?_, ?_⟩
      · intro attempt hmem
        obtain ⟨x, hx, hsequence⟩ := hattempted.standing attempt hmem
        exact ⟨x, List.mem_append_left _ hx, hsequence⟩
      · intro attempt hmem hdone
        rw [terminalCycle_snoc]
        split
        · obtain ⟨x, hx, hsequence⟩ := hattempted.standing attempt hmem
          exact ⟨e, rfl, hsequence ▸ sequence_lt_of_before hsound hevents hx⟩
        · rename_i hother
          rcases List.mem_append.mp hdone with hold | hnew
          · exact hattempted.closed attempt hmem hold
          · refine absurd ⟨?_, ?_⟩ hother
            · rw [hcompletion.payload]
              rfl
            · rw [hcompletion.occurredAt, List.mem_singleton.mp hnew]

include hsound in
/-- The attempts of a chronicle are accepted. -/
theorem Chronicle.validatedCycleAttempts (h : Chronicle db.events completed current)
    (hlatest : IsBoundary latest)
    (hmature : ∀ end_ ∈ attemptedEnds completed current, end_ ≤ latest) :
    Service.validatedCycleAttempts db.events completed latest =
      .ok (attemptedEnds completed current) := by
  obtain ⟨attempts, hrounds, hattempted⟩ := h.attemptRounds hsound (List.append_nil _).symm hmature
  have hunfinished : unfinishedTargets (attempts.map Prod.fst) completed = current.toList := by
    rw [unfinishedTargets, hattempted.targets, unfinished_eq h.ends.1]
    cases current <;> rfl
  simp only [Service.validatedCycleAttempts, requireCycleEnd, Except.bind_eq_ok, reject_eq_ok]
  refine ⟨⟨⟩, not_not.mpr hlatest, attempts, hrounds, ⟨⟩, ?_, ⟨⟩, ?_, ?_⟩
  · rintro ⟨attempt, hmem, hdone, hnone⟩
    exact hnone (hattempted.closed attempt hmem hdone)
  · rw [hunfinished]
    cases current <;> simp
  · rw [hunfinished, hattempted.targets]
    cases current with
    | none => rfl
    | some end_ =>
      simp only [Option.toList_some, List.head?_cons]
      split
      · rename_i hsome
        obtain ⟨last, hlast⟩ := Option.ne_none_iff_exists'.mp
          (mt List.getLast?_eq_none_iff.mp hsome)
        simp only [Except.bind_eq_ok, reject_eq_ok, Except.pure_eq_ok]
        exact ⟨_, firstUncompleted_eq_ok h.ends.1.left hlast, ⟨⟩,
          not_not.mpr ((current_fresh h.ends.1 rfl).2 last hlast), trivial⟩
      · rfl

end Cycles

end AutoBit.Service
