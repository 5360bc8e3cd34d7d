import AutoBit.Alerts.Notifier
import Mathlib.Data.List.Nodup
import Mathlib.Logic.Function.Basic
import Mathlib.Logic.Relation

/-!
# Alerts at most once

Any number of calls deliver alerts over one store, each in its own process, while other
writers append to the store and any call may crash. A call claims its alert with the
attempt that it appends: the identity of the attempt is unique in the log, so no two calls
for one source reach their sends.
-/

namespace AutoBit.Alerts

open Library Store

/-- A send of the notifier, with the durable log at the time. -/
structure Send (ι : Type) where
  call : ι
  log : List StoredEvent

/-- The store, the phase of every call, and the sends so far. -/
structure System (ι : Type) where
  db : Database
  phase : ι → Phase
  sends : List (Send ι)

/-- The empty store, before any call begins. -/
def System.init (ι : Type) : System ι := ⟨{}, fun _ => .checking, []⟩

section

variable {ι : Type} [DecidableEq ι]

/-- The system after one call has moved. -/
def System.set (s : System ι) (i : ι) (db : Database) (phase : Phase) : System ι :=
  { s with db, phase := Function.update s.phase i phase }

/-- The system after one access of a call. -/
def System.access (s : System ι) (alert : Alert) (i : ι) : System ι :=
  s.set i (advance alert s.db (s.phase i)).1 (advance alert s.db (s.phase i)).2

/-- The system after a call has sent. -/
def System.send (s : System ι) (i : ι) : System ι :=
  { s.set i s.db .awaiting with sends := s.sends ++ [⟨i, s.db.events⟩] }

/-- One access of a call, as a relation on the store and the phase. -/
def Advances (alert : Alert) (x y : Database × Phase) : Prop := y = advance alert x.1 x.2

/-- The steps of the system. A call without a boundary makes one access at a time; a call with
one makes its accesses uninterrupted until the boundary commits. The store may refuse an
access, the notifier may answer, raise or never come back, and a call may crash. -/
inductive Step (alert : ι → Alert) (admits : Payload → Prop) (s : System ι) : System ι → Prop where
  | advance (i : ι) : (alert i).bounded = false →
      Step alert admits s (s.access (alert i) i)
  | boundary (i : ι) {db' : Database} {phase' : Phase} : (alert i).bounded = true →
      Relation.ReflTransGen (Advances (alert i)) (s.db, s.phase i) (db', phase') →
      phase'.inStore = false → Step alert admits s (s.set i db' phase')
  | refuse (i : ι) (failure : Failure) :
      Step alert admits s (s.set i s.db ((s.phase i).refused failure))
  | send (i : ι) : s.phase i = .sending → Step alert admits s (s.send i)
  | answer (i : ι) (delivered : Bool) : s.phase i = .awaiting →
      Step alert admits s (s.set i s.db
        (if delivered then .finished (some true) else .viewing .failure))
  | throw (i : ι) (failure : Failure) : s.phase i = .awaiting →
      Step alert admits s (s.set i s.db (.raised failure))
  | crash (i : ι) : Step alert admits s (s.set i s.db .crashed)
  | foreign {db' : Database} : Foreign admits s.db db' → Step alert admits s { s with db := db' }

/-- The systems that runs from the empty store reach. -/
def Reached (alert : ι → Alert) (admits : Payload → Prop) (s : System ι) : Prop :=
  Relation.ReflTransGen (Step alert admits) (System.init ι) s

end

/-! ## The invariant -/

/-- Whether a call has found its source and has not yet claimed. -/
def Phase.claiming : Phase → Bool
  | .viewing .attempt | .appending .attempt _ | .confirming .attempt => true
  | _ => false

/-- Whether a call may still come to its send. -/
def Phase.beforeSend : Phase → Bool
  | .checking | .viewing .attempt | .appending .attempt _ | .confirming .attempt | .sending => true
  | _ => false

/-- Whether a call has sent and is not over. -/
def Phase.afterSend : Phase → Bool
  | .awaiting | .viewing .failure | .appending .failure _ | .confirming .failure => true
  | _ => false

/-- A call that is over has nothing left to do. -/
theorem Phase.of_over {phase : Phase} (h : phase.over = true) : phase.claiming = false ∧
    phase.beforeSend = false ∧ phase.afterSend = false ∧ phase ≠ .sending := by
  cases phase <;> simp_all [Phase.over, Phase.claiming, Phase.beforeSend, Phase.afterSend]

section

variable {ι : Type} [DecidableEq ι] {alert : ι → Alert} {admits : Payload → Prop}
  {s s' : System ι}

/-- A call has appended its attempt: it sends next, or it has sent. -/
def System.Claimed (s : System ι) (i : ι) : Prop :=
  s.phase i = .sending ∨ i ∈ s.sends.map (·.call)

/-- What holds in every system reached. -/
structure Sound (alert : ι → Alert) (s : System ι) : Prop where
  ids : (s.db.events.map (·.eventId)).Nodup
  sourced : ∀ i, (s.phase i).claiming = true → Sourced (alert i) s.db.events
  claimed : ∀ i, s.Claimed i → Sourced (alert i) s.db.events ∧ Attempted (alert i) s.db.events
  alone : ∀ i j, s.Claimed i → s.Claimed j →
    (alert i).sourceEventId = (alert j).sourceEventId → i = j
  unsent : ∀ i, (s.phase i).beforeSend = true → i ∉ s.sends.map (·.call)
  sent : ∀ i, (s.phase i).afterSend = true → i ∈ s.sends.map (·.call)
  once : (s.sends.map (·.call)).Nodup
  logs : ∀ send ∈ s.sends, Attempted (alert send.call) send.log ∧ send.log <+: s.db.events

omit [DecidableEq ι] in
/-- A new system is sound. -/
theorem sound_init : Sound alert (System.init ι) where
  ids := List.nodup_nil
  sourced := fun i h => by cases h
  claimed := fun i h => by simp [System.Claimed, System.init] at h
  alone := fun i j h => by simp [System.Claimed, System.init] at h
  unsent := fun i h => List.not_mem_nil
  sent := fun i h => by cases h
  once := List.nodup_nil
  logs := fun send h => absurd h List.not_mem_nil

/-- A log that is as before or has one more event, whose identity is new. -/
def Grown (log log' : List StoredEvent) : Prop :=
  log' = log ∨ ∃ e, log' = log ++ [e] ∧ ∀ old ∈ log, old.eventId ≠ e.eventId

/-- A log that has grown begins with the one before. -/
theorem Grown.isPrefix {log log' : List StoredEvent} (h : Grown log log') : log <+: log' := by
  rcases h with rfl | ⟨e, rfl, -⟩
  · exact List.prefix_refl _
  · exact List.prefix_append _ _

/-- A log that has grown still names each event once. -/
theorem Grown.nodup {log log' : List StoredEvent} (h : Grown log log')
    (hids : (log.map (·.eventId)).Nodup) : (log'.map (·.eventId)).Nodup := by
  rcases h with rfl | ⟨e, rfl, hfresh⟩
  · exact hids
  · rw [List.map_append, List.map_singleton, List.nodup_append]
    refine ⟨hids, List.nodup_singleton _, ?_⟩
    intro id hid id' hid'
    obtain ⟨old, hold, rfl⟩ := List.mem_map.mp hid
    rw [List.mem_singleton.mp hid']
    exact hfresh old hold

/-- An appended event has an identity that is new. -/
theorem grown_of_appended {db db' : Database} {eventId : EventId} {occurredAt : ℤ}
    {payload : Payload} (h : Appended db eventId occurredAt payload db') :
    Grown db.events db'.events := by
  refine Or.inr ⟨_, h.events, ?_⟩
  intro old hold hid
  have hfresh := List.find?_eq_none.mp h.fresh old hold
  exact hfresh (by simpa [Database.nextEvent] using hid)

/-- Another writer lets the log grow. -/
theorem grown_of_foreign {db db' : Database} (h : Foreign admits db db') :
    Grown db.events db'.events := by
  rcases h.appended with rfl | ⟨_, _, _, happended, -⟩
  · exact Or.inl rfl
  · exact grown_of_appended happended

omit [DecidableEq ι] in
/-- The invariant survives the growth of the log. -/
theorem Sound.grow (h : Sound alert s) {db' : Database} (hgrown : Grown s.db.events db'.events) :
    Sound alert { s with db := db' } where
  ids := hgrown.nodup h.ids
  sourced := fun i hi => (h.sourced i hi).mono hgrown.isPrefix
  claimed := fun i hi =>
    ⟨(h.claimed i hi).1.mono hgrown.isPrefix, (h.claimed i hi).2.mono hgrown.isPrefix⟩
  alone := h.alone
  unsent := h.unsent
  sent := h.sent
  once := h.once
  logs := fun send hsend => ⟨(h.logs send hsend).1, (h.logs send hsend).2.trans hgrown.isPrefix⟩

/-- The phase that is set is that of its call. -/
@[simp] theorem System.set_phase_self (i : ι) (db : Database) (phase : Phase) :
    (s.set i db phase).phase i = phase := Function.update_self ..

/-- The phases of other calls stay. -/
theorem System.set_phase_ne {i j : ι} (hne : j ≠ i) (db : Database) (phase : Phase) :
    (s.set i db phase).phase j = s.phase j := Function.update_of_ne hne ..

/-- The database that is set is that of the system. -/
@[simp] theorem System.set_db (i : ι) (db : Database) (phase : Phase) :
    (s.set i db phase).db = db := rfl

/-- A phase that is set sends nothing. -/
@[simp] theorem System.set_sends (i : ι) (db : Database) (phase : Phase) :
    (s.set i db phase).sends = s.sends := rfl

/-- A system that is set to what it has stays as it is. -/
theorem System.set_self (i : ι) : s.set i s.db (s.phase i) = s := by
  simp [System.set]

/-- Of two settings of one call the second stays. -/
theorem System.set_set (i : ι) (db db' : Database) (phase phase' : Phase) :
    (s.set i db phase).set i db' phase' = s.set i db' phase' := by
  simp [System.set]

/-- A phase that a call may move to without a claim. -/
structure Moves (alert : Alert) (log : List StoredEvent) (phase phase' : Phase) : Prop where
  claiming : phase'.claiming = true → Sourced alert log
  sending : phase' = .sending → phase = .sending
  beforeSend : phase'.beforeSend = true → phase.beforeSend = true
  afterSend : phase'.afterSend = true → phase.afterSend = true

/-- A call may always be over. -/
theorem moves_of_over {alert : Alert} {log : List StoredEvent} {phase phase' : Phase}
    (h : phase'.over = true) : Moves alert log phase phase' := by
  obtain ⟨hclaiming, hbefore, hafter, hsending⟩ := Phase.of_over h
  refine ⟨?_, fun heq => absurd heq hsending, ?_, ?_⟩
  · simp [hclaiming]
  · simp [hbefore]
  · simp [hafter]

/-- The invariant survives such a move. -/
theorem Sound.move (h : Sound alert s) {i : ι} {phase' : Phase}
    (hmoves : Moves (alert i) s.db.events (s.phase i) phase') :
    Sound alert (s.set i s.db phase') := by
  have hphase : ∀ (P : Phase → Prop) (j : ι), (P phase' → P (s.phase i)) →
      P ((s.set i s.db phase').phase j) → P (s.phase j) := by
    intro P j hmove hj
    by_cases hij : j = i
    · subst hij
      rw [System.set_phase_self] at hj
      exact hmove hj
    · rwa [System.set_phase_ne hij] at hj
  have hclaimed : ∀ j, (s.set i s.db phase').Claimed j → s.Claimed j := by
    intro j hj
    rcases hj with hsending | hsent
    · exact Or.inl (hphase (· = .sending) j hmoves.sending hsending)
    · exact Or.inr hsent
  refine ⟨h.ids, ?_, fun j hj => h.claimed j (hclaimed j hj),
    fun j k hj hk => h.alone j k (hclaimed j hj) (hclaimed k hk), ?_, ?_, h.once, h.logs⟩
  · intro j hj
    by_cases hij : j = i
    · subst hij
      rw [System.set_phase_self] at hj
      exact hmoves.claiming hj
    · rw [System.set_phase_ne hij] at hj
      exact h.sourced j hj
  · intro j hj
    exact h.unsent j (hphase (·.beforeSend = true) j hmoves.beforeSend hj)
  · intro j hj
    exact h.sent j (hphase (·.afterSend = true) j hmoves.afterSend hj)

omit [DecidableEq ι] in
/-- Two events of a log with one identity are the same event. -/
theorem Sound.unique (h : Sound alert s) {e e' : StoredEvent} (he : e ∈ s.db.events)
    (he' : e' ∈ s.db.events) (hid : e.eventId = e'.eventId) : e = e' :=
  List.inj_on_of_nodup_map h.ids he he' hid

omit [DecidableEq ι] in
/-- Two alerts for one source that is in the log have one type. -/
theorem Sound.sourceEventType_eq (h : Sound alert s) {i j : ι}
    (hi : Sourced (alert i) s.db.events) (hj : Sourced (alert j) s.db.events)
    (hid : (alert i).sourceEventId = (alert j).sourceEventId) :
    (alert i).sourceEventType = (alert j).sourceEventType := by
  obtain ⟨source, hmem, hsource, hpayload⟩ := hi.stored
  obtain ⟨source', hmem', hsource', hpayload'⟩ := hj.stored
  have hsame := h.unique hmem hmem' (by rw [hsource, hsource', hid])
  subst hsame
  unfold Alert.sourceEventType
  rw [← hpayload, ← hpayload']

/-- A call that appends its attempt claims its alert: no other call has. -/
theorem Sound.claim (h : Sound alert s) {i : ι} {occurredAt : ℤ} {db' : Database}
    (hphase : s.phase i = .appending .attempt occurredAt)
    (happended : Appended s.db (Evidence.attempt.eventId (alert i)) occurredAt
      (Evidence.attempt.payload (alert i)) db') :
    Sound alert (s.set i db' .sending) := by
  have hgrown := grown_of_appended happended
  have hsource : Sourced (alert i) s.db.events := h.sourced i (by rw [hphase]; rfl)
  have hunsent : i ∉ s.sends.map (·.call) := h.unsent i (by rw [hphase]; rfl)
  have hattempted : Attempted (alert i) db'.events := by
    refine ⟨s.db.nextEvent _ occurredAt _, ?_, rfl, rfl⟩
    rw [happended.events]
    exact List.mem_append_right _ (List.mem_singleton_self _)
  have hclaimed : ∀ j, j ≠ i → (s.set i db' .sending).Claimed j → s.Claimed j := by
    intro j hne hj
    rcases hj with hsending | hsent
    · exact Or.inl (by rwa [System.set_phase_ne hne] at hsending)
    · exact Or.inr hsent
  have halone : ∀ j, j ≠ i → s.Claimed j →
      (alert j).sourceEventId ≠ (alert i).sourceEventId := by
    intro j hne hj hid
    obtain ⟨hsourced, attempt, hmem, hattempt, -⟩ := h.claimed j hj
    have htype := h.sourceEventType_eq hsourced hsource hid
    refine List.find?_eq_none.mp happended.fresh attempt hmem ?_
    simp only [hattempt, Evidence.eventId, hid, htype, decide_true]
  refine ⟨hgrown.nodup h.ids, ?_, ?_, ?_, ?_, ?_, h.once, ?_⟩
  · intro j hj
    by_cases hij : j = i
    · subst hij
      exact hsource.mono hgrown.isPrefix
    · rw [System.set_phase_ne hij] at hj
      exact (h.sourced j hj).mono hgrown.isPrefix
  · intro j hj
    by_cases hij : j = i
    · subst hij
      exact ⟨hsource.mono hgrown.isPrefix, hattempted⟩
    · have hboth := h.claimed j (hclaimed j hij hj)
      exact ⟨hboth.1.mono hgrown.isPrefix, hboth.2.mono hgrown.isPrefix⟩
  · intro j k hj hk hid
    by_cases hij : j = i <;> by_cases hik : k = i
    · rw [hij, hik]
    · subst hij
      exact absurd hid.symm (halone k hik (hclaimed k hik hk))
    · subst hik
      exact absurd hid (halone j hij (hclaimed j hij hj))
    · exact h.alone j k (hclaimed j hij hj) (hclaimed k hik hk) hid
  · intro j hj
    by_cases hij : j = i
    · subst hij
      exact hunsent
    · rw [System.set_phase_ne hij] at hj
      exact h.unsent j hj
  · intro j hj
    by_cases hij : j = i
    · subst hij
      rw [System.set_phase_self] at hj
      cases hj
    · rw [System.set_phase_ne hij] at hj
      exact h.sent j hj
  · intro send hsend
    exact ⟨(h.logs send hsend).1, (h.logs send hsend).2.trans hgrown.isPrefix⟩

/-- One access of a call keeps the invariant. -/
theorem Sound.advanced (h : Sound alert s) {i : ι} {db' : Database} {phase' : Phase}
    (hadvanced : Advanced (alert i) s.db (s.phase i) db' phase') :
    Sound alert (s.set i db' phase') := by
  generalize hphase : s.phase i = phase at hadvanced
  cases hadvanced with
  | checked hsource =>
    refine h.move ⟨fun _ => hsource, nofun, fun _ => ?_, nofun⟩
    rw [hphase]
    rfl
  | viewed evidence occurredAt =>
    cases evidence with
    | attempt =>
      refine h.move ⟨fun _ => h.sourced i (by rw [hphase]; rfl), nofun, fun _ => ?_, nofun⟩
      rw [hphase]
      rfl
    | failure =>
      refine h.move ⟨nofun, nofun, nofun, fun _ => ?_⟩
      rw [hphase]
      rfl
  | appended evidence occurredAt happended =>
    cases evidence with
    | attempt => exact h.claim hphase happended
    | failure =>
      have hgrow := h.grow (grown_of_appended happended)
      exact hgrow.move (moves_of_over rfl)
  | taken evidence occurredAt =>
    cases evidence with
    | attempt =>
      refine h.move ⟨fun _ => h.sourced i (by rw [hphase]; rfl), nofun, fun _ => ?_, nofun⟩
      rw [hphase]
      rfl
    | failure =>
      refine h.move ⟨nofun, nofun, nofun, fun _ => ?_⟩
      rw [hphase]
      rfl
  | ended phase hover => exact h.move (moves_of_over hover)
  | idle =>
    rw [← hphase, System.set_self]
    exact h

/-- The accesses inside a boundary keep the invariant. -/
theorem Sound.boundary (h : Sound alert s) {i : ι} {y : Database × Phase}
    (hrun : Relation.ReflTransGen (Advances (alert i)) (s.db, s.phase i) y) :
    Sound alert (s.set i y.1 y.2) := by
  induction hrun with
  | refl =>
    rw [System.set_self]
    exact h
  | @tail y z _ hstep ih =>
    have hadvanced := advanced_of_advance (alert i) y.1 y.2
    have hsame : Advanced (alert i) (s.set i y.1 y.2).db ((s.set i y.1 y.2).phase i) z.1 z.2 := by
      rw [System.set_phase_self, hstep]
      exact hadvanced
    have hnext := ih.advanced hsame
    rwa [System.set_set] at hnext

/-- A refused access ends its call, or there was none. -/
theorem Phase.refused_cases (failure : Failure) (phase : Phase) :
    (phase.refused failure).over = true ∨ phase.refused failure = phase := by
  cases phase with
  | checking => exact Or.inl rfl
  | viewing evidence => exact Or.inl (evidence.failed_over failure)
  | appending evidence _ => exact Or.inl (evidence.failed_over failure)
  | confirming evidence => exact Or.inl (evidence.failed_over failure)
  | sending => exact Or.inr rfl
  | awaiting => exact Or.inr rfl
  | finished _ => exact Or.inr rfl
  | raised _ => exact Or.inr rfl
  | crashed => exact Or.inr rfl

/-- A call that sends does so for the first time, after its attempt. -/
theorem Sound.send (h : Sound alert s) {i : ι} (hphase : s.phase i = .sending) :
    Sound alert (s.send i) := by
  have hunsent : i ∉ s.sends.map (·.call) := h.unsent i (by rw [hphase]; rfl)
  have hsends : (s.send i).sends.map (·.call) = s.sends.map (·.call) ++ [i] := by
    simp [System.send]
  have hself : (s.send i).phase i = .awaiting := System.set_phase_self i s.db .awaiting
  have hother : ∀ j, j ≠ i → (s.send i).phase j = s.phase j := fun j hne =>
    System.set_phase_ne hne s.db .awaiting
  have hclaimed : ∀ j, (s.send i).Claimed j → s.Claimed j := by
    intro j hj
    by_cases hij : j = i
    · exact hij ▸ Or.inl hphase
    · rcases hj with hsending | hsent
      · exact Or.inl (hother j hij ▸ hsending)
      · rw [hsends] at hsent
        rcases List.mem_append.mp hsent with hold | hnew
        · exact Or.inr hold
        · exact absurd (List.mem_singleton.mp hnew) hij
  refine ⟨h.ids, ?_, fun j hj => h.claimed j (hclaimed j hj),
    fun j k hj hk => h.alone j k (hclaimed j hj) (hclaimed k hk), ?_, ?_, ?_, ?_⟩
  · intro j hj
    by_cases hij : j = i
    · rw [hij, hself] at hj
      cases hj
    · exact h.sourced j (hother j hij ▸ hj)
  · intro j hj
    by_cases hij : j = i
    · rw [hij, hself] at hj
      cases hj
    · rw [hsends, List.mem_append, not_or, List.mem_singleton]
      exact ⟨h.unsent j (hother j hij ▸ hj), hij⟩
  · intro j hj
    rw [hsends, List.mem_append, List.mem_singleton]
    by_cases hij : j = i
    · exact Or.inr hij
    · exact Or.inl (h.sent j (hother j hij ▸ hj))
  · rw [hsends, List.nodup_append]
    refine ⟨h.once, List.nodup_singleton _, ?_⟩
    intro j hj k hk
    rw [List.mem_singleton.mp hk]
    exact ne_of_mem_of_not_mem hj hunsent
  · intro send hsend
    rcases List.mem_append.mp hsend with hold | hnew
    · exact h.logs send hold
    · rw [List.mem_singleton.mp hnew]
      exact ⟨(h.claimed i (Or.inl hphase)).2, List.prefix_refl _⟩

/-- Every step keeps the invariant. -/
theorem Sound.step (h : Sound alert s) (hstep : Step alert admits s s') : Sound alert s' := by
  cases hstep with
  | advance i _ => exact h.advanced (advanced_of_advance (alert i) s.db (s.phase i))
  | boundary i _ hrun _ => exact h.boundary hrun
  | refuse i failure =>
    rcases Phase.refused_cases failure (s.phase i) with hover | hsame
    · exact h.move (moves_of_over hover)
    · rw [hsame]
      exact h.advanced (.idle _)
  | send i hphase => exact h.send hphase
  | answer i delivered hphase =>
    cases delivered with
    | true => exact h.move (moves_of_over rfl)
    | false =>
      refine h.move ⟨nofun, nofun, nofun, fun _ => ?_⟩
      rw [hphase]
      rfl
  | throw i failure _ => exact h.move (moves_of_over rfl)
  | crash i => exact h.move (moves_of_over rfl)
  | foreign hforeign => exact h.grow (grown_of_foreign hforeign)

/-- The invariant holds in every system reached. -/
theorem Reached.sound (h : Reached alert admits s) : Sound alert s := by
  induction h with
  | refl => exact sound_init
  | tail _ hstep ih => exact ih.step hstep

/-! ## The evidence is accepted -/

omit [DecidableEq ι] in
/-- The log after an access is accepted. -/
theorem Sound.accepted_advanced (h : Sound alert s) (haccepted : Accepted s.db.events) {i : ι}
    {db' : Database} {phase' : Phase}
    (hadvanced : Advanced (alert i) s.db (s.phase i) db' phase') : Accepted db'.events := by
  generalize hphase : s.phase i = phase at hadvanced
  cases hadvanced with
  | appended evidence occurredAt happended =>
    have hholds : Sourced (alert i) s.db.events ∧
        (evidence = .failure → Attempted (alert i) s.db.events) := by
      cases evidence with
      | attempt => exact ⟨h.sourced i (by rw [hphase]; rfl), nofun⟩
      | failure =>
        have hclaimed := h.claimed i (Or.inr (h.sent i (by rw [hphase]; rfl)))
        exact ⟨hclaimed.1, fun _ => hclaimed.2⟩
    rw [happended.events]
    exact haccepted.snoc (validateAlert_evidence evidence h.ids hholds.1 hholds.2 rfl rfl)
  | checked _ => exact haccepted
  | viewed _ _ => exact haccepted
  | taken _ _ => exact haccepted
  | ended _ _ => exact haccepted
  | idle => exact haccepted

/-- The log after a boundary is accepted. -/
theorem Sound.accepted_boundary (h : Sound alert s) (haccepted : Accepted s.db.events) {i : ι}
    {y : Database × Phase}
    (hrun : Relation.ReflTransGen (Advances (alert i)) (s.db, s.phase i) y) :
    Accepted y.1.events := by
  induction hrun with
  | refl => exact haccepted
  | @tail y z hrun hstep ih =>
    have hadvanced := advanced_of_advance (alert i) y.1 y.2
    have hsound := h.boundary hrun
    have hsame : Advanced (alert i) (s.set i y.1 y.2).db ((s.set i y.1 y.2).phase i) z.1 z.2 := by
      rw [System.set_phase_self, hstep]
      exact hadvanced
    exact hsound.accepted_advanced ih hsame

/-- The log is accepted in every system reached, when no other writer appends evidence of
alerts. -/
theorem Reached.accepted (h : Reached alert admits s)
    (hforeign : ∀ payload, admits payload → Payload.isAlert payload = false) :
    Accepted s.db.events := by
  induction h with
  | refl => rfl
  | tail hrun hstep ih =>
    have hsound := Reached.sound hrun
    cases hstep with
    | advance i _ => exact hsound.accepted_advanced ih (advanced_of_advance (alert i) _ _)
    | boundary i _ haccesses _ => exact hsound.accepted_boundary ih haccesses
    | refuse i failure => exact ih
    | send i _ => exact ih
    | answer i delivered _ => exact ih
    | throw i failure _ => exact ih
    | crash i => exact ih
    | foreign hmutation =>
      rcases hmutation.appended with rfl | ⟨_, _, payload, happended, hadmits⟩
      · exact ih
      · rw [happended.events]
        refine ih.snoc (validateAlert_other ?_)
        rcases hadmits with hadmits | hneutral
        · exact hforeign payload hadmits
        · cases payload <;> first | rfl | cases hneutral

/-- Alerts at most once: whatever the calls, the other writers, the crashes and the notifier
do, each source is sent for at most once, after its attempt is in the durable log; and the
verifier accepts the log, when no other writer appends evidence of alerts. -/
theorem alerts_at_most_once (h : Reached alert admits s) :
    (s.sends.map fun send => (alert send.call).sourceEventId).Nodup ∧
    (∀ send ∈ s.sends, Attempted (alert send.call) send.log ∧ send.log <+: s.db.events) ∧
    ((∀ payload, admits payload → Payload.isAlert payload = false) →
      validateOperationalAlertChain s.db.events = .ok ()) := by
  have hsound := Reached.sound h
  refine ⟨?_, hsound.logs, fun hforeign => (Reached.accepted h hforeign).validate⟩
  have hsources : s.sends.map (fun send => (alert send.call).sourceEventId) =
      (s.sends.map (·.call)).map fun i => (alert i).sourceEventId := by
    rw [List.map_map]
    rfl
  rw [hsources]
  refine List.Nodup.map_on ?_ hsound.once
  intro i hi j hj hid
  exact hsound.alone i j (Or.inr hi) (Or.inr hj) hid

/-- The system after the accesses of calls without a boundary, one after another. -/
def System.accesses (s : System ι) (alert : ι → Alert) (calls : List ι) : System ι :=
  calls.foldl (fun s i => s.access (alert i) i) s

/-- A system that is reached is reached after further accesses. -/
theorem Reached.accesses (h : Reached alert admits s) (calls : List ι)
    (hunbounded : ∀ i ∈ calls, (alert i).bounded = false) :
    Reached alert admits (s.accesses alert calls) := by
  induction calls generalizing s with
  | nil => exact h
  | cons i calls ih =>
    have hstep : Step alert admits s (s.access (alert i) i) :=
      .advance i (hunbounded i List.mem_cons_self)
    exact ih (h.tail hstep) fun j hj => hunbounded j (List.mem_cons_of_mem i hj)

end

/-- Two calls without a boundary for the same health event. -/
def healthAlert (_ : Bool) : Alert := ⟨.external "health", .healthState [], 0, false⟩

/-- A store with that event. -/
def healthLog : Database :=
  (appendEvent {} (.external "health") 0 (.healthState [])).toOption.getD {}

/-- Both calls look for a marker before either appends one, and the first to append sends. -/
def sentOnce : System Bool :=
  (System.accesses { System.init Bool with db := healthLog } healthAlert
    [true, false, true, false, true, false, false]).send true

/-- Of two calls that both see no marker, one sends. -/
theorem alerts_at_most_once_race : sentOnce.sends.length = 1 ∧
    sentOnce.phase false = .finished none ∧
    (sentOnce.sends.map fun send => (healthAlert send.call).sourceEventId).Nodup ∧
    validateOperationalAlertChain sentOnce.db.events = .ok () := by
  have hforeign : Foreign (· = .healthState []) {} healthLog := by
    obtain ⟨db, hdb⟩ := Except.isOk_iff.mp
      (show (appendEvent {} (.external "health") 0 (.healthState [])).isOk = true by decide +kernel)
    have hlog : healthLog = db := by simp [healthLog, hdb, Except.toOption]
    exact hlog ▸ .appendEvent rfl hdb
  have hlogged : Reached healthAlert (· = .healthState [])
      { System.init Bool with db := healthLog } :=
    .tail .refl (.foreign hforeign)
  have hraced := hlogged.accesses [true, false, true, false, true, false, false] fun _ _ => rfl
  have hreached : Reached healthAlert (· = .healthState []) sentOnce :=
    hraced.tail (.send true (by decide +kernel))
  obtain ⟨honce, -, haccepted⟩ := alerts_at_most_once hreached
  refine ⟨rfl, by decide +kernel, honce, haccepted ?_⟩
  rintro _ rfl
  rfl

end AutoBit.Alerts
