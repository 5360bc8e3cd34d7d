import AutoBit.Broker.Views

/-!
# The stops of a log

What the scan of the stop evidence accumulates: the stops that were set, in order, the
ends of some of them, and the rest, which are open.
-/

namespace AutoBit.Broker

open Library Store

/-- What the scan of a log knows about its stops. -/
structure Scanned (log : List StoredEvent) (scan : StopScan) : Prop where
  known : List.Forall₂ (fun set stop => stopFromEvent set = .ok stop.body ∧
      stop.sequence = set.sequence ∧ stop.eventId = set.eventId ∧
      stop.occurredAtUtc = set.occurredAtUtc) (view readStopSet log) scan.known
  terminals : scan.terminals = view readStopTerminal log
  open_ : scan.open_ = (scan.known.map (·.body)).filter
    fun stop => stop.stopId ∉ scan.terminals.map (·.body.stopId)
  ids : (scan.known.map (·.body.stopId)).Nodup
  ended : ∀ terminal ∈ scan.terminals, terminal.body.stopId ∈ scan.known.map (·.body.stopId)

/-- A stop that is not yet known adds itself to the open ones. -/
theorem scanStopSet_eq_ok {scan scan' : StopScan} {event : Stamped StopSet} :
    scanStopSet scan event = .ok scan' ↔ ∃ candidate, stopFromEvent event = .ok candidate ∧
      (∀ stop ∈ scan.known, stop.body.stopId ≠ candidate.stopId) ∧
      (∀ active ∈ scan.active, candidate.sourceId = active.sourceId) ∧
      (∀ active ∈ scan.active, active.stopPrice < candidate.stopPrice) ∧
      scan' = { scan with
        known := scan.known ++ [⟨event.sequence, event.eventId, event.occurredAtUtc, candidate⟩]
        open_ := scan.open_ ++ [candidate] } := by
  simp only [scanStopSet, Except.bind_eq_ok, reject_eq_ok, Except.pure_eq_ok, not_exists, not_and,
    not_not, not_le]
  constructor
  · rintro ⟨candidate, hcandidate, _, hnew, _, hsource, _, hprice, rfl⟩
    exact ⟨candidate, hcandidate, hnew, hsource, hprice, rfl⟩
  · rintro ⟨candidate, hcandidate, hnew, hsource, hprice, rfl⟩
    exact ⟨candidate, hcandidate, ⟨⟩, hnew, ⟨⟩, hsource, ⟨⟩, hprice, rfl⟩

/-- The end of a stop takes it out of the open ones. -/
theorem scanStopTerminal_eq_ok {scan scan' : StopScan} {event : Stamped StopTerminal} :
    scanStopTerminal scan event = .ok scan' ↔ ∃ stop,
      scan.open_.find? (·.stopId = event.body.stopId) = some stop ∧
      validateStopTerminal event stop = .ok () ∧
      scan' = { scan with
        open_ := scan.open_.filter (·.stopId ≠ event.body.stopId)
        terminals := scan.terminals ++ [event] } := by
  unfold scanStopTerminal
  constructor
  · intro h
    split at h
    · cases h
    · rename_i stop hstop
      simp only [Except.bind_eq_ok, Except.pure_eq_ok] at h
      obtain ⟨_, hvalid, rfl⟩ := h
      exact ⟨stop, hstop, hvalid, rfl⟩
  · rintro ⟨stop, hstop, hvalid, rfl⟩
    rw [hstop]
    simp only [Except.bind_eq_ok, Except.pure_eq_ok]
    exact ⟨⟨⟩, hvalid, trivial⟩

/-- Setting a stop keeps what is known about the stops. -/
theorem Scanned.set {log : List StoredEvent} {scan scan' : StopScan} (h : Scanned log scan)
    {e : StoredEvent} {stop : StopSet} (he : e.payload = .paperStopSet stop)
    (hok : scanStopSet scan ⟨e.sequence, e.eventId, e.occurredAtUtc, stop⟩ = .ok scan') :
    Scanned (log ++ [e]) scan' := by
  obtain ⟨candidate, hcandidate, hnew, -, -, rfl⟩ := scanStopSet_eq_ok.mp hok
  have hsets : view readStopSet [e] = [⟨e.sequence, e.eventId, e.occurredAtUtc, stop⟩] := by
    simp [view, stamp, readStopSet, he]
  have hterminals : view readStopTerminal [e] = [] := by
    simp [view, stamp, readStopTerminal, he]
  have hopen : candidate.stopId ∉ scan.terminals.map (·.body.stopId) := by
    intro hmem
    obtain ⟨terminal, hterminal, hid⟩ := List.mem_map.mp hmem
    obtain ⟨known, hknown, hsame⟩ := List.mem_map.mp (h.ended terminal hterminal)
    exact hnew known hknown (by rw [hsame, hid])
  refine ⟨?_, ?_, ?_, ?_, ?_⟩
  · rw [view_append, hsets]
    exact List.rel_append h.known (List.Forall₂.cons ⟨hcandidate, rfl, rfl, rfl⟩ List.Forall₂.nil)
  · rw [view_append, hterminals, List.append_nil, h.terminals]
  · simp only [List.map_append, List.map_cons, List.map_nil, List.filter_append]
    rw [← h.open_, List.filter_cons_of_pos (by simpa using hopen), List.filter_nil]
  · rw [List.map_append, List.nodup_append]
    refine ⟨h.ids, List.nodup_singleton _, ?_⟩
    intro id hid other hother
    obtain ⟨known, hknown, rfl⟩ := List.mem_map.mp hid
    have heq : other = candidate.stopId := by simpa using hother
    rw [heq]
    exact hnew known hknown
  · intro terminal hterminal
    rw [List.map_append]
    exact List.mem_append_left _ (h.ended terminal hterminal)

/-- Ending a stop keeps what is known about the stops. -/
theorem Scanned.terminal {log : List StoredEvent} {scan scan' : StopScan} (h : Scanned log scan)
    {e : StoredEvent} {terminal : StopTerminal} (he : e.payload = .paperStopTerminal terminal)
    (hok : scanStopTerminal scan ⟨e.sequence, e.eventId, e.occurredAtUtc, terminal⟩ = .ok scan') :
    Scanned (log ++ [e]) scan' := by
  obtain ⟨stop, hstop, -, rfl⟩ := scanStopTerminal_eq_ok.mp hok
  have hsets : view readStopSet [e] = [] := by simp [view, stamp, readStopSet, he]
  have hterminals : view readStopTerminal [e] =
      [⟨e.sequence, e.eventId, e.occurredAtUtc, terminal⟩] := by
    simp [view, stamp, readStopTerminal, he]
  refine ⟨?_, ?_, ?_, h.ids, ?_⟩
  · rw [view_append, hsets, List.append_nil]
    exact h.known
  · rw [view_append, hterminals, h.terminals]
  · simp only [h.open_, List.filter_filter, List.map_append, List.map_cons, List.map_nil]
    apply List.filter_congr
    intro stop _
    rw [Bool.eq_iff_iff]
    simp only [Bool.and_eq_true, decide_eq_true_eq, List.mem_append, List.mem_singleton, not_or]
    exact and_comm
  · intro other hother
    rcases List.mem_append.mp hother with hold | hnew
    · exact h.ended other hold
    · obtain rfl := List.mem_singleton.mp hnew
      have hmem := List.mem_of_find?_eq_some hstop
      rw [h.open_] at hmem
      obtain ⟨known, hknown, hbody⟩ := List.mem_map.mp (List.mem_filter.mp hmem).1
      have hid : stop.stopId = terminal.stopId := by simpa using List.find?_some hstop
      exact List.mem_map.mpr ⟨known, hknown, by rw [hbody, hid]⟩

/-- Any other event concerns no stop. -/
theorem scanStopEvent_neutral {scan : StopScan} {e : StoredEvent}
    (hset : readStopSet e.payload = none) (hterminal : readStopTerminal e.payload = none) :
    scanStopEvent scan e = .ok scan := by
  cases hpayload : e.payload <;>
    simp_all [scanStopEvent, readStopSet, readStopTerminal]

/-- The scan of a log accumulates what it should. -/
theorem scanned_of_scanStops {log : List StoredEvent} {scan : StopScan}
    (h : scanStops log = .ok scan) : Scanned log scan := by
  induction log using List.reverseRecOn generalizing scan with
  | nil =>
    cases h
    exact ⟨List.Forall₂.nil, rfl, rfl, List.nodup_nil, by simp⟩
  | append_singleton log e ih =>
    obtain ⟨before, hbefore, he⟩ := foldlM_snoc_eq_ok.mp h
    have hscanned := ih hbefore
    cases hpayload : e.payload with
    | paperStopSet stop =>
      simp only [scanStopEvent, hpayload] at he
      exact hscanned.set hpayload he
    | paperStopTerminal terminal =>
      simp only [scanStopEvent, hpayload] at he
      exact hscanned.terminal hpayload he
    | _ =>
      have hset : view readStopSet [e] = [] := by simp [view, stamp, readStopSet, hpayload]
      have hend : view readStopTerminal [e] = [] := by simp [view, stamp, readStopTerminal, hpayload]
      rw [scanStopEvent_neutral (by simp [readStopSet, hpayload])
        (by simp [readStopTerminal, hpayload])] at he
      cases he
      refine ⟨?_, ?_, hscanned.open_, hscanned.ids, hscanned.ended⟩
      · rw [view_append, hset, List.append_nil]
        exact hscanned.known
      · rw [view_append, hend, List.append_nil, hscanned.terminals]

/-- A block without stop evidence leaves the stops alone. -/
theorem scanStops_append {log block : List StoredEvent} {scan : StopScan}
    (h : scanStops log = .ok scan) (hset : view readStopSet block = [])
    (hterminal : view readStopTerminal block = []) : scanStops (log ++ block) = .ok scan := by
  refine foldlM_append_eq_ok.mpr ⟨scan, h, ?_⟩
  clear h
  induction block with
  | nil => rfl
  | cons e block ih =>
    simp only [view, List.filterMap_cons, stamp] at hset hterminal
    cases hs : readStopSet e.payload <;> simp only [hs, Option.map_some, Option.map_none,
      reduceCtorEq] at hset
    cases ht : readStopTerminal e.payload <;> simp only [ht, Option.map_some, Option.map_none,
      reduceCtorEq] at hterminal
    rw [List.foldlM_cons, scanStopEvent_neutral hs ht]
    exact ih hset hterminal

/-- A stop of the scan was set in the log. -/
theorem Scanned.stop_of_known {log : List StoredEvent} {scan : StopScan} (h : Scanned log scan)
    {stop : Stamped PaperStop} (hstop : stop ∈ scan.known) : ∃ set ∈ view readStopSet log,
      stopFromEvent set = .ok stop.body ∧ stop.sequence = set.sequence ∧
      stop.eventId = set.eventId ∧ stop.occurredAtUtc = set.occurredAtUtc :=
  forall₂_exists_left h.known hstop

end AutoBit.Broker
