import AutoBit.Broker.Agreement
import AutoBit.Broker.Growth

/-!
# Guards of a position

The open stops of an account become tighter in the order in which they were set. As long as
every stop of the open entry stays open, and the first one is its initial stop, the last one
guards the position at least as tightly as the initial one.
-/

namespace AutoBit.Broker

open Library Store Strategy

/-! ## Open stops become tighter -/

/-- Open stops become tighter in the order in which they were set. -/
def Tightening (stops : List PaperStop) : Prop :=
  stops.Pairwise fun earlier later => earlier.stopPrice < later.stopPrice

/-- The last of stops that tighten is the highest. -/
theorem Tightening.le_last {stops : List PaperStop} (h : Tightening stops) {last : PaperStop}
    (hlast : stops.getLast? = some last) {stop : PaperStop} (hstop : stop ∈ stops) :
    stop.stopPrice ≤ last.stopPrice := by
  obtain ⟨before, rfl⟩ := List.getLast?_eq_some_iff.mp hlast
  rcases List.mem_append.mp hstop with hbefore | hsame
  · exact ((List.pairwise_append.mp h).2.2 stop hbefore last (List.mem_singleton_self _)).le
  · rw [List.mem_singleton.mp hsame]

/-- A stop that is tighter than the last one goes after the others. -/
theorem Tightening.snoc {stops : List PaperStop} (h : Tightening stops) {stop : PaperStop}
    (htighter : ∀ active ∈ stops.getLast?, active.stopPrice < stop.stopPrice) :
    Tightening (stops ++ [stop]) := by
  refine List.pairwise_append.mpr ⟨h, List.pairwise_singleton _ _, ?_⟩
  intro earlier hearlier later hlater
  rw [List.mem_singleton.mp hlater]
  cases hlast : stops.getLast? with
  | none =>
    rw [List.getLast?_eq_none_iff.mp hlast] at hearlier
    cases hearlier
  | some last => exact (h.le_last hlast hearlier).trans_lt (htighter last hlast)

/-- The open stops of a scanned log tighten. -/
theorem tightening_of_scanStops {log : List StoredEvent} {scan : StopScan}
    (h : scanStops log = .ok scan) : Tightening scan.open_ := by
  induction log using List.reverseRecOn generalizing scan with
  | nil =>
    cases h
    exact List.Pairwise.nil
  | append_singleton log e ih =>
    obtain ⟨before, hbefore, he⟩ := foldlM_snoc_eq_ok.mp h
    have htighter := ih hbefore
    cases hpayload : e.payload with
    | paperStopSet stop =>
      simp only [scanStopEvent, hpayload] at he
      obtain ⟨candidate, -, -, -, hprice, rfl⟩ := scanStopSet_eq_ok.mp he
      exact htighter.snoc hprice
    | paperStopTerminal terminal =>
      simp only [scanStopEvent, hpayload] at he
      obtain ⟨stop, -, -, rfl⟩ := scanStopTerminal_eq_ok.mp he
      exact List.Pairwise.filter _ htighter
    | _ =>
      rw [scanStopEvent_neutral (by simp [readStopSet, hpayload])
        (by simp [readStopTerminal, hpayload])] at he
      cases he
      exact htighter

/-! ## Guarded accounts -/

/-- No purchase of a log has the reason that marks a cut. -/
def Ordinary (log : List StoredEvent) : Prop :=
  ∀ m ∈ view readOrderMetadata log, m.body.side = .buy → m.body.reason ≠ "EXECUTION_CAP"

/-- A database that the verifier accepts, where every stop of the open entry is open and the
first one is an initial stop. -/
structure Anchored (db : Database) (a : Account) : Prop where
  sound : Sound db a
  ordinary : Ordinary db.events
  open_ : 0 < a.projection.btcQuantity → ∃ id, a.source = some id ∧
    ∀ known ∈ a.stops.known, known.body.sourceId = id → known.body ∈ a.stops.open_
  initial : ∀ stop ∈ a.stops.open_.head?, stop.reason = "HARD_STOP"

/-- A position has a stop that can still trigger. -/
def Guarded (db : Database) : Prop :=
  ∃ a, Anchored db a ∧ (0 < a.projection.btcQuantity → a.stops.open_ ≠ [])

/-- A position has a stop that can still trigger, unless its entry has just been filled. -/
def Entered (db : Database) : Prop :=
  ∃ a, Anchored db a ∧
    (0 < a.projection.btcQuantity → a.stops.open_ ≠ [] ∨ activeOrders a.orders = [])

/-- A guarded database is an entered one. -/
theorem Guarded.entered {db : Database} (h : Guarded db) : Entered db := by
  obtain ⟨a, hanchored, hguarded⟩ := h
  exact ⟨a, hanchored, fun hheld => Or.inl (hguarded hheld)⟩

/-- The initial stop of the open entry is one of its open stops. -/
theorem Anchored.initialStop {db : Database} {a : Account} (h : Anchored db a)
    (hheld : 0 < a.projection.btcQuantity) (hopen : a.stops.open_ ≠ []) {id : PaperId}
    (hsource : a.source = some id) : ∃ stop ∈ a.stops.open_,
      Broker.initialStop (a.ledger db.events) id = some stop.stopPrice := by
  have hscanned := scanned_of_scanStops h.sound.coherent.stops
  obtain ⟨first, hfirst⟩ := List.ne_nil_iff_exists_cons.mp hopen
  obtain ⟨rest, hfirst⟩ := hfirst
  have hmem : first ∈ a.stops.open_ := by
    rw [hfirst]
    exact List.mem_cons_self
  have hreason : first.reason = "HARD_STOP" := h.initial first (by rw [hfirst]; rfl)
  have hfrom : first.sourceId = id := h.sound.coherent.openSource first hmem id hsource
  obtain ⟨known, hknown, hbody, -⟩ := hscanned.mem_open hmem
  obtain ⟨set, hset, hstop, -⟩ := hscanned.stop_of_known hknown
  have hterms : ∀ {set : Stamped StopSet} {stop : PaperStop}, stopFromEvent set = .ok stop →
      stop.sourceId = set.body.sourceId ∧ stop.reason = set.body.reason ∧
        stop.stopPrice = set.body.stopPrice := by
    intro set stop hstop
    simp only [stopFromEvent, Except.bind_eq_ok, Except.pure_eq_ok] at hstop
    obtain ⟨_, -, _, -, _, -, _, -, _, -, _, -, rfl⟩ := hstop
    exact ⟨rfl, rfl, rfl⟩
  obtain ⟨hsetSource, hsetReason, -⟩ := hterms hstop
  rw [hbody] at hsetSource hsetReason
  cases hfound : (view readStopSet db.events).find? fun stop =>
    stop.body.sourceId = id ∧ stop.body.reason = "HARD_STOP" with
  | none =>
    have hnone := List.find?_eq_none.mp hfound set hset
    rw [← hsetSource, ← hsetReason, hfrom, hreason] at hnone
    simp at hnone
  | some initial =>
    obtain ⟨stamped, hstamped, hinitial, -⟩ :=
      forall₂_exists_right hscanned.known (List.mem_of_find?_eq_some hfound)
    obtain ⟨hsame, -, hprice⟩ := hterms hinitial
    obtain ⟨hid, -⟩ : initial.body.sourceId = id ∧ initial.body.reason = "HARD_STOP" := by
      simpa using List.find?_some hfound
    obtain ⟨id', hsource', hanchored⟩ := h.open_ hheld
    rw [hsource, Option.some.injEq] at hsource'
    refine ⟨stamped.body, hanchored stamped hstamped (by rw [hsame, hid, hsource']), ?_⟩
    change ((view readStopSet db.events).find? _).map _ = _
    rw [hfound, hprice]
    rfl

/-- What the active stop of a guarded position is. -/
theorem Guarded.active {db : Database} (h : Guarded db) : ∃ ledger, buildLedger db = .ok ledger ∧
    (0 < ledger.snapshot.btcQuantity → ∃ stop initial,
      ledger.activeStop = some stop ∧ openEntryIdentity ledger = .ok stop.sourceId ∧
      0 < stop.stopPrice ∧ Broker.initialStop ledger stop.sourceId = some initial ∧
      initial ≤ stop.stopPrice) ∧
    (ledger.snapshot.btcQuantity = 0 → ledger.activeStop = none) := by
  obtain ⟨a, hanchored, hguarded⟩ := h
  have hsound := hanchored.sound
  refine ⟨_, hsound.ledger, ?_, ?_⟩
  · intro hheld
    change 0 < a.projection.btcQuantity at hheld
    obtain ⟨id, hsource, -⟩ := hanchored.open_ hheld
    obtain ⟨first, hfirst, hinitial⟩ := hanchored.initialStop hheld (hguarded hheld) hsource
    obtain ⟨stop, hstop⟩ := Option.isSome_iff_exists.mp
      (List.getLast?_isSome.mpr (hguarded hheld))
    have hmem := List.mem_of_getLast? hstop
    have hfrom := hsound.coherent.openSource stop hmem id hsource
    refine ⟨stop, first.stopPrice, hstop, ?_, (hsound.coherent.stop_valid hmem).price, ?_,
      (tightening_of_scanStops hsound.coherent.stops).le_last hstop hfirst⟩
    · rw [hfrom]
      exact hsound.openEntryIdentity_iff.mpr ⟨hheld, hsource⟩
    · rw [hfrom]
      exact hinitial
  · intro hflat
    have hopen := hsound.unprotected hflat
    change a.stops.open_.getLast? = none
    rw [hopen]
    rfl

/-! ## What keeps a guard -/

/-- A log without capped buys keeps being one when it grows without them. -/
theorem Ordinary.grows {kind : Payload → Prop} {db db' : Database} (h : Ordinary db.events)
    (hgrows : Grows kind db db')
    (hkind : ∀ m, kind (.paperOrder m) → m.side = .buy → m.reason ≠ "EXECUTION_CAP") :
    Ordinary db'.events := by
  obtain ⟨block, hevents, hblock⟩ := hgrows
  rw [hevents]
  intro m hm
  rcases mem_view_append.mp hm with hold | hnew
  · exact h m hold
  · obtain ⟨e, he, hread, -⟩ := mem_view.mp hnew
    cases hpayload : e.payload <;> rw [hpayload] at hread <;> cases hread
    exact hkind m.body (hpayload ▸ hblock e he)

section Steps

variable {db db' : Database} {a : Account}

/-- A cut leaves a purchase less than it asks for, and its reason tells no cut. -/
theorem Anchored.distinguishable (h : Anchored db a) {order : PaperOrder} (horder : order ∈ a.orders)
    (quantity : ℚ) : Distinguishable order quantity := by
  intro hbound hreason
  obtain ⟨context, hcontext⟩ := Option.isSome_iff_exists.mp hbound
  obtain ⟨hside, -⟩ := bound_eq_some hcontext
  obtain ⟨m, hm, hfrom, -⟩ := h.sound.coherent.metadata horder
  have hterms : order.side = m.body.side ∧ order.reason = m.body.reason := by
    obtain ⟨_, _, _, _, _, _, _, _, -, -, -, -, -, -, -, heq⟩ := orderFromMetadata_eq_ok.mp hfrom
    rw [heq]
    exact ⟨rfl, rfl⟩
  exact absurd (hterms.2 ▸ hreason) (h.ordinary m hm (hterms.1 ▸ hside))

/-- The inventory and its source are those of the fills. -/
theorem holding_of_fills {a' : Account} (h : Sound db a) (h' : Sound db' a')
    (hfills : view readFill db'.events = view readFill db.events) :
    a'.projection.btcQuantity = a.projection.btcQuantity ∧ a'.source = a.source := by
  have hsource := h'.coherent.source
  rw [hfills, h.coherent.source] at hsource
  obtain ⟨hbtc, hsame⟩ := Prod.mk.inj (Except.ok.inj hsource)
  exact ⟨hbtc.symm, hsame.symm⟩

/-- What fills nothing and concerns no stop keeps a guard. -/
theorem Guarded.quiet {kind : Payload → Prop} (h : Guarded db) (hgrows : Grows kind db db')
    (hfill : ∀ payload, kind payload → readFill payload = none)
    (hkind : ∀ m, kind (.paperOrder m) → m.side = .buy → m.reason ≠ "EXECUTION_CAP")
    (hsound : ∀ a, Sound db a → ∃ a', Sound db' a' ∧ a'.stops = a.stops) : Guarded db' := by
  obtain ⟨a, hanchored, hguarded⟩ := h
  obtain ⟨a', hsound', hstops⟩ := hsound a hanchored.sound
  obtain ⟨hbtc, hsource⟩ := holding_of_fills hanchored.sound hsound' (hgrows.view_eq hfill)
  refine ⟨a', ⟨hsound', hanchored.ordinary.grows hgrows hkind, ?_, ?_⟩, ?_⟩
  · rw [hbtc, hsource, hstops]
    exact hanchored.open_
  · rw [hstops]
    exact hanchored.initial
  · rw [hbtc, hstops]
    exact hguarded

/-- What a placement records is no fill. -/
theorem readFill_of_isPlacement {payload : Payload} (h : isPlacement payload = true) :
    readFill payload = none := by
  cases payload <;> simp_all [isPlacement, readFill]

/-- What others record leaves the database guarded. -/
theorem Guarded.record {eventId : EventId} {at_ : ℤ} {payload : Payload} (h : Guarded db)
    (hforeign : isForeign payload = true) (hok : appendEvent db eventId at_ payload = .ok db') :
    Guarded db' := by
  have hgrows : Grows (isForeign · = true) db db' := grows_of_appendEvent hok hforeign
  refine h.quiet hgrows ?_ ?_ fun a hsound => hsound.foreign hforeign hok
  · intro payload hforeign
    cases payload <;> simp_all [isForeign, readFill]
  · intro m hm
    cases hm

/-- An entry leaves the database guarded. -/
theorem Guarded.submitEntry {costs : CostConfig} {signalAt : ℤ} {quantity : ℚ} {reason : String}
    {context : Option EntryContext} {order : PaperOrder} (h : Guarded db)
    (hfee : 0 ≤ costs.feeRate) (hslippage : 0 ≤ costs.slippageRate)
    (hreason : reason ≠ "EXECUTION_CAP")
    (hok : Broker.submitEntry costs db signalAt quantity reason context = .ok (order, db')) :
    Guarded db' := by
  refine h.quiet (submitEntry_grows hok) (fun _ hplaced => readFill_of_isPlacement hplaced.1) ?_
    fun a hsound => hsound.submitEntry hfee hslippage hok
  intro m hplaced _
  rw [hplaced.2 m rfl]
  exact hreason

/-- An exit leaves the database guarded. -/
theorem Guarded.submitExit {costs : CostConfig} {signalAt : ℤ} {quantity owned : ℚ}
    {reason : String} {parent : Option PaperId} {order : PaperOrder} (h : Guarded db)
    (hfee : 0 ≤ costs.feeRate) (hslippage : 0 ≤ costs.slippageRate)
    (hok : Broker.submitExit costs db signalAt quantity owned reason parent = .ok (order, db')) :
    Guarded db' := by
  refine h.quiet (submitExit_grows hok) (fun _ hplaced => readFill_of_isPlacement hplaced.1) ?_
    fun a hsound => hsound.submitExit hfee hslippage hok
  intro m hplaced hside
  rw [hplaced.2 m rfl] at hside
  cases hside

/-- A binding of an entry context leaves the database guarded. -/
theorem Guarded.bindEntryContext {id : PaperId} {context : EntryContext} {order : PaperOrder}
    (h : Guarded db) (hok : Broker.bindEntryContext db id context = .ok (order, db')) :
    Guarded db' := by
  refine h.quiet (bindEntryContext_grows hok) (fun _ hplaced => readFill_of_isPlacement hplaced.1)
    ?_ fun a hsound => hsound.bindEntryContext hok
  intro m hplaced
  exact (hplaced.2 m rfl).elim

/-- An observation of a position leaves the database guarded. -/
theorem Guarded.observePosition {id : PaperId} {highs : List (ℤ × ℚ)} {initialStop : ℚ}
    (h : Guarded db) (hok : Broker.observePosition db id highs initialStop = .ok db') :
    Guarded db' := by
  obtain ⟨_, _, _, _, -, -, -, happended, -⟩ := observePosition_appended hok
  have hgrows : Grows (fun payload => ∃ observation, payload = .paperPosition observation) db db' :=
    grows_of_appended happended ⟨_, rfl⟩
  refine h.quiet hgrows ?_ ?_ fun a hsound => hsound.observePosition hok
  · rintro payload ⟨observation, rfl⟩
    rfl
  · rintro m ⟨observation, hm⟩
    cases hm

/-! ## Stops and fills -/

/-- A stop that is set guards the position, and is an initial one if it is the only one. -/
theorem Anchored.setStop {costs : CostConfig} {observedAt : ℤ} {stopPrice : ℚ}
    {activeAfter : Option ℤ} {reason : String} {sourceId : Option PaperId} {stop : PaperStop}
    (h : Anchored db a) (hfee : 0 ≤ costs.feeRate) (hslippage : 0 ≤ costs.slippageRate)
    (hreason : a.stops.open_ = [] → reason = "HARD_STOP")
    (hok : Broker.setStop costs db observedAt stopPrice activeAfter reason sourceId =
      .ok (stop, db')) : Guarded db' := by
  obtain ⟨hheld, hfound | hactive | ⟨rfl, a', hsound, hadds⟩⟩ :=
    h.sound.setStop_cases hfee hslippage hok
  · obtain ⟨rfl, known, hknown, hbody, hsource⟩ := hfound
    obtain ⟨id, hid, hopen⟩ := h.open_ hheld
    rw [hsource, Option.some.injEq] at hid
    have hmem := hopen known hknown (by rw [hbody, hid])
    exact ⟨a, h, fun _ hnone => by rw [hnone] at hmem; cases hmem⟩
  · obtain ⟨rfl, hactive⟩ := hactive
    have hmem := List.mem_of_getLast? hactive
    exact ⟨a, h, fun _ hnone => by rw [hnone] at hmem; cases hmem⟩
  · obtain ⟨added, hbody, hknown⟩ := hadds.known
    refine ⟨a', ⟨hsound, ?_, ?_, ?_⟩, fun _ => by rw [hadds.open_]; simp⟩
    · refine h.ordinary.grows (setStop_grows hok) ?_
      rintro m ⟨set, hm⟩
      cases hm
    · intro _
      obtain ⟨id, hid, hopen⟩ := h.open_ hheld
      refine ⟨id, hadds.source.trans hid, ?_⟩
      intro known hmem hfrom
      rw [hknown] at hmem
      rw [hadds.open_]
      rcases List.mem_append.mp hmem with hold | hnew
      · exact List.mem_append_left _ (hopen known hold hfrom)
      · rw [List.mem_singleton.mp hnew, hbody]
        exact List.mem_append_right _ (List.mem_singleton_self _)
    · intro first hfirst
      rw [hadds.open_] at hfirst
      cases hold : a.stops.open_ with
      | nil =>
        rw [hold] at hfirst
        obtain rfl := Option.some.inj hfirst
        exact hreason hold
      | cons earlier rest =>
        rw [hold] at hfirst
        obtain rfl := Option.some.inj hfirst
        exact h.initial earlier (by rw [hold]; rfl)

/-- A fill ends the guard only when it leaves nothing to guard, and a position that was just
entered has no order left. -/
theorem Guarded.processOpen {id : PaperId} {candle : ℤ} {openPrice : ℚ} {fill : Option PaperFill}
    (h : Guarded db) (hok : Broker.processOpen db id candle openPrice none = .ok (fill, db')) :
    Entered db' := by
  obtain ⟨a, hanchored, hguarded⟩ := h
  have hsound := hanchored.sound
  have hordinary : Ordinary db'.events := by
    refine hanchored.ordinary.grows (processOpen_grows hok) ?_
    intro m htrade hside
    rw [htrade.2 m rfl] at hside
    cases hside
  rcases hsound.processOpen_cases (fun order hfound _ =>
    hanchored.distinguishable (findPaperOrder_some hfound).1 _) hok with
    rfl | ⟨order, hfound, haccepted, a', hsound', hexecutes⟩
  · exact ⟨a, hanchored, fun hheld => Or.inl (hguarded hheld)⟩
  obtain ⟨horder, -⟩ := findPaperOrder_some hfound
  have hactive : order ∈ activeOrders a.orders :=
    List.mem_filter.mpr ⟨horder, by rw [haccepted]; rfl⟩
  have hfunded := hsound.coherent.funded order hactive
  obtain ⟨-, hremaining, hpositive, -⟩ := hsound.coherent.accepted_terms horder haccepted
  refine ⟨a', ⟨hsound', hordinary, ?_, ?_⟩, ?_⟩
  · intro hheld
    rcases hexecutes.source with hflat | ⟨hsell, hsource⟩ | ⟨hbuy, hsource⟩
    · exact absurd hflat hheld.ne'
    · -- part of the position is left, with all its stops
      rw [Funded, hsell] at hfunded
      have hbefore : 0 < a.projection.btcQuantity := by
        rw [hremaining] at hfunded
        exact lt_of_lt_of_le hpositive hfunded
      rw [hsource, hexecutes.known]
      rcases hexecutes.open_ with hkept | ⟨-, hflat⟩
      · rw [hkept]
        exact hanchored.open_ hbefore
      · exact absurd hflat hheld.ne'
    · -- no stop that is known comes from the entry that was just filled
      refine ⟨order.orderId, hsource, ?_⟩
      intro known hknown hfrom
      rw [hexecutes.known] at hknown
      have hvalid := hsound.coherent.stopSources known hknown
      simp only [validateStopSource, Except.bind_eq_ok, reject_eq_ok, not_not] at hvalid
      obtain ⟨_, ⟨source, hsource, -, hfilled⟩, -⟩ := hvalid
      rw [hfrom, findPaperOrder_of_mem hsound.coherent.nodup horder] at hsource
      obtain rfl := Option.some.inj hsource
      rw [(hsound.coherent.accepted_terms horder haccepted).1] at hfilled
      exact absurd hfilled (lt_irrefl 0)
  · rcases hexecutes.open_ with hkept | ⟨hnone, -⟩
    · rw [hkept]
      exact hanchored.initial
    · rw [hnone]
      intro stop hstop
      cases hstop
  · intro hheld
    cases hside : order.side with
    | buy => exact Or.inr (hexecutes.idle hside)
    | sell =>
      rw [Funded, hside] at hfunded
      have hbefore : 0 < a.projection.btcQuantity := by
        rw [hremaining] at hfunded
        exact lt_of_lt_of_le hpositive hfunded
      rcases hexecutes.open_ with hkept | ⟨-, hflat⟩
      · rw [hkept]
        exact Or.inl (hguarded hbefore)
      · exact absurd hflat hheld.ne'

/-- A stop that is checked within a bar leaves the database guarded. -/
theorem Guarded.processIntrabarStop {candle : ℤ} {openPrice lowPrice : ℚ}
    {fill : Option PaperFill} (h : Guarded db)
    (hok : Broker.processIntrabarStop db candle openPrice lowPrice = .ok (fill, db')) :
    Guarded db' := by
  obtain ⟨a, hanchored, hguarded⟩ := h
  obtain ⟨-, ⟨-, rfl, -⟩ | ⟨stop, -, -, -, -, -, a', hsound, hclosed⟩⟩ :=
    hanchored.sound.processIntrabarStop_cases hok
  · exact ⟨a, hanchored, hguarded⟩
  · have hordinary : Ordinary db'.events := by
      refine hanchored.ordinary.grows (processIntrabarStop_grows hok) ?_
      intro m htrade hside
      rw [htrade.2 m rfl] at hside
      cases hside
    refine ⟨a', ⟨hsound, hordinary, ?_, ?_⟩, ?_⟩
    · intro hheld
      exact absurd hclosed.flat hheld.ne'
    · rw [hclosed.open_]
      intro first hfirst
      cases hfirst
    · intro hheld
      exact absurd hclosed.flat hheld.ne'

end Steps

/-- A new database is guarded. -/
theorem guarded_empty : Guarded {} := by
  refine ⟨emptyAccount, ⟨sound_empty, ?_, ?_, ?_⟩, ?_⟩
  · intro m hm
    cases hm
  · intro hheld
    exact absurd hheld (lt_irrefl 0)
  · intro stop hstop
    cases hstop
  · intro hheld
    exact absurd hheld (lt_irrefl 0)

end AutoBit.Broker
