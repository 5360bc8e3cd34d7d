import AutoBit.Validation.OrderLog
import Mathlib.Data.List.Induction
import Mathlib.Data.List.ReduceOption
import Mathlib.Tactic.Linarith

/-!
# Two readers of one order log

`_validate_orders` groups the records of a log by order and takes an increase of a cumulative
quantity for a fill when it exceeds a tolerance that scales with the order. `_order_fill_events`
scans the records in a row and takes an increase for a fill when it exceeds a fixed quantity.
What the first accepts, the second reads in the same way exactly when every fill exceeds the
fixed quantity and no quantity drifts outside a fill.
-/

namespace AutoBit.Validation

open Library Backtest
open Store (OrderStatus)

/-! ## What the lifecycle checks say of a record -/

/-- The last record of an order so far. -/
def lastOf (before : List ValidatedOrderEvent) (orderId : String) : Option ValidatedOrderEvent :=
  (lifecycleOf before orderId).getLast?

/-- What the lifecycle checks say of a record, given the record of its order before it: which
fill it adds. -/
inductive Increment :
    Option ValidatedOrderEvent → ValidatedOrderEvent → Option FillEvidence → Prop where
  | first {current : ValidatedOrderEvent} (hstatus : current.record.status = .created)
      (hunfilled : quantityClose current.record.filledQuantity 0
        [current.record.requestedQuantity]) : Increment none current none
  | quiet {previous current : ValidatedOrderEvent} (hcheck : checkStep previous current = .ok ())
      (hdelta : current.record.filledQuantity - previous.record.filledQuantity ≤
        stepTolerance previous.record current.record) : Increment (some previous) current none
  | fill {previous current : ValidatedOrderEvent} {fill : FillEvidence} (pendingSlippage : ℚ)
      (fills : List (ℕ × FillEvidence)) (hcheck : checkStep previous current = .ok ())
      (hdelta : stepTolerance previous.record current.record <
        current.record.filledQuantity - previous.record.filledQuantity)
      (hfill : stepFill ⟨previous, pendingSlippage, fills⟩ current = .ok fill) :
      Increment (some previous) current (some fill)

/-- A round of the lifecycle loop moves on to its record and keeps the fill it adds under the
position of that record. -/
theorem lifecycleStep_eq_ok {scan scan' : LifecycleScan} {current : ValidatedOrderEvent}
    (h : lifecycleStep scan current = .ok scan') :
    scan'.previous = current ∧ ∃ fill, Increment (some scan.previous) current fill ∧
      scan'.fills = scan.fills ++ fill.toList.map (Prod.mk current.ordinal) := by
  obtain ⟨⟨⟩, hcheck, h⟩ := Except.bind_eq_ok.mp h
  split at h
  · rename_i hdelta
    cases h
    exact ⟨rfl, none, .quiet hcheck hdelta, by simp⟩
  · rename_i hdelta
    obtain ⟨fill, hfill, h⟩ := Except.bind_eq_ok.mp h
    cases h
    exact ⟨rfl, some fill, .fill scan.pendingSlippage scan.fills hcheck (by linarith) hfill, rfl⟩

/-- The lifecycle loop keeps fills under the positions of its records only, and ends at the last
of them. -/
theorem foldlM_lifecycleStep {rest : List ValidatedOrderEvent} {scan scan' : LifecycleScan}
    (h : rest.foldlM lifecycleStep scan = .ok scan') :
    scan'.previous = rest.getLast?.getD scan.previous ∧
      ∃ fills, scan'.fills = scan.fills ++ fills ∧
        ∀ entry ∈ fills, ∃ event ∈ rest, event.ordinal = entry.1 := by
  induction rest using List.reverseRecOn generalizing scan' with
  | nil =>
    cases h
    exact ⟨rfl, [], by simp, by simp⟩
  | append_singleton rest current ih =>
    obtain ⟨mid, hmid, hlast⟩ := foldlM_snoc_eq_ok.mp h
    obtain ⟨-, fills, hfills, hkeys⟩ := ih hmid
    obtain ⟨hprevious, fill, -, hadded⟩ := lifecycleStep_eq_ok hlast
    refine ⟨by simp [hprevious], fills ++ fill.toList.map (Prod.mk current.ordinal), ?_, ?_⟩
    · rw [hadded, hfills, List.append_assoc]
    · intro entry hentry
      rcases List.mem_append.mp hentry with hold | hnew
      · obtain ⟨event, hevent, hkey⟩ := hkeys entry hold
        exact ⟨event, by simp [hevent], hkey⟩
      · obtain ⟨added, -, rfl⟩ := List.mem_map.mp hnew
        exact ⟨current, by simp, rfl⟩

/-- No fill is kept under the position of a record that is not among those of the fills. -/
theorem lookup_eq_none_of_keys {fills : List (ℕ × FillEvidence)}
    {events : List ValidatedOrderEvent} {ordinal : ℕ}
    (hkeys : ∀ entry ∈ fills, ∃ event ∈ events, event.ordinal = entry.1)
    (hordinal : ∀ event ∈ events, event.ordinal ≠ ordinal) : fills.lookup ordinal = none := by
  rw [List.lookup_eq_none_iff]
  intro entry hentry
  obtain ⟨event, hevent, hkey⟩ := hkeys entry hentry
  have hne := hordinal event hevent
  rw [hkey] at hne
  exact bne_iff_ne.mpr hne.symm

/-- An accepted lifecycle begins created and unfilled, and its fills are those of the loop. -/
theorem validateOrderLifecycle_cons {first : ValidatedOrderEvent} {rest : List ValidatedOrderEvent}
    {last : OrderRecord} {fills : List (ℕ × FillEvidence)}
    (h : validateOrderLifecycle (first :: rest) = .ok (last, fills)) :
    first.record.status = .created ∧
      quantityClose first.record.filledQuantity 0 [first.record.requestedQuantity] ∧
      ∃ scan, rest.foldlM lifecycleStep ⟨first, 0, []⟩ = .ok scan ∧ scan.fills = fills := by
  obtain ⟨⟨⟩, hstatus, h⟩ := Except.bind_eq_ok.mp h
  obtain ⟨⟨⟩, hunfilled, h⟩ := Except.bind_eq_ok.mp h
  obtain ⟨scan, hscan, h⟩ := Except.bind_eq_ok.mp h
  obtain ⟨⟨⟩, -, h⟩ := Except.bind_eq_ok.mp h
  obtain ⟨⟨⟩, -, h⟩ := Except.bind_eq_ok.mp h
  cases h
  rw [reject_eq_ok] at hstatus hunfilled
  push Not at hstatus hunfilled
  exact ⟨hstatus, hunfilled.1, scan, hscan, rfl⟩

/-- The fills of a lifecycle are kept under the positions of its records. -/
theorem validateOrderLifecycle_keys {lifecycle : List ValidatedOrderEvent} {last : OrderRecord}
    {fills : List (ℕ × FillEvidence)} (h : validateOrderLifecycle lifecycle = .ok (last, fills)) :
    ∀ entry ∈ fills, ∃ event ∈ lifecycle, event.ordinal = entry.1 := by
  cases lifecycle with
  | nil => cases h
  | cons first rest =>
    obtain ⟨-, -, scan, hscan, rfl⟩ := validateOrderLifecycle_cons h
    obtain ⟨-, fills, hfills, hkeys⟩ := foldlM_lifecycleStep hscan
    rw [List.nil_append] at hfills
    intro entry hentry
    obtain ⟨event, hevent, hkey⟩ := hkeys entry (hfills ▸ hentry)
    exact ⟨event, List.mem_cons_of_mem _ hevent, hkey⟩

/-- In an accepted lifecycle each record adds the fill that is kept under its position. -/
theorem validateOrderLifecycle_increment {before after : List ValidatedOrderEvent}
    {current : ValidatedOrderEvent} {last : OrderRecord} {fills : List (ℕ × FillEvidence)}
    (h : validateOrderLifecycle (before ++ current :: after) = .ok (last, fills))
    (hbefore : ∀ event ∈ before, event.ordinal ≠ current.ordinal)
    (hafter : ∀ event ∈ after, event.ordinal ≠ current.ordinal) :
    Increment before.getLast? current (fills.lookup current.ordinal) := by
  cases before with
  | nil =>
    obtain ⟨hstatus, hunfilled, scan, hscan, rfl⟩ := validateOrderLifecycle_cons h
    obtain ⟨-, fills, hfills, hkeys⟩ := foldlM_lifecycleStep hscan
    rw [List.nil_append] at hfills
    have hnone : scan.fills.lookup current.ordinal = none :=
      lookup_eq_none_of_keys (hfills ▸ hkeys) hafter
    rw [hnone]
    exact .first hstatus hunfilled
  | cons first seen =>
    obtain ⟨-, -, scan, hscan, rfl⟩ := validateOrderLifecycle_cons h
    obtain ⟨mid, hseen, hrest⟩ := foldlM_append_eq_ok.mp hscan
    rw [List.foldlM_cons, Except.bind_eq_ok] at hrest
    obtain ⟨next, hstep, hlater⟩ := hrest
    obtain ⟨hprevious, earlier, hearlier, hearlierKeys⟩ := foldlM_lifecycleStep hseen
    obtain ⟨-, fill, hincrement, hadded⟩ := lifecycleStep_eq_ok hstep
    obtain ⟨-, later, hlater, hlaterKeys⟩ := foldlM_lifecycleStep hlater
    have hearlierNone : earlier.lookup current.ordinal = none :=
      lookup_eq_none_of_keys hearlierKeys fun event hevent =>
        hbefore event (List.mem_cons_of_mem _ hevent)
    have hlaterNone : later.lookup current.ordinal = none :=
      lookup_eq_none_of_keys hlaterKeys hafter
    have hlookup : scan.fills.lookup current.ordinal = fill := by
      rw [hlater, hadded, hearlier]
      cases fill with
      | none => simp [List.lookup_append, hearlierNone, hlaterNone]
      | some fill => simp [List.lookup_append, hearlierNone]
    rw [hlookup, List.getLast?_cons, ← hprevious]
    exact hincrement

/-! ## The records of the log -/

/-- What the first loop of `_validate_orders` says of a record. -/
structure Recorded (event : ValidatedOrderEvent) : Prop where
  side : event.record.side ∈ ["BUY", "SELL"]
  finite : InRange event.record.filledQuantity
  filled : 0 ≤ event.record.filledQuantity
  fill : 0 < event.record.filledQuantity → ∃ time price, event.record.fillTime = some time ∧
    event.record.fillPrice = some price ∧ event.fillTime = some time ∧ InRange price ∧ 0 < price

/-- The fill time of a filled record is its own, and its price is finite and positive. -/
theorem fillTimeOf_eq_ok {index : List ℤ} {order : OrderRecord} {signalTime occurredAt : ℤ}
    {fillTime : Option ℤ} (h : fillTimeOf index order signalTime occurredAt = .ok fillTime)
    (hfilled : 0 < order.filledQuantity) : ∃ time price, order.fillTime = some time ∧
      order.fillPrice = some price ∧ fillTime = some time ∧ InRange price ∧ 0 < price := by
  rw [fillTimeOf, if_pos hfilled] at h
  obtain ⟨time, htime, h⟩ := Except.bind_eq_ok.mp h
  obtain ⟨price, hprice, h⟩ := Except.bind_eq_ok.mp h
  obtain ⟨time', hphase, h⟩ := Except.bind_eq_ok.mp h
  obtain ⟨⟨⟩, hordered, h⟩ := Except.bind_eq_ok.mp h
  obtain ⟨⟨⟩, -, hphase⟩ := Except.bind_eq_ok.mp hphase
  cases hphase
  cases h
  rw [reject_eq_ok] at hordered
  push Not at hordered
  exact ⟨time, price, require_eq_ok.mp htime, require_eq_ok.mp hprice, rfl, hordered.2.2⟩

/-- A checked record keeps its position and the record it checks. -/
theorem validateRecord_eq_ok {index : List ℤ} {order : OrderRecord} {ordinal : ℕ}
    {event : ValidatedOrderEvent} (h : validateRecord index order ordinal = .ok event) :
    event.ordinal = ordinal ∧ event.record = order ∧ Recorded event := by
  obtain ⟨⟨⟩, -, h⟩ := Except.bind_eq_ok.mp h
  obtain ⟨⟨⟩, hside, h⟩ := Except.bind_eq_ok.mp h
  obtain ⟨⟨⟩, hfinite, h⟩ := Except.bind_eq_ok.mp h
  obtain ⟨⟨⟩, hsign, h⟩ := Except.bind_eq_ok.mp h
  obtain ⟨⟨⟩, -, h⟩ := Except.bind_eq_ok.mp h
  obtain ⟨occurredAt, -, h⟩ := Except.bind_eq_ok.mp h
  obtain ⟨signalTime, -, h⟩ := Except.bind_eq_ok.mp h
  obtain ⟨⟨⟩, -, h⟩ := Except.bind_eq_ok.mp h
  obtain ⟨fillTime, hfillTime, h⟩ := Except.bind_eq_ok.mp h
  obtain ⟨⟨⟩, -, h⟩ := Except.bind_eq_ok.mp h
  cases h
  rw [reject_eq_ok] at hside hfinite hsign
  push Not at hside hfinite hsign
  exact ⟨rfl, rfl, ⟨hside, hfinite _ (by simp [orderValues]), hsign.2.1,
    fillTimeOf_eq_ok hfillTime⟩⟩

/-- The checked records of a log are its records, each under its position. -/
theorem validateRecords_eq_ok {index : List ℤ} {orders : List OrderRecord}
    {events : List ValidatedOrderEvent} (h : validateRecords index orders = .ok events) :
    events.map (·.record) = orders ∧ (events.map (·.ordinal)).Nodup ∧
      ∀ event ∈ events, Recorded event := by
  obtain ⟨checked, hchecked, h⟩ := Except.bind_eq_ok.mp h
  obtain ⟨⟨⟩, -, h⟩ := Except.bind_eq_ok.mp h
  cases h
  have hrows := (mapM_eq_ok.mp hchecked).imp fun _ _ => validateRecord_eq_ok
  have hordinal : orders.zipIdx.map Prod.snd = events.map (·.ordinal) :=
    map_eq_of_forall₂ (hrows.imp fun _ _ hrow => hrow.1.symm)
  have hrecord : orders.zipIdx.map Prod.fst = events.map (·.record) :=
    map_eq_of_forall₂ (hrows.imp fun _ _ hrow => hrow.2.1.symm)
  refine ⟨?_, ?_, ?_⟩
  · rw [← hrecord, List.zipIdx_map_fst]
  · rw [← hordinal, List.zipIdx_map_snd]
    exact List.nodup_range'
  · intro event hevent
    obtain ⟨item, -, hrow⟩ := forall₂_exists_left hrows hevent
    exact hrow.2.2

/-! ## The fills of the log -/

/-- When some list keeps a fill under a position and the others keep the same or nothing, all of
them together keep that fill. -/
theorem lookup_flatMap {results : List (OrderRecord × List (ℕ × FillEvidence))} {ordinal : ℕ}
    {fill : Option FillEvidence}
    (hall : ∀ result ∈ results, result.2.lookup ordinal = none ∨ result.2.lookup ordinal = fill)
    (hsome : fill = none ∨ ∃ result ∈ results, result.2.lookup ordinal = fill) :
    (results.flatMap Prod.snd).lookup ordinal = fill := by
  induction results with
  | nil =>
    rcases hsome with rfl | ⟨result, hresult, -⟩
    · rfl
    · cases hresult
  | cons head results ih =>
    have htail := fun result hresult => hall result (List.mem_cons_of_mem head hresult)
    rw [List.flatMap_cons, List.lookup_append]
    rcases hall head (by simp) with hhead | hhead
    · rw [hhead, Option.none_or]
      refine ih htail ?_
      rcases hsome with hnone | ⟨result, hresult, hkept⟩
      · exact .inl hnone
      · rcases List.mem_cons.mp hresult with rfl | hlater
        · exact .inl (hkept.symm.trans hhead)
        · exact .inr ⟨result, hlater, hkept⟩
    · cases fill with
      | none => rw [hhead, Option.none_or, ih htail (.inl rfl)]
      | some fill => rw [hhead, Option.some_or]

/-- In an accepted log each record adds the fill that is kept under its position. -/
theorem validateLifecycles_increment {events before after : List ValidatedOrderEvent}
    {current : ValidatedOrderEvent} {finalOrders : List OrderRecord}
    {fillsByOrdinal : List (ℕ × FillEvidence)}
    (h : validateLifecycles events = .ok (finalOrders, fillsByOrdinal))
    (hordinal : (events.map (·.ordinal)).Nodup) (hsplit : events = before ++ current :: after) :
    Increment (lastOf before current.record.orderId) current
      (fillsByOrdinal.lookup current.ordinal) := by
  obtain ⟨results, hresults, h⟩ := Except.bind_eq_ok.mp h
  cases h
  have hlifecycles := mapM_eq_ok.mp hresults
  subst hsplit
  simp only [List.map_append, List.map_cons, List.nodup_append, List.nodup_cons, List.mem_map,
    List.mem_cons] at hordinal
  obtain ⟨-, ⟨hnotAfter, -⟩, hdisjoint⟩ := hordinal
  have hbefore : ∀ event ∈ before, event.ordinal ≠ current.ordinal := fun event hevent =>
    hdisjoint _ ⟨event, hevent, rfl⟩ _ (.inl rfl)
  have hafter : ∀ event ∈ after, event.ordinal ≠ current.ordinal := fun event hevent heq =>
    hnotAfter ⟨event, hevent, heq⟩
  have hown : lifecycleOf (before ++ current :: after) current.record.orderId =
      lifecycleOf before current.record.orderId ++
        current :: lifecycleOf after current.record.orderId := by
    simp [lifecycleOf]
  have hid : current.record.orderId ∈ orderIds (before ++ current :: after) := by
    simp [orderIds, List.mem_eraseDups]
  obtain ⟨own, hmem, hlifecycle⟩ := forall₂_exists_right hlifecycles hid
  rw [hown] at hlifecycle
  have hincrement := validateOrderLifecycle_increment hlifecycle
    (fun event hevent => hbefore event (List.mem_of_mem_filter hevent))
    (fun event hevent => hafter event (List.mem_of_mem_filter hevent))
  have hlookup : (results.flatMap Prod.snd).lookup current.ordinal =
      own.2.lookup current.ordinal := by
    refine lookup_flatMap ?_ (.inr ⟨own, hmem, rfl⟩)
    intro result hresult
    obtain ⟨id, -, hother⟩ := forall₂_exists_left hlifecycles hresult
    by_cases heq : id = current.record.orderId
    · rw [heq, hown, hlifecycle] at hother
      cases hother
      exact .inr rfl
    · refine .inl (lookup_eq_none_of_keys (validateOrderLifecycle_keys hother) ?_)
      intro event hevent hsame
      obtain ⟨hmember, howner⟩ := List.mem_filter.mp hevent
      rcases List.mem_append.mp hmember with hold | hnew
      · exact hbefore event hold hsame
      · rcases List.mem_cons.mp hnew with rfl | hlater
        · exact heq (of_decide_eq_true howner).symm
        · exact hafter event hlater hsame
  rw [hlookup]
  exact hincrement

/-! ## A round of the second reader -/

/-- The fill as `_order_fill_events` reports it. -/
def FillEvidence.event (fill : FillEvidence) : FillEvent where
  timestamp := fill.timestamp
  signedQuantity := if fill.side = "BUY" then fill.quantity else -fill.quantity
  notional := fill.notional

/-- The cumulative quantity of an order after its last record. -/
def quantityAfter (last : Option OrderRecord) : ℚ := (last.map (·.filledQuantity)).getD 0

/-- The order is partially filled after its last record. -/
def StartedAfter (last : Option OrderRecord) : Prop := ∃ record ∈ last, record.status = .partial_

/-- Both readers see the same of a record, given the record of its order before it: a fill exceeds
the fixed quantity, and before the first fill no quantity has drifted. -/
def ResolvedAt (previous : Option OrderRecord) (current : OrderRecord) : Prop :=
  if current.status = .partial_ ∨ current.status = .completed then
    quantityAfter previous + fillEpsilon < current.filledQuantity ∧
      (StartedAfter previous ∨ quantityAfter previous = 0)
  else StartedAfter previous ∨ current.filledQuantity ≤ fillEpsilon

instance (last : Option OrderRecord) : Decidable (StartedAfter last) :=
  inferInstanceAs (Decidable (∃ record ∈ last, record.status = .partial_))

instance (previous : Option OrderRecord) (current : OrderRecord) :
    Decidable (ResolvedAt previous current) :=
  inferInstanceAs (Decidable (if current.status = .partial_ ∨ current.status = .completed then
    quantityAfter previous + fillEpsilon < current.filledQuantity ∧
      (StartedAfter previous ∨ quantityAfter previous = 0)
  else StartedAfter previous ∨ current.filledQuantity ≤ fillEpsilon))

/-- What `_order_fill_events` knows of an order after its last record. -/
inductive KnownOf : Option OrderRecord → Option Cumulative → Prop where
  | unseen : KnownOf none none
  | unfilled {last : OrderRecord} (hstatus : last.status ≠ .partial_) : KnownOf (some last) none
  | partly {last : OrderRecord} {notional : ℚ} (hstatus : last.status = .partial_)
      (hfilled : fillEpsilon < last.filledQuantity)
      (hnotional : cumulativeOrderNotional last = .ok notional) :
      KnownOf (some last) (some ⟨last.side, last.filledQuantity, notional⟩)
  | settled {last : OrderRecord} {known : Option Cumulative}
      (hterminal : isTerminal last.status = true) : KnownOf (some last) known

/-- The tolerance of the lifecycle checks never exceeds the fixed quantity. -/
theorem stepTolerance_le (previous current : OrderRecord) :
    stepTolerance previous current ≤ fillEpsilon :=
  (quantityTolerance_le _).trans (by norm_num [quantityMaxTolerance, fillEpsilon])

/-- What the checks of a round of the lifecycle loop say: the side is kept, the transition is in
the table, and the quantity grows exactly when the record is partial or completed. -/
theorem checkStep_eq_ok {previous current : ValidatedOrderEvent}
    (h : checkStep previous current = .ok ()) :
    current.record.side = previous.record.side ∧
      allowsTransition previous.record.status current.record.status = true ∧
      previous.record.filledQuantity ≤
        current.record.filledQuantity + stepTolerance previous.record current.record ∧
      (stepTolerance previous.record current.record <
          current.record.filledQuantity - previous.record.filledQuantity ↔
        current.record.status = .partial_ ∨ current.record.status = .completed) := by
  obtain ⟨⟨⟩, hstable, h⟩ := Except.bind_eq_ok.mp h
  obtain ⟨⟨⟩, htransition, h⟩ := Except.bind_eq_ok.mp h
  obtain ⟨⟨⟩, hmonotonic, h⟩ := Except.bind_eq_ok.mp h
  obtain ⟨⟨⟩, hterminal, h⟩ := Except.bind_eq_ok.mp h
  obtain ⟨⟨⟩, hunfilled, h⟩ := Except.bind_eq_ok.mp h
  obtain ⟨⟨⟩, hpartly, hcompleted⟩ := Except.bind_eq_ok.mp h
  rw [reject_eq_ok] at hstable htransition hmonotonic hterminal hunfilled hpartly hcompleted
  push Not at hstable hmonotonic
  refine ⟨hstable.1, by simpa using htransition, hmonotonic.1, ?_⟩
  generalize current.record.status = status at *
  cases status <;>
    simp [isTerminal] at hterminal hunfilled hpartly hcompleted ⊢ <;>
    linarith

/-- What a fill of the lifecycle loop holds. -/
theorem stepFill_eq_ok {scan : LifecycleScan} {current : ValidatedOrderEvent} {fill : FillEvidence}
    (h : stepFill scan current = .ok fill) : ∃ time before after, current.fillTime = some time ∧
      cumulativeOrderNotional scan.previous.record = .ok before ∧
      cumulativeOrderNotional current.record = .ok after ∧ before < after ∧
      InRange (-before) ∧ InRange after ∧ InRange (after + -before) ∧
      fill.event = ⟨time, if current.record.side = "BUY" then
        current.record.filledQuantity - scan.previous.record.filledQuantity
        else -(current.record.filledQuantity - scan.previous.record.filledQuantity),
        after + -before⟩ := by
  obtain ⟨time, htime, h⟩ := Except.bind_eq_ok.mp h
  obtain ⟨before, hbefore, h⟩ := Except.bind_eq_ok.mp h
  obtain ⟨after, hafter, h⟩ := Except.bind_eq_ok.mp h
  obtain ⟨⟨⟩, hnotional, h⟩ := Except.bind_eq_ok.mp h
  cases h
  rw [reject_eq_ok] at hnotional
  push Not at hnotional
  obtain ⟨hrange, hincreases⟩ := hnotional
  obtain ⟨hexact, hafterRange, hbeforeRange⟩ := plus_eq hrange
  rw [hexact] at hrange hincreases
  have hpositive : (0 : ℚ) < reconciliationTolerance := by norm_num [reconciliationTolerance]
  refine ⟨time, before, after, require_eq_ok.mp htime, hbefore, hafter, by linarith, hbeforeRange,
    hafterRange, hrange, ?_⟩
  rw [FillEvidence.event, hexact]

/-- The notional of a quantity that exceeds the fixed one. -/
theorem cumulativeOrderNotional_of_lt {order : OrderRecord} {price : ℚ}
    (hfilled : fillEpsilon < order.filledQuantity) (hprice : order.fillPrice = some price)
    (hrange : InRange price) :
    cumulativeOrderNotional order = .ok (order.filledQuantity * price) := by
  have hsmall : quantityAbsoluteTolerance < fillEpsilon := by
    norm_num [quantityAbsoluteTolerance, fillEpsilon]
  rw [cumulativeOrderNotional, if_neg (by linarith)]
  have hfinite : order.fillPrice.filter (fun price => InRange price) = some price := by
    rw [hprice, Option.filter_some, if_pos (decide_eq_true hrange)]
  exact Except.bind_eq_ok.mpr ⟨price, require_eq_ok.mpr hfinite, rfl⟩

/-- The notional of no quantity. -/
theorem cumulativeOrderNotional_of_eq_zero {order : OrderRecord} (h : order.filledQuantity = 0) :
    cumulativeOrderNotional order = .ok 0 := by
  rw [cumulativeOrderNotional, h, if_pos (by norm_num [quantityAbsoluteTolerance])]
  rfl

/-- The second reader passes over a record that adds no more than the fixed quantity. -/
theorem scanOrderFill_of_le {scan : FillScan} {order : OrderRecord} {prior : Cumulative}
    (hprior : (scan.cumulative.lookup order.orderId).getD ⟨order.side, 0, 0⟩ = prior)
    (hside : order.side ∈ ["BUY", "SELL"]) (hsame : order.side = prior.side)
    (hrange : InRange order.filledQuantity) (hfilled : 0 ≤ order.filledQuantity)
    (hcumulative : prior.quantity ≤ order.filledQuantity + fillEpsilon)
    (hquiet : order.filledQuantity ≤ prior.quantity + fillEpsilon) :
    scanOrderFill scan order = .ok scan := by
  subst hprior
  refine Except.bind_eq_ok.mpr ⟨_, nonnegativeScalar_eq_ok.mpr ⟨hrange, hfilled, rfl⟩, ?_⟩
  refine Except.bind_eq_ok.mpr ⟨(), reject_eq_ok.mpr (by simp [hside, ← hsame]), ?_⟩
  refine Except.bind_eq_ok.mpr ⟨(), reject_eq_ok.mpr (by linarith), ?_⟩
  rw [if_pos hquiet]
  rfl

/-- The second reader passes over a record without a quantity to speak of, of an order of which it
knows nothing. -/
theorem scanOrderFill_of_unknown {scan : FillScan} {order : OrderRecord}
    (hunknown : scan.cumulative.lookup order.orderId = none) (hside : order.side ∈ ["BUY", "SELL"])
    (hrange : InRange order.filledQuantity) (hfilled : 0 ≤ order.filledQuantity)
    (hsmall : order.filledQuantity ≤ fillEpsilon) :
    scanOrderFill scan order = .ok scan := by
  have hprior : (scan.cumulative.lookup order.orderId).getD ⟨order.side, 0, 0⟩ =
      ⟨order.side, 0, 0⟩ := by
    rw [hunknown]
    rfl
  have hepsilon : (0 : ℚ) < fillEpsilon := by norm_num [fillEpsilon]
  refine scanOrderFill_of_le hprior hside rfl hrange hfilled ?_ ?_
  · change 0 ≤ order.filledQuantity + fillEpsilon
    linarith
  · change order.filledQuantity ≤ 0 + fillEpsilon
    linarith

/-- The second reader takes a record that adds more than the fixed quantity for a fill. -/
theorem scanOrderFill_of_lt {scan : FillScan} {order : OrderRecord} {prior : Cumulative}
    {time : ℤ} {price : ℚ}
    (hprior : (scan.cumulative.lookup order.orderId).getD ⟨order.side, 0, 0⟩ = prior)
    (hside : order.side ∈ ["BUY", "SELL"]) (hsame : order.side = prior.side)
    (hrange : InRange order.filledQuantity) (hfilled : 0 ≤ order.filledQuantity)
    (hfill : prior.quantity + fillEpsilon < order.filledQuantity)
    (htime : order.fillTime = some time) (hprice : order.fillPrice = some price)
    (hpriceRange : InRange price) (hpos : 0 ≤ price) (hpriorRange : InRange (-prior.notional))
    (hnotionalRange : InRange (order.filledQuantity * price))
    (hdeltaRange : InRange (order.filledQuantity * price + -prior.notional))
    (hnotional : prior.notional ≤ order.filledQuantity * price) :
    scanOrderFill scan order = .ok
      ⟨(order.orderId, ⟨order.side, order.filledQuantity, order.filledQuantity * price⟩) ::
        scan.cumulative,
        scan.events ++ [⟨time, if order.side = "BUY" then order.filledQuantity - prior.quantity
          else -(order.filledQuantity - prior.quantity),
          order.filledQuantity * price + -prior.notional⟩]⟩ := by
  subst hprior
  have hepsilon : (0 : ℚ) < fillEpsilon := by norm_num [fillEpsilon]
  refine Except.bind_eq_ok.mpr ⟨_, nonnegativeScalar_eq_ok.mpr ⟨hrange, hfilled, rfl⟩, ?_⟩
  refine Except.bind_eq_ok.mpr ⟨(), reject_eq_ok.mpr (by simp [hside, ← hsame]), ?_⟩
  refine Except.bind_eq_ok.mpr ⟨(), reject_eq_ok.mpr (by linarith), ?_⟩
  rw [if_neg (by linarith)]
  refine Except.bind_eq_ok.mpr ⟨time, require_eq_ok.mpr htime, ?_⟩
  refine Except.bind_eq_ok.mpr ⟨price, require_eq_ok.mpr hprice, ?_⟩
  refine Except.bind_eq_ok.mpr ⟨_, nonnegativeScalar_eq_ok.mpr ⟨hpriceRange, hpos, rfl⟩, ?_⟩
  rw [product_of_inRange hrange hpriceRange]
  dsimp only
  rw [plus_of_inRange hnotionalRange hpriorRange]
  refine Except.bind_eq_ok.mpr ⟨(), reject_eq_ok.mpr ?_, rfl⟩
  push Not
  exact ⟨by linarith, hdeltaRange⟩

/-- A round of the second reader either passes over its record or adds the increase over what it
knew. -/
theorem scanOrderFill_eq_ok {scan scan' : FillScan} {order : OrderRecord} {prior : Cumulative}
    (hprior : (scan.cumulative.lookup order.orderId).getD ⟨order.side, 0, 0⟩ = prior)
    (h : scanOrderFill scan order = .ok scan') :
    order.filledQuantity ≤ prior.quantity + fillEpsilon ∧ scan' = scan ∨
      prior.quantity + fillEpsilon < order.filledQuantity ∧
        ∃ time notional, scan'.events = scan.events ++ [⟨time, if order.side = "BUY" then
          order.filledQuantity - prior.quantity else -(order.filledQuantity - prior.quantity),
          notional⟩] := by
  subst hprior
  obtain ⟨filled, hfilled, h⟩ := Except.bind_eq_ok.mp h
  obtain ⟨-, -, rfl⟩ := nonnegativeScalar_eq_ok.mp hfilled
  obtain ⟨⟨⟩, -, h⟩ := Except.bind_eq_ok.mp h
  obtain ⟨⟨⟩, -, h⟩ := Except.bind_eq_ok.mp h
  split at h
  · rename_i hquiet
    cases h
    exact .inl ⟨hquiet, rfl⟩
  · rename_i hfill
    obtain ⟨time, -, h⟩ := Except.bind_eq_ok.mp h
    obtain ⟨price, -, h⟩ := Except.bind_eq_ok.mp h
    obtain ⟨_, -, h⟩ := Except.bind_eq_ok.mp h
    obtain ⟨⟨⟩, -, h⟩ := Except.bind_eq_ok.mp h
    cases h
    exact .inr ⟨by linarith, time, _, rfl⟩

/-- Nothing follows a terminal status. -/
theorem allowsTransition_of_terminal {status next : OrderStatus} (h : isTerminal status = true) :
    allowsTransition status next = false := by
  cases status <;> simp_all [isTerminal, allowsTransition]

/-- After a partial fill comes another, or a terminal status. -/
theorem allowsTransition_partial {next : OrderStatus} (h : allowsTransition .partial_ next = true) :
    next = .partial_ ∨ isTerminal next = true := by
  simpa [allowsTransition] using h

/-- What the second reader knows of an order that something can follow: the totals of its last
record if that was partially filled, and nothing otherwise. -/
theorem KnownOf.prior {last : OrderRecord} {known : Option Cumulative} {side : String}
    (h : KnownOf (some last) known) (hopen : isTerminal last.status = false)
    (hside : side = last.side) :
    last.status = .partial_ ∧ fillEpsilon < last.filledQuantity ∧
        (∃ notional, cumulativeOrderNotional last = .ok notional ∧
          known.getD ⟨side, 0, 0⟩ = ⟨side, last.filledQuantity, notional⟩) ∨
      last.status ≠ .partial_ ∧ known = none := by
  cases h with
  | unfilled hstatus => exact .inr ⟨hstatus, rfl⟩
  | @partly _ notional hstatus hfilled hnotional =>
    exact .inl ⟨hstatus, hfilled, notional, hnotional, by rw [hside]; rfl⟩
  | settled hterminal => simp [hterminal] at hopen

/-- Something follows a record whose transition is in the table. -/
theorem not_isTerminal_of_allowsTransition {status next : OrderStatus}
    (h : allowsTransition status next = true) : isTerminal status = false := by
  cases hterminal : isTerminal status with
  | false => rfl
  | true => simp [allowsTransition_of_terminal hterminal] at h

/-- When both readers see the same of a record, the second one adds the fill of the first, and
knows of the order what the record says; it learns nothing of the other orders. -/
theorem scanOrderFill_of_resolvedAt {previous : Option ValidatedOrderEvent}
    {current : ValidatedOrderEvent} {fill : Option FillEvidence} {scan : FillScan}
    {known : Option Cumulative} (hincrement : Increment previous current fill)
    (hrecorded : Recorded current)
    (hlookup : scan.cumulative.lookup current.record.orderId = known)
    (hknown : KnownOf (previous.map (·.record)) known)
    (hresolved : ResolvedAt (previous.map (·.record)) current.record) :
    ∃ scan', scanOrderFill scan current.record = .ok scan' ∧
      scan'.events = scan.events ++ fill.toList.map FillEvidence.event ∧
      KnownOf (some current.record) (scan'.cumulative.lookup current.record.orderId) ∧
      ∀ other ≠ current.record.orderId,
        scan'.cumulative.lookup other = scan.cumulative.lookup other := by
  have hepsilon : (0 : ℚ) < fillEpsilon := by norm_num [fillEpsilon]
  have hrange := hrecorded.finite
  have hfilled := hrecorded.filled
  have hside := hrecorded.side
  cases hincrement with
  | first hstatus hunfilled =>
    cases hknown
    have hsmall : current.record.filledQuantity ≤ fillEpsilon := by
      rw [ResolvedAt, if_neg (by simp [hstatus])] at hresolved
      simpa [StartedAfter] using hresolved
    have hscan := scanOrderFill_of_unknown hlookup hside hrange hfilled hsmall
    refine ⟨scan, hscan, by simp, ?_, fun _ _ => rfl⟩
    rw [hlookup]
    exact .unfilled (by simp [hstatus])
  | @quiet previous _ hcheck hdelta =>
    obtain ⟨hsame, htransition, hmonotonic, hgrows⟩ := checkStep_eq_ok hcheck
    have htolerance := stepTolerance_le previous.record current.record
    have hstatus := mt hgrows.mpr (not_lt.mpr hdelta)
    rw [ResolvedAt, if_neg hstatus] at hresolved
    rcases hknown.prior (not_isTerminal_of_allowsTransition htransition) hsame with
      ⟨hpartly, -, notional, -, hprior⟩ | ⟨hpartly, rfl⟩
    · -- the order is partially filled: its totals are known, and its next status is terminal
      rw [hpartly] at htransition
      have hterminal : isTerminal current.record.status = true := by
        rcases allowsTransition_partial htransition with hagain | hterminal
        · exact absurd (.inl hagain) hstatus
        · exact hterminal
      have hscan : scanOrderFill scan current.record = .ok scan :=
        scanOrderFill_of_le (by rw [hlookup, hprior]) hside rfl hrange hfilled (by linarith)
          (by linarith)
      exact ⟨scan, hscan, by simp, .settled hterminal, fun _ _ => rfl⟩
    · have hsmall : current.record.filledQuantity ≤ fillEpsilon := by
        simpa [StartedAfter, hpartly] using hresolved
      have hscan := scanOrderFill_of_unknown hlookup hside hrange hfilled hsmall
      refine ⟨scan, hscan, by simp, ?_, fun _ _ => rfl⟩
      rw [hlookup]
      exact .unfilled fun h => hstatus (.inl h)
  | @fill previous _ fill pendingSlippage fills hcheck hdelta hfill =>
    obtain ⟨hsame, htransition, -, hgrows⟩ := checkStep_eq_ok hcheck
    obtain ⟨time, before, after, htime, hbefore, hafter, hincreases, hbeforeRange, hafterRange,
      hdeltaRange, hevent⟩ := stepFill_eq_ok hfill
    have hstatus := hgrows.mp hdelta
    rw [ResolvedAt, if_pos hstatus] at hresolved
    obtain ⟨hlarge, hstart⟩ := hresolved
    change previous.record.filledQuantity + fillEpsilon < current.record.filledQuantity at hlarge
    have hprior : known.getD ⟨current.record.side, 0, 0⟩ =
        ⟨current.record.side, previous.record.filledQuantity, before⟩ ∧
          0 ≤ previous.record.filledQuantity := by
      rcases hknown.prior (not_isTerminal_of_allowsTransition htransition) hsame with
        ⟨-, hpositive, notional, hnotional, hprior⟩ | ⟨hpartly, rfl⟩
      · cases hbefore.symm.trans hnotional
        exact ⟨hprior, by linarith⟩
      · have hzero : previous.record.filledQuantity = 0 :=
          hstart.resolve_left (by simpa [StartedAfter] using hpartly)
        cases hbefore.symm.trans (cumulativeOrderNotional_of_eq_zero hzero)
        rw [hzero]
        exact ⟨rfl, le_refl 0⟩
    obtain ⟨hprior, hpositive⟩ := hprior
    obtain ⟨time', price, hfillTime, hprice, htime', hpriceRange, hpos⟩ :=
      hrecorded.fill (by linarith)
    cases htime.symm.trans htime'
    have hnotional := cumulativeOrderNotional_of_lt (by linarith) hprice hpriceRange
    cases hafter.symm.trans hnotional
    have htotals : (scan.cumulative.lookup current.record.orderId).getD
        ⟨current.record.side, 0, 0⟩ =
        ⟨current.record.side, previous.record.filledQuantity, before⟩ := by
      rw [hlookup, hprior]
    have hscan := scanOrderFill_of_lt htotals hside rfl hrange hfilled hlarge hfillTime hprice
      hpriceRange hpos.le hbeforeRange hafterRange hdeltaRange hincreases.le
    refine ⟨_, hscan, by simp [hevent], ?_, ?_⟩
    · rw [List.lookup_cons_self]
      rcases hstatus with hpartly | hcompleted
      · exact .partly hpartly (by linarith) hnotional
      · exact .settled (by rw [hcompleted]; rfl)
    · intro other hother
      rw [List.lookup_cons, beq_eq_false_iff_ne.mpr hother]

/-- When the second reader adds the fill of the first, both see the same of the record. -/
theorem resolvedAt_of_scanOrderFill {previous : Option ValidatedOrderEvent}
    {current : ValidatedOrderEvent} {fill : Option FillEvidence} {scan scan' : FillScan}
    {known : Option Cumulative} (hincrement : Increment previous current fill)
    (hlookup : scan.cumulative.lookup current.record.orderId = known)
    (hknown : KnownOf (previous.map (·.record)) known)
    (hscan : scanOrderFill scan current.record = .ok scan')
    (hevents : scan'.events = scan.events ++ fill.toList.map FillEvidence.event) :
    ResolvedAt (previous.map (·.record)) current.record := by
  cases hincrement with
  | first hstatus hunfilled =>
    have hsmall : current.record.filledQuantity ≤ fillEpsilon := by
      obtain ⟨-, -, hunfilled⟩ := hunfilled
      rw [sub_zero] at hunfilled
      have htolerance : quantityMaxTolerance ≤ fillEpsilon := by
        norm_num [quantityMaxTolerance, fillEpsilon]
      exact (le_abs_self _).trans (hunfilled.trans ((quantityTolerance_le _).trans htolerance))
    rw [ResolvedAt, if_neg (by simp [hstatus])]
    exact .inr hsmall
  | @quiet previous _ hcheck hdelta =>
    obtain ⟨hsame, htransition, -, hgrows⟩ := checkStep_eq_ok hcheck
    rw [ResolvedAt, if_neg (mt hgrows.mpr (not_lt.mpr hdelta))]
    rcases hknown.prior (not_isTerminal_of_allowsTransition htransition) hsame with
      ⟨hpartly, -⟩ | ⟨-, rfl⟩
    · exact .inl ⟨_, rfl, hpartly⟩
    · right
      rcases scanOrderFill_eq_ok (by rw [hlookup]) hscan with
        ⟨hquiet, -⟩ | ⟨-, time, notional, hadded⟩
      · simpa using hquiet
      · rw [hadded] at hevents
        simp at hevents
  | @fill previous _ fill pendingSlippage fills hcheck hdelta hfill =>
    obtain ⟨hsame, htransition, -, hgrows⟩ := checkStep_eq_ok hcheck
    obtain ⟨time, before, after, -, -, -, -, -, -, -, hevent⟩ := stepFill_eq_ok hfill
    rw [ResolvedAt, if_pos (hgrows.mp hdelta)]
    rcases scanOrderFill_eq_ok (by rw [hlookup]) hscan with
      ⟨-, rfl⟩ | ⟨hlarge, time', notional, hadded⟩
    · simp at hevents
    · have hsigned : (if current.record.side = "BUY" then
          current.record.filledQuantity - (known.getD ⟨current.record.side, 0, 0⟩).quantity
          else -(current.record.filledQuantity -
            (known.getD ⟨current.record.side, 0, 0⟩).quantity)) =
          if current.record.side = "BUY" then
            current.record.filledQuantity - previous.record.filledQuantity
          else -(current.record.filledQuantity - previous.record.filledQuantity) := by
        rw [hadded] at hevents
        simp only [Option.toList_some, List.map_cons, List.map_nil, hevent,
          List.append_cancel_left_eq, List.cons.injEq, FillEvent.mk.injEq, and_true] at hevents
        exact hevents.2.1
      have hquantity : (known.getD ⟨current.record.side, 0, 0⟩).quantity =
          previous.record.filledQuantity := by
        split at hsigned <;> linarith
      rw [hquantity] at hlarge
      refine ⟨hlarge, ?_⟩
      · rcases hknown.prior (not_isTerminal_of_allowsTransition htransition) hsame with
          ⟨hpartly, -⟩ | ⟨-, rfl⟩
        · exact .inl ⟨_, rfl, hpartly⟩
        · exact .inr hquantity.symm

/-! ## The second reader over a log -/

/-- The last record of an order so far. -/
def lastRecord (before : List OrderRecord) (orderId : String) : Option OrderRecord :=
  (before.filter (·.orderId = orderId)).getLast?

/-- Both readers see the same of every record of a log. -/
def Resolved (orders : List OrderRecord) : Prop :=
  ∀ n < orders.length, ∀ current ∈ orders[n]?,
    ResolvedAt (lastRecord (orders.take n) current.orderId) current

instance (orders : List OrderRecord) : Decidable (Resolved orders) :=
  inferInstanceAs (Decidable (∀ n < orders.length, ∀ current ∈ orders[n]?,
    ResolvedAt (lastRecord (orders.take n) current.orderId) current))

/-- What `_validate_orders` keeps in `fills_by_ordinal` for each record. -/
def recordFills (index : List ℤ) (orders : List OrderRecord) :
    Except Failure (List (Option FillEvidence)) := do
  let events ← validateRecords index orders
  let (_, fillsByOrdinal) ← validateLifecycles events
  return events.map fun event => fillsByOrdinal.lookup event.ordinal

/-- At every point of a log the second reader has raised nothing and has seen exactly the fills of
the records so far. -/
def ReadsAs (orders : List OrderRecord) (fills : List (Option FillEvidence)) : Prop :=
  ∀ n ≤ orders.length, ∃ scan, (orders.take n).foldlM scanOrderFill ⟨[], []⟩ = .ok scan ∧
    scan.events = (fills.take n).reduceOption.map FillEvidence.event

/-- Every record of a log adds the fill that is found for it. -/
def Adds (fillOf : ValidatedOrderEvent → Option FillEvidence) (events : List ValidatedOrderEvent) :
    Prop :=
  ∀ before current after, events = before ++ current :: after →
    Recorded current ∧ Increment (lastOf before current.record.orderId) current (fillOf current)

/-- What the second reader knows after a log. -/
def Known (orders : List OrderRecord) (scan : FillScan) : Prop :=
  ∀ orderId, KnownOf (lastRecord orders orderId) (scan.cumulative.lookup orderId)

/-- The last record of an order among checked records. -/
theorem lastOf_record (events : List ValidatedOrderEvent) (orderId : String) :
    (lastOf events orderId).map (·.record) = lastRecord (events.map (·.record)) orderId := by
  rw [lastRecord, List.filter_map, List.getLast?_map]
  rfl

/-- One more record is the last of its own order, and of no other. -/
theorem lastRecord_snoc (orders : List OrderRecord) (current : OrderRecord) (orderId : String) :
    lastRecord (orders ++ [current]) orderId =
      if current.orderId = orderId then some current else lastRecord orders orderId := by
  by_cases h : current.orderId = orderId
  · simp [lastRecord, List.filter_append, h]
  · simp [lastRecord, List.filter_append, h]

/-- A log is resolved with one more record when it was before and the record is. -/
theorem resolved_snoc {orders : List OrderRecord} {current : OrderRecord} :
    Resolved (orders ++ [current]) ↔
      Resolved orders ∧ ResolvedAt (lastRecord orders current.orderId) current := by
  constructor
  · intro h
    refine ⟨fun n hn record hrecord => ?_, ?_⟩
    · have hn' : n < (orders ++ [current]).length := by simp; omega
      have hat := h n hn' record (by rwa [List.getElem?_append_left hn])
      rwa [List.take_append_of_le_length hn.le] at hat
    · have hat := h orders.length (by simp) current (by simp)
      rwa [List.take_left] at hat
  · rintro ⟨hbefore, hcurrent⟩ n hn record hrecord
    by_cases hlast : n = orders.length
    · subst hlast
      have hsame : current = record := by simpa using hrecord
      subst hsame
      rwa [List.take_left]
    · have hn' : n < orders.length := by
        simp only [List.length_append, List.length_singleton] at hn
        omega
      rw [List.getElem?_append_left hn'] at hrecord
      rw [List.take_append_of_le_length hn'.le]
      exact hbefore n hn' record hrecord

/-- Records add their fills up to each point of a log. -/
theorem Adds.init {fillOf : ValidatedOrderEvent → Option FillEvidence}
    {events : List ValidatedOrderEvent} {current : ValidatedOrderEvent}
    (h : Adds fillOf (events ++ [current])) : Adds fillOf events := by
  rintro before event after rfl
  exact h before event (after ++ [current]) (by simp)

/-- Over a resolved log the second reader raises nothing, sees the fills of the first, and knows
of each order what its last record says. -/
theorem Adds.scan_of_resolved {fillOf : ValidatedOrderEvent → Option FillEvidence}
    {events : List ValidatedOrderEvent} (hadds : Adds fillOf events)
    (hresolved : Resolved (events.map (·.record))) :
    ∃ scan, (events.map (·.record)).foldlM scanOrderFill ⟨[], []⟩ = .ok scan ∧
      scan.events = (events.filterMap fillOf).map FillEvidence.event ∧
      Known (events.map (·.record)) scan := by
  induction events using List.reverseRecOn with
  | nil => exact ⟨⟨[], []⟩, rfl, rfl, fun orderId => .unseen⟩
  | append_singleton events current ih =>
    rw [List.map_append, List.map_singleton, resolved_snoc] at hresolved
    obtain ⟨hbefore, hcurrent⟩ := hresolved
    obtain ⟨scan, hscan, hevents, hknown⟩ := ih hadds.init hbefore
    obtain ⟨hrecorded, hincrement⟩ := hadds events current [] rfl
    have hlast := hknown current.record.orderId
    rw [← lastOf_record] at hlast hcurrent
    obtain ⟨scan', hround, hadded, hlearned, hothers⟩ :=
      scanOrderFill_of_resolvedAt hincrement hrecorded rfl hlast hcurrent
    refine ⟨scan', ?_, ?_, ?_⟩
    · rw [List.map_append, List.map_singleton, foldlM_snoc_eq_ok]
      exact ⟨scan, hscan, hround⟩
    · rw [hadded, hevents, List.filterMap_append, List.map_append]
      cases hfill : fillOf current <;> simp [hfill]
    · intro orderId
      rw [List.map_append, List.map_singleton, lastRecord_snoc]
      split
      · rename_i hown
        rw [← hown]
        exact hlearned
      · rename_i hother
        rw [hothers orderId (Ne.symm hother)]
        exact hknown orderId

/-- The second reader sees at every point of a log what it sees of the log up to there. -/
theorem ReadsAs.init {orders : List OrderRecord} {fills : List (Option FillEvidence)}
    {current : OrderRecord} {fill : Option FillEvidence} (hlength : fills.length = orders.length)
    (h : ReadsAs (orders ++ [current]) (fills ++ [fill])) : ReadsAs orders fills := by
  intro n hn
  obtain ⟨scan, hscan, hevents⟩ := h n (by simp; omega)
  rw [List.take_append_of_le_length hn] at hscan
  rw [List.take_append_of_le_length (by omega)] at hevents
  exact ⟨scan, hscan, hevents⟩

/-- A log that the second reader reads as the first one is resolved. -/
theorem Adds.resolved_of_readsAs {fillOf : ValidatedOrderEvent → Option FillEvidence}
    {events : List ValidatedOrderEvent} (hadds : Adds fillOf events)
    (hreads : ReadsAs (events.map (·.record)) (events.map fillOf)) :
    Resolved (events.map (·.record)) := by
  induction events using List.reverseRecOn with
  | nil => simp [Resolved]
  | append_singleton events current ih =>
    simp only [List.map_append, List.map_singleton] at hreads ⊢
    have hbefore := ih hadds.init (hreads.init (by simp))
    refine resolved_snoc.mpr ⟨hbefore, ?_⟩
    obtain ⟨scan, hscan, hevents, hknown⟩ := hadds.init.scan_of_resolved hbefore
    obtain ⟨-, hincrement⟩ := hadds events current [] rfl
    obtain ⟨scan', hscan', hevents'⟩ := hreads (events.length + 1) (by simp)
    rw [List.take_of_length_le (by simp), foldlM_snoc_eq_ok] at hscan'
    rw [List.take_of_length_le (by simp)] at hevents'
    obtain ⟨mid, hmid, hround⟩ := hscan'
    cases hscan.symm.trans hmid
    have hlast := hknown current.record.orderId
    rw [← lastOf_record] at hlast ⊢
    refine resolvedAt_of_scanOrderFill hincrement rfl hlast hround ?_
    rw [hevents', hevents, List.reduceOption_append, List.map_append]
    cases fillOf current <;> simp [List.reduceOption]

/-- Over a resolved log the second reader reads as the first one. -/
theorem Adds.readsAs_of_resolved {fillOf : ValidatedOrderEvent → Option FillEvidence}
    {events : List ValidatedOrderEvent} (hadds : Adds fillOf events)
    (hresolved : Resolved (events.map (·.record))) :
    ReadsAs (events.map (·.record)) (events.map fillOf) := by
  induction events using List.reverseRecOn with
  | nil =>
    intro n _
    exact ⟨⟨[], []⟩, by simp, by simp [List.reduceOption]⟩
  | append_singleton events current ih =>
    obtain ⟨scan, hscan, hevents, -⟩ := hadds.scan_of_resolved hresolved
    simp only [List.map_append, List.map_singleton] at hresolved hscan ⊢
    have hbefore := ih hadds.init (resolved_snoc.mp hresolved).1
    intro n hn
    by_cases hlast : n ≤ events.length
    · obtain ⟨scan, hscan, hevents⟩ := hbefore n (by simpa using hlast)
      rw [List.take_append_of_le_length (by simpa using hlast),
        List.take_append_of_le_length (by simpa using hlast)]
      exact ⟨scan, hscan, hevents⟩
    · rw [List.take_of_length_le (by simp; omega), List.take_of_length_le (by simp; omega)]
      refine ⟨scan, hscan, ?_⟩
      rw [hevents, List.reduceOption_append]
      cases hfill : fillOf current <;> simp [List.reduceOption, hfill]

/-- In an accepted log every record adds the fill that is kept under its position. -/
theorem adds_of_validateLifecycles {index : List ℤ} {orders finalOrders : List OrderRecord}
    {events : List ValidatedOrderEvent} {fillsByOrdinal : List (ℕ × FillEvidence)}
    (hrecords : validateRecords index orders = .ok events)
    (hlifecycles : validateLifecycles events = .ok (finalOrders, fillsByOrdinal)) :
    Adds (fun event => fillsByOrdinal.lookup event.ordinal) events := by
  intro before current after hsplit
  obtain ⟨-, hordinal, hrecorded⟩ := validateRecords_eq_ok hrecords
  exact ⟨hrecorded current (by simp [hsplit]),
    validateLifecycles_increment hlifecycles hordinal hsplit⟩

/-- Metrics take their exposure and their turnover from the fills that the second reader sees. -/
theorem calculateMetrics_fills {powers : Powers} {input : MetricsInput}
    {metrics : PerformanceMetrics} (h : calculateMetrics powers input = .ok metrics) :
    ∃ fillEvents equity times holding, orderFillEvents input.orders = .ok fillEvents ∧
      equityValues input.equityCurve = .ok (equity, times) ∧
      holdingValues input times = .ok holding ∧
      exposureValue input fillEvents holding equity times = .ok metrics.exposure ∧
      turnoverValue input fillEvents equity = .ok metrics.turnover := by
  simp only [calculateMetrics, Except.bind_eq_ok, Except.pure_eq_ok] at h
  obtain ⟨-, -, fillEvents, hfillEvents, -, -, ⟨equity, times⟩, hequity, holding, hholding, h⟩ := h
  obtain ⟨totalFees, -, totalSlippage, -, exposure, hexposure, turnover, hturnover, h⟩ := h
  obtain ⟨-, -, -, -, _, -, _, -, _, -, _, -, -, -, -, -, -, -, rfl⟩ := h
  exact ⟨fillEvents, equity, times, holding, hfillEvents, hequity, hholding, hexposure, hturnover⟩

/-- The records of a market order that is created at one time and filled at another. -/
def marketOrder (orderId side : String) (quantity price : ℚ) (created filled : ℤ) :
    List OrderRecord :=
  let record : OrderRecord := {
    orderId, side
    status := .created
    requestedQuantity := quantity
    filledQuantity := 0
    remainderQuantity := quantity
    occurredAt := created
    signalTime := created }
  [record, { record with status := .submitted }, { record with status := .accepted },
    { record with
      status := .completed
      filledQuantity := quantity
      remainderQuantity := 0
      occurredAt := filled
      fillTime := some filled
      fillPrice := some price }]

end AutoBit.Validation
