import AutoBit.Broker.Operations
import AutoBit.Library.Grown

/-!
# What the operations append

Every operation leaves the log as it was and appends to it. Placing an order appends its
creation, its transitions, its metadata and its sizing evidence; a fill appends that and the
evidence of the trade; a stop appends one event. None but the observation of a position
appends an observation.
-/

namespace AutoBit.Broker

open Library Store Strategy

/-- A database that has more events, all of one kind. -/
def Grows (kind : Payload → Prop) (db db' : Database) : Prop :=
  ∃ block, db'.events = db.events ++ block ∧ ∀ e ∈ block, kind e.payload

section Kinds

variable {kind : Payload → Prop} {db db' db'' : Database}

/-- A database that stays as it is grows by nothing. -/
theorem Grows.refl (db : Database) : Grows kind db db := ⟨[], by simp, by simp⟩

/-- Growth in two stretches is growth. -/
theorem Grows.trans (h : Grows kind db db') (h' : Grows kind db' db'') : Grows kind db db'' := by
  obtain ⟨block, hevents, hkind⟩ := h
  obtain ⟨block', hevents', hkind'⟩ := h'
  refine ⟨block ++ block', by rw [hevents', hevents, List.append_assoc], ?_⟩
  intro e he
  rcases List.mem_append.mp he with hfirst | hsecond
  · exact hkind e hfirst
  · exact hkind' e hsecond

instance : Std.Refl (Grows kind) := ⟨Grows.refl⟩

instance : IsTrans Database (Grows kind) := ⟨fun _ _ _ => Grows.trans⟩

/-- Growth by payloads of one kind is growth by payloads of a wider one. -/
theorem Grows.mono {kind' : Payload → Prop} (h : Grows kind db db')
    (hkinds : ∀ payload, kind payload → kind' payload) : Grows kind' db db' := by
  obtain ⟨block, hevents, hkind⟩ := h
  exact ⟨block, hevents, fun e he => hkinds _ (hkind e he)⟩

/-- An appended event is growth by its payload. -/
theorem grows_of_appended {eventId : EventId} {occurredAt : ℤ} {payload : Payload}
    (h : Appended db eventId occurredAt payload db') (hkind : kind payload) :
    Grows kind db db' := by
  refine ⟨_, h.events, ?_⟩
  intro e he
  rw [List.mem_singleton.mp he]
  exact hkind

/-- An event that is appended is growth by its payload. -/
theorem grows_of_appendEvent {eventId : EventId} {occurredAt : ℤ} {payload : Payload}
    (h : appendEvent db eventId occurredAt payload = .ok db') (hkind : kind payload) :
    Grows kind db db' :=
  grows_of_appended (appendEvent_appended h) hkind

/-- A loop of operations appends what each of them appends. -/
theorem grows_of_foldlM {α : Type} {step : Database → α → Except Failure Database}
    (hstep : ∀ db item db', step db item = .ok db' → Grows kind db db') {items : List α}
    (h : items.foldlM step db = .ok db') : Grows kind db db' := by
  induction items generalizing db with
  | nil =>
    cases h
    exact Grows.refl _
  | cons item items ih =>
    rw [List.foldlM_cons, Except.bind_eq_ok] at h
    obtain ⟨middle, hfirst, hrest⟩ := h
    exact (hstep db item middle hfirst).trans (ih hrest)

end Kinds

/-- The evidence of placing an order. -/
def isPlacement : Payload → Bool
  | .orderCreated _ | .orderStatus _ | .paperOrder _ | .paperEntryContext _ => true
  | _ => false

/-- The evidence of trading: placements, fills and stops. -/
def isTrade : Payload → Bool
  | .fill _ | .paperFill _ | .paperExecution _ | .paperStopSet _ | .paperStopTerminal _ => true
  | payload => isPlacement payload

/-- What a placement records is part of trading. -/
theorem isTrade_of_isPlacement {payload : Payload} (h : isPlacement payload = true) :
    isTrade payload = true := by
  cases payload <;> simp_all [isTrade, isPlacement]

/-- The evidence of placing an order whose metadata satisfies a property. -/
def Places (P : OrderMetadata → Prop) (payload : Payload) : Prop :=
  isPlacement payload = true ∧ ∀ m, payload = .paperOrder m → P m

/-- The evidence of trading that places no order but sales. -/
def Trades (payload : Payload) : Prop :=
  isTrade payload = true ∧ ∀ m, payload = .paperOrder m → m.side = .sell

/-- Orders that are placed under one condition are placed under a weaker one. -/
theorem Places.mono {P Q : OrderMetadata → Prop} {payload : Payload} (h : Places P payload)
    (hPQ : ∀ m, P m → Q m) : Places Q payload := ⟨h.1, fun m hm => hPQ m (h.2 m hm)⟩

/-- A placed sell order is part of trading. -/
theorem Places.trades {payload : Payload} (h : Places (·.side = .sell) payload) : Trades payload :=
  ⟨isTrade_of_isPlacement h.1, h.2⟩

/-- What trading records without placing an order is part of trading. -/
theorem trades_of_isTrade {payload : Payload} (h : isTrade payload = true)
    (hplaced : readOrderMetadata payload = none) : Trades payload :=
  ⟨h, fun m hm => by rw [hm] at hplaced; cases hplaced⟩

/-- What trading records is no observation of a position. -/
theorem readPosition_of_isTrade {payload : Payload} (h : isTrade payload = true) :
    readPosition payload = none := by
  cases payload <;> simp_all [isTrade, isPlacement, readPosition]

/-- The events of one type are those from before and those that were appended. -/
theorem Grows.view_eq {α : Type} {read : Payload → Option α} {kind : Payload → Prop}
    {db db' : Database} (h : Grows kind db db') (hread : ∀ payload, kind payload → read payload = none) :
    view read db'.events = view read db.events := by
  obtain ⟨block, hevents, hkind⟩ := h
  have hnone : view read block = [] := by
    refine List.filterMap_eq_nil_iff.mpr ?_
    intro e he
    simp [stamp, hread _ (hkind e he)]
  rw [hevents, view, List.filterMap_append]
  exact (congrArg (_ ++ ·) hnone).trans (List.append_nil _)

/-- The identities of the events that the broker appends. -/
def isBrokerId : EventId → Bool
  | .orderCreated _ | .orderStatus _ | .fill .. | .orderMeta _ | .fillMeta _ | .entryContext _
  | .execution _ | .position .. | .stopSet _ | .stopTerminal .. => true
  | _ => false

/-- An event of placing an order at some time, with metadata that satisfies a property. -/
structure Placing (at_ : ℤ) (P : OrderMetadata → Prop) (e : StoredEvent) : Prop where
  identity : isBrokerId e.eventId = true
  places : Places P e.payload
  order : ∀ m, e.payload = .paperOrder m → e.occurredAtUtc = at_

/-- An event of trading at a candle, which places no order but sales, and sets no stop. -/
structure Trading (candle : ℤ) (e : StoredEvent) : Prop where
  identity : isBrokerId e.eventId = true
  trades : Trades e.payload
  order : ∀ m, e.payload = .paperOrder m → e.occurredAtUtc = candle
  fill : ∀ fill, e.payload = .fill fill → e.occurredAtUtc = candle
  unset : readStopSet e.payload = none

/-- Events that place orders under one condition place them under a weaker one. -/
theorem Placing.mono {at_ : ℤ} {P Q : OrderMetadata → Prop} {e : StoredEvent}
    (h : Placing at_ P e) (hPQ : ∀ m, P m → Q m) : Placing at_ Q e :=
  ⟨h.identity, h.places.mono hPQ, h.order⟩

/-- Placing a sale is trading. -/
theorem Placing.trading {candle : ℤ} {e : StoredEvent} (h : Placing candle (·.side = .sell) e) :
    Trading candle e where
  identity := h.identity
  trades := h.places.trades
  order := h.order
  fill := fun fill hfill => by
    have hplaced := h.places.1
    simp [hfill, isPlacement] at hplaced
  unset := by
    have hplaced := h.places.1
    cases hpayload : e.payload <;> simp_all [isPlacement, readStopSet]

/-- An event of trading that places no order. -/
theorem trading_of_isTrade {candle : ℤ} {e : StoredEvent} (hidentity : isBrokerId e.eventId = true)
    (htrade : isTrade e.payload = true) (hplaced : readOrderMetadata e.payload = none)
    (htime : e.occurredAtUtc = candle) (hunset : readStopSet e.payload = none) :
    Trading candle e :=
  ⟨hidentity, trades_of_isTrade htrade hplaced, fun _ _ => htime, fun _ _ => htime, hunset⟩

section Primitives

variable {P : StoredEvent → Prop} {db db' : Database}

/-- An appended event is growth by itself. -/
theorem grown_of_appended {eventId : EventId} {occurredAt : ℤ} {payload : Payload}
    (h : Appended db eventId occurredAt payload db')
    (hP : P (db.nextEvent eventId occurredAt payload)) : Grown P db.events db'.events := by
  rw [h.events]
  exact grown_snoc _ hP

/-- A transition of an order appends at most its event. -/
theorem grown_of_transition {orderId : PaperId} {key : Key} {status : OrderStatus}
    {occurredAt : ℤ} {reason : Option String} {isNew : Bool}
    (h : transitionOrderStatus db orderId key status occurredAt reason = .ok (isNew, db'))
    (hP : ∀ sequence transition,
      P ⟨sequence, .orderStatus key, occurredAt, .orderStatus transition⟩) :
    Grown P db.events db'.events := by
  rcases transitionOrderStatus_cases h with ⟨-, rfl, -⟩ | ⟨-, happended⟩
  · exact Grown.refl _
  · exact grown_of_appended happended (hP _ _)

/-- A loop of operations appends what each of them appends. -/
theorem grown_of_foldlM {α : Type} {step : Database → α → Except Failure Database}
    (hstep : ∀ db item db', step db item = .ok db' → Grown P db.events db'.events)
    {items : List α} (h : items.foldlM step db = .ok db') : Grown P db.events db'.events := by
  induction items generalizing db with
  | nil =>
    cases h
    exact Grown.refl _
  | cons item items ih =>
    rw [List.foldlM_cons, Except.bind_eq_ok] at h
    obtain ⟨middle, hfirst, hrest⟩ := h
    exact (hstep db item middle hfirst).trans (ih hrest)

end Primitives

section Placement

variable {db db' : Database}

/-- A transition of an order is growth by its payload. -/
theorem grows_of_transition {kind : Payload → Prop} {orderId : PaperId} {key : Key}
    {status : OrderStatus} {occurredAt : ℤ} {reason : Option String} {isNew : Bool}
    (h : transitionOrderStatus db orderId key status occurredAt reason = .ok (isNew, db'))
    (hkind : ∀ transition, kind (.orderStatus transition)) : Grows kind db db' :=
  grown_of_transition h fun _ => hkind

/-- A submission writes the order with its metadata. -/
theorem submitOrder_writes {s : Submission} {order : PaperOrder}
    (h : submitOrder db s = .ok (order, db')) :
    Grown (Placing s.occurredAt (· = s.metadata)) db.events db'.events := by
  simp only [submitOrder, Except.bind_eq_ok] at h
  obtain ⟨⟨isNew, recorded⟩, hrecorded, h⟩ := h
  have hrecorded : Grown (Placing s.occurredAt (· = s.metadata)) db.events recorded.events := by
    rcases recordOrderOnce_cases hrecorded with ⟨-, rfl, -⟩ | ⟨-, -, -, happended⟩
    · exact Grown.refl _
    · exact grown_of_appended happended ⟨rfl, ⟨rfl, fun m hm => by cases hm⟩, fun m hm => by cases hm⟩
  have hmoved : ∀ {key} sequence transition, Placing s.occurredAt (· = s.metadata)
      ⟨sequence, .orderStatus key, s.occurredAt, .orderStatus transition⟩ :=
    fun _ _ => ⟨rfl, ⟨rfl, fun m hm => by cases hm⟩, fun m hm => by cases hm⟩
  dsimp only at h
  split at h
  · simp only [Except.bind_eq_ok, Except.pure_eq_ok, Prod.mk.injEq] at h
    obtain ⟨_, -, _, -, -, rfl⟩ := h
    exact hrecorded
  · simp only [Except.bind_eq_ok, Except.pure_eq_ok, Prod.mk.injEq] at h
    obtain ⟨⟨_, submitted⟩, hsubmitted, ⟨_, accepted⟩, haccepted, final, happend, -, rfl⟩ := h
    refine ((hrecorded.trans (grown_of_transition hsubmitted hmoved)).trans
      (grown_of_transition haccepted hmoved)).trans
        (grown_of_appended (appendEvent_appended happend) ⟨rfl, ⟨rfl, ?_⟩, fun _ _ => rfl⟩)
    intro m hm
    exact (Payload.paperOrder.inj hm).symm

/-- A binding of an entry context places no order. -/
theorem bindEntryContext_writes (at_ : ℤ) {id : PaperId} {context : EntryContext} {order : PaperOrder}
    (h : bindEntryContext db id context = .ok (order, db')) :
    Grown (Placing at_ fun _ => False) db.events db'.events := by
  simp only [bindEntryContext, Except.bind_eq_ok] at h
  obtain ⟨_, -, found, -, h⟩ := h
  split at h
  · simp only [Except.bind_eq_ok, Except.pure_eq_ok, Prod.mk.injEq] at h
    obtain ⟨_, -, -, rfl⟩ := h
    exact Grown.refl _
  · simp only [Except.bind_eq_ok, Except.pure_eq_ok, Prod.mk.injEq] at h
    obtain ⟨_, -, _, -, _, -, bound, happend, _, -, -, rfl⟩ := h
    exact grown_of_appended (appendEvent_appended happend) ⟨rfl, ⟨rfl, fun m hm => by cases hm⟩, fun m hm => by cases hm⟩

/-- A binding of an entry context grows the log without an order. -/
theorem bindEntryContext_grows {id : PaperId} {context : EntryContext} {order : PaperOrder}
    (h : bindEntryContext db id context = .ok (order, db')) :
    Grows (Places fun _ => False) db db' :=
  (bindEntryContext_writes 0 h).mono fun _ hplacing => hplacing.places

/-- An optional entry context places no order. -/
theorem bindOptional_writes (at_ : ℤ) {order bound : PaperOrder} {context : Option EntryContext}
    (h : bindOptional db order context = .ok (bound, db')) :
    Grown (Placing at_ fun _ => False) db.events db'.events := by
  cases context with
  | none =>
    cases h
    exact Grown.refl _
  | some context => exact bindEntryContext_writes at_ h

/-- An entry places orders with its reason only. -/
theorem submitEntry_writes {costs : CostConfig} {signalAt : ℤ} {quantity : ℚ} {reason : String}
    {context : Option EntryContext} {order : PaperOrder}
    (h : submitEntry costs db signalAt quantity reason context = .ok (order, db')) :
    Grown (Placing signalAt (·.reason = reason)) db.events db'.events := by
  have hbind : ∀ {order bound : PaperOrder} {x y : Database},
      bindOptional x order context = .ok (bound, y) →
        Grown (Placing signalAt (·.reason = reason)) x.events y.events :=
    fun hbound => (bindOptional_writes signalAt hbound).mono fun _ hplacing => hplacing.mono fun _ => False.elim
  simp only [submitEntry, Except.bind_eq_ok] at h
  obtain ⟨_, -, _, -, ledger, -, h⟩ := h
  split at h
  · rw [Except.bind_eq_ok] at h
    obtain ⟨_, -, hbound⟩ := h
    exact hbind hbound
  · simp only [Except.bind_eq_ok] at h
    obtain ⟨_, -, _, -, ⟨submitted, placed⟩, hsubmitted, hbound⟩ := h
    have hplaced := (submitOrder_writes hsubmitted).mono fun _ hplacing =>
      hplacing.mono fun m hm => show m.reason = reason by rw [hm]; rfl
    exact hplaced.trans (hbind hbound)

/-- An entry grows the log by orders with its reason only. -/
theorem submitEntry_grows {costs : CostConfig} {signalAt : ℤ} {quantity : ℚ} {reason : String}
    {context : Option EntryContext} {order : PaperOrder}
    (h : submitEntry costs db signalAt quantity reason context = .ok (order, db')) :
    Grows (Places (·.reason = reason)) db db' :=
  (submitEntry_writes h).mono fun _ hplacing => hplacing.places

/-- An exit places sell orders only. -/
theorem submitExit_writes {costs : CostConfig} {signalAt : ℤ} {quantity owned : ℚ}
    {reason : String} {parent : Option PaperId} {order : PaperOrder}
    (h : submitExit costs db signalAt quantity owned reason parent = .ok (order, db')) :
    Grown (Placing signalAt (·.side = .sell)) db.events db'.events := by
  simp only [submitExit, Except.bind_eq_ok] at h
  obtain ⟨_, -, _, -, _, -, ledger, -, h⟩ := h
  split at h
  · simp only [Except.bind_eq_ok, Except.pure_eq_ok, Prod.mk.injEq] at h
    obtain ⟨_, -, -, rfl⟩ := h
    exact Grown.refl _
  · simp only [Except.bind_eq_ok] at h
    obtain ⟨_, -, _, -, _, -, _, -, _, -, hsubmitted⟩ := h
    exact (submitOrder_writes hsubmitted).mono fun _ hplacing =>
      hplacing.mono fun m hm => by rw [hm]; rfl

/-- An exit grows the log by sell orders only. -/
theorem submitExit_grows {costs : CostConfig} {signalAt : ℤ} {quantity owned : ℚ}
    {reason : String} {parent : Option PaperId} {order : PaperOrder}
    (h : submitExit costs db signalAt quantity owned reason parent = .ok (order, db')) :
    Grows (Places (·.side = .sell)) db db' :=
  (submitExit_writes h).mono fun _ hplacing => hplacing.places

end Placement

section Fills

variable {db db' : Database}

/-- The submission of a sale is trading. -/
theorem submitOrder_trading {s : Submission} {order : PaperOrder}
    (h : submitOrder db s = .ok (order, db')) (hside : s.key.side = .sell) :
    Grown (Trading s.occurredAt) db.events db'.events :=
  (submitOrder_writes h).mono fun _ hplacing =>
    (hplacing.mono fun m hm => by rw [hm]; exact hside).trading

/-- A transition at a candle is a trade at it. -/
theorem trading_of_transition {orderId : PaperId} {key : Key} {status : OrderStatus} {candle : ℤ}
    {reason : Option String} {isNew : Bool}
    (h : transitionOrderStatus db orderId key status candle reason = .ok (isNew, db')) :
    Grown (Trading candle) db.events db'.events :=
  grown_of_transition h fun _ _ => trading_of_isTrade rfl rfl rfl rfl rfl

/-- A recorded fill writes trades at its candle. -/
theorem recordFill_writes {order : PaperOrder} {candle : ℤ} {fill : PaperFill} {isNew : Bool}
    (hid : isBrokerId fill.fillId = true)
    (h : recordFill db order candle fill = .ok (isNew, db')) :
    Grown (Trading candle) db.events db'.events := by
  simp only [recordFill, Except.bind_eq_ok] at h
  obtain ⟨⟨appended, filled⟩, happended, h⟩ := h
  have hfilled : Grown (Trading candle) db.events filled.events := by
    rcases appendFill_cases happended with ⟨-, rfl, -⟩ | ⟨-, -, -, -, happended⟩
    · exact Grown.refl _
    · exact grown_of_appended happended (trading_of_isTrade hid rfl rfl rfl rfl)
  dsimp only at h
  split at h
  · simp only [Except.pure_eq_ok, Prod.mk.injEq] at h
    obtain ⟨-, rfl⟩ := h
    exact hfilled
  · simp only [Except.bind_eq_ok, Except.pure_eq_ok, Prod.mk.injEq] at h
    obtain ⟨⟨_, moved⟩, hmoved, described, hdescribed, -, rfl⟩ := h
    exact (hfilled.trans (trading_of_transition hmoved)).trans
      (grown_of_appended (appendEvent_appended hdescribed) (trading_of_isTrade rfl rfl rfl rfl rfl))

/-- A remainder that is canceled writes trades at the candle. -/
theorem cancelRemainder_writes {order : PaperOrder} {candle : ℤ} {quantity : ℚ} {capped : Bool}
    (h : cancelRemainder db order candle quantity capped = .ok db') :
    Grown (Trading candle) db.events db'.events := by
  simp only [cancelRemainder, Except.bind_eq_ok] at h
  obtain ⟨⟨_, canceled⟩, hcanceled, h⟩ := h
  have hcanceled := trading_of_transition hcanceled
  dsimp only at h
  split at h
  · cases h
    exact hcanceled
  · simp only [Except.bind_eq_ok, Except.pure_eq_ok] at h
    obtain ⟨_, -, _, -, _, -, ⟨_, placed⟩, hplaced, rfl⟩ := h
    exact hcanceled.trans (submitOrder_trading hplaced rfl)

/-- A stop that is deactivated writes trades at the candle. -/
theorem deactivateStop_writes {stop : PaperStop} {candle : ℤ} {action : StopAction} {id : PaperId}
    (h : deactivateStop db stop candle action id = .ok db') :
    Grown (Trading candle) db.events db'.events :=
  grown_of_appended (appendEvent_appended h) (trading_of_isTrade rfl rfl rfl rfl rfl)

/-- Protection that is canceled writes trades at the candle. -/
theorem cancelProtection_writes {order : PaperOrder} {candle : ℤ} {stops : List PaperStop}
    (h : cancelProtection db order candle stops = .ok db') :
    Grown (Trading candle) db.events db'.events := by
  simp only [cancelProtection] at h
  split at h
  · rw [Except.bind_eq_ok] at h
    obtain ⟨snapshot, -, h⟩ := h
    split at h
    · exact grown_of_foldlM (fun _ _ _ => deactivateStop_writes) h
    · cases h
      exact Grown.refl _
  · cases h
    exact Grown.refl _

/-- A capped execution writes trades at the candle. -/
theorem capExecution_writes {order : PaperOrder} {candle : ℤ} {reference price cash quantity : ℚ}
    {result : Database × ℚ × Bool}
    (h : capExecution db order candle reference price cash quantity = .ok result) :
    Grown (Trading candle) db.events result.1.events := by
  unfold capExecution at h
  split at h
  · cases h
    exact Grown.refl _
  · simp only [Except.bind_eq_ok, Except.pure_eq_ok] at h
    obtain ⟨executed, hexecuted, rfl⟩ := h
    exact grown_of_appended (appendEvent_appended hexecuted)
      (trading_of_isTrade rfl rfl rfl rfl rfl)

/-- An order that is processed writes trades at the candle. -/
theorem processOrder_writes {order : PaperOrder} {candle : ℤ} {reference : ℚ} {actual : Option ℚ}
    {stops : List PaperStop} {fill : Option PaperFill}
    (h : processOrder db order candle reference actual stops = .ok (fill, db')) :
    Grown (Trading candle) db.events db'.events := by
  simp only [processOrder, Except.bind_eq_ok] at h
  obtain ⟨_, -, _, -, snapshot, -, ⟨executed, quantity, capped⟩, hexecuted, h⟩ := h
  have hexecuted := capExecution_writes hexecuted
  dsimp only at h
  split at h
  · simp only [Except.bind_eq_ok, Except.pure_eq_ok, Prod.mk.injEq] at h
    obtain ⟨⟨_, ended⟩, hended, -, rfl⟩ := h
    exact hexecuted.trans (trading_of_transition hended)
  split at h
  · simp only [Except.bind_eq_ok, Except.pure_eq_ok, Prod.mk.injEq] at h
    obtain ⟨⟨_, ended⟩, hended, -, rfl⟩ := h
    exact hexecuted.trans (trading_of_transition hended)
  simp only [Except.bind_eq_ok] at h
  obtain ⟨_, -, ⟨isNew, recorded⟩, hrecorded, h⟩ := h
  have hrecorded := hexecuted.trans (recordFill_writes rfl hrecorded)
  split at h
  · simp only [Except.pure_eq_ok, Prod.mk.injEq] at h
    obtain ⟨-, rfl⟩ := h
    exact hrecorded
  split at h
  · simp only [Except.bind_eq_ok, Except.pure_eq_ok, Prod.mk.injEq] at h
    obtain ⟨_, rfl, final, hfinal, -, rfl⟩ := h
    exact hrecorded.trans (cancelProtection_writes hfinal)
  · simp only [Except.bind_eq_ok, Except.pure_eq_ok, Prod.mk.injEq] at h
    obtain ⟨canceled, hcanceled, final, hfinal, -, rfl⟩ := h
    exact (hrecorded.trans (cancelRemainder_writes hcanceled)).trans (cancelProtection_writes hfinal)

/-- An order that is processed grows the log by trades. -/
theorem processOrder_grows {order : PaperOrder} {candle : ℤ} {reference : ℚ} {actual : Option ℚ}
    {stops : List PaperStop} {fill : Option PaperFill}
    (h : processOrder db order candle reference actual stops = .ok (fill, db')) :
    Grows Trades db db' :=
  (processOrder_writes h).mono fun _ htrading => htrading.trades

/-- An open that is processed writes trades at its candle. -/
theorem processOpen_writes {id : PaperId} {candle : ℤ} {openPrice : ℚ} {actual : Option ℚ}
    {fill : Option PaperFill} (h : processOpen db id candle openPrice actual = .ok (fill, db')) :
    Grown (Trading candle) db.events db'.events := by
  simp only [processOpen, Except.bind_eq_ok] at h
  obtain ⟨_, -, _, -, _, -, ledger, -, order, -, h⟩ := h
  split at h
  · simp only [Except.pure_eq_ok, Prod.mk.injEq] at h
    obtain ⟨-, rfl⟩ := h
    exact Grown.refl _
  · simp only [Except.bind_eq_ok] at h
    obtain ⟨_, -, _, -, _, -, _, -, hprocessed⟩ := h
    exact processOrder_writes hprocessed

/-- An open that is processed grows the log by trades. -/
theorem processOpen_grows {id : PaperId} {candle : ℤ} {openPrice : ℚ} {actual : Option ℚ}
    {fill : Option PaperFill} (h : processOpen db id candle openPrice actual = .ok (fill, db')) :
    Grows Trades db db' :=
  (processOpen_writes h).mono fun _ htrading => htrading.trades

/-- A stop that is checked within a bar writes trades at its candle. -/
theorem processIntrabarStop_writes {candle : ℤ} {openPrice lowPrice : ℚ} {fill : Option PaperFill}
    (h : processIntrabarStop db candle openPrice lowPrice = .ok (fill, db')) :
    Grown (Trading candle) db.events db'.events := by
  simp only [processIntrabarStop, Except.bind_eq_ok] at h
  obtain ⟨_, -, _, -, _, -, _, -, ledger, -, h⟩ := h
  split at h
  · simp only [Except.pure_eq_ok, Prod.mk.injEq] at h
    obtain ⟨-, rfl⟩ := h
    exact Grown.refl _
  split at h
  · simp only [Except.pure_eq_ok, Prod.mk.injEq] at h
    obtain ⟨-, rfl⟩ := h
    exact Grown.refl _
  simp only [Except.bind_eq_ok, Except.pure_eq_ok, Prod.mk.injEq] at h
  obtain ⟨_, -, _, -, ⟨order, submitted⟩, hsubmitted, ⟨_, processed⟩, hprocessed, final, hended, -,
    rfl⟩ := h
  have hsubmitted := submitOrder_trading hsubmitted rfl
  exact (hsubmitted.trans (processOrder_writes hprocessed)).trans
    (grown_of_foldlM (fun _ _ _ => deactivateStop_writes) hended)

/-- A stop that is checked within a bar grows the log by trades. -/
theorem processIntrabarStop_grows {candle : ℤ} {openPrice lowPrice : ℚ} {fill : Option PaperFill}
    (h : processIntrabarStop db candle openPrice lowPrice = .ok (fill, db')) :
    Grows Trades db db' :=
  (processIntrabarStop_writes h).mono fun _ htrading => htrading.trades

end Fills

/-- An event that sets a stop at a bar. -/
structure Setting (observedAt : ℤ) (e : StoredEvent) : Prop where
  identity : isBrokerId e.eventId = true
  sets : ∃ set, e.payload = .paperStopSet set
  time : e.occurredAtUtc = observedAt

/-- A stop is set by one event, or was there. -/
theorem setStop_writes {costs : CostConfig} {db db' : Database} {observedAt : ℤ} {stopPrice : ℚ}
    {activeAfter : Option ℤ} {reason : String} {sourceId : Option PaperId} {stop : PaperStop}
    (h : setStop costs db observedAt stopPrice activeAfter reason sourceId = .ok (stop, db')) :
    Grown (Setting observedAt) db.events db'.events := by
  simp only [setStop, Except.bind_eq_ok] at h
  obtain ⟨_, -, _, -, _, -, _, -, _, -, ledger, -, openEntry, -, _, -, _, -, h⟩ := h
  split at h
  · simp only [Except.bind_eq_ok, Except.pure_eq_ok, Prod.mk.injEq] at h
    obtain ⟨_, -, _, -, -, rfl⟩ := h
    exact Grown.refl _
  · simp only [Except.bind_eq_ok] at h
    obtain ⟨_, -, _, -, h⟩ := h
    split at h
    · simp only [Except.pure_eq_ok, Prod.mk.injEq] at h
      obtain ⟨-, rfl⟩ := h
      exact Grown.refl _
    · simp only [Except.bind_eq_ok, Except.pure_eq_ok, Prod.mk.injEq] at h
      obtain ⟨set, hset, -, rfl⟩ := h
      exact grown_of_appended (appendEvent_appended hset) ⟨rfl, ⟨_, rfl⟩, rfl⟩

/-- A stop that is set grows the log by set stops. -/
theorem setStop_grows {costs : CostConfig} {db db' : Database} {observedAt : ℤ} {stopPrice : ℚ}
    {activeAfter : Option ℤ} {reason : String} {sourceId : Option PaperId} {stop : PaperStop}
    (h : setStop costs db observedAt stopPrice activeAfter reason sourceId = .ok (stop, db')) :
    Grows (fun payload => ∃ set, payload = .paperStopSet set) db db' :=
  (setStop_writes h).mono fun _ hsetting => hsetting.sets

/-- An observation is one event, which an accepted ledger holds. -/
theorem observePosition_appended {db db' : Database} {id : PaperId} {highs : List (ℤ × ℚ)}
    {initialStop : ℚ} (h : observePosition db id highs initialStop = .ok db') :
    ∃ ledger last fill highWater, buildLedger db = .ok ledger ∧ highs.getLast? = some last ∧
      ledger.fills.find? (·.orderId = id) = some fill ∧
      Appended db (.position id last.1) last.1 (.paperPosition ⟨1, id, fill.fillId,
        (latestObservation ledger.positionObservations id).map (·.eventId), initialStop, highWater,
        highs⟩) db' ∧ ∃ ledger', buildLedger db' = .ok ledger' := by
  simp only [observePosition, Except.bind_eq_ok, require_eq_ok, Except.pure_eq_ok] at h
  obtain ⟨ledger, hledger, fill, hfill, last, hlast, _, happend, ledger', hledger', rfl⟩ := h
  exact ⟨ledger, last, fill, _, hledger, hlast, hfill, appendEvent_appended happend, ledger',
    hledger'⟩

end AutoBit.Broker
