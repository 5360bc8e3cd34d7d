import AutoBit.Broker.Growth
import AutoBit.Library.Triple
import AutoBit.Service.Cycle
import AutoBit.Service.RiskAgreement

/-!
# What the steps of a cycle append

A cycle touches the store through its broker, its risk decision, its own records and its
source. None of them appends a fill but the fills of the bar, and none an observation of a
position but the observation itself. What is left of a step that was cut short is a part of
what the whole step appends.
-/

namespace AutoBit.Service

open Library Store Risk Health Data Strategy Broker

/-- An event that is neither a fill nor an observation of a position. -/
def Quiet (payload : Payload) : Prop := readFill payload = none ∧ readPosition payload = none

/-- An event that is no observation of a position. -/
def Unobserved (payload : Payload) : Prop := readPosition payload = none

/-- A quiet payload is no observation. -/
theorem Quiet.unobserved {payload : Payload} (h : Quiet payload) : Unobserved payload := h.2

/-- What a placement records is quiet. -/
theorem quiet_of_isPlacement (payload : Payload) (h : isPlacement payload = true) :
    Quiet payload := by
  cases payload <;> simp_all [Quiet, isPlacement, readFill, readPosition]

/-- What a cycle and its source record besides trading: attempts, risk decisions, health and
alerts. -/
def isRecord : Payload → Bool
  | .breakerState _ | .healthState _ | .paperCycleAttempt _ | .alertAttempt _
  | .alertFailure .. => true
  | _ => false

/-- What is recorded outside of trading is quiet. -/
theorem quiet_of_isRecord (payload : Payload) (h : isRecord payload = true) : Quiet payload := by
  cases payload <;> simp_all [Quiet, isRecord, readFill, readPosition]

/-- An operational event is recorded outside of trading. -/
theorem isRecord_of_isOperational {eventId : EventId} {payload : Payload}
    (h : isOperational eventId payload = true) : isRecord payload = true := by
  cases payload <;> simp_all [isRecord, isOperational]

/-! ## Transactions -/

section Transactions

variable {α : Type} {R : Database → Database → Prop} {db db' : Database}

/-- An operation of the broker that succeeds leaves its database. -/
theorem execute_brokerCall_ok {operation : Database → Except Failure (α × Database)} {a : α}
    (h : operation db = .ok (a, db')) : execute (brokerCall operation) db = (.ok a, db') := by
  simp only [brokerCall, execute_bind, execute_get, execute_lift, h, execute_modify, execute_pure]

/-- An operation of the broker that fails leaves the database alone. -/
theorem execute_brokerCall_error {operation : Database → Except Failure (α × Database)}
    {e : Failure} (h : operation db = .error e) :
    execute (brokerCall operation) db = (.error e, db) := by
  simp [brokerCall, execute_bind, h]

/-- An update of the broker that succeeds leaves its database. -/
theorem execute_brokerUpdate_ok {operation : Database → Except Failure Database}
    (h : operation db = .ok db') : execute (brokerUpdate operation) db = (.ok (), db') := by
  simp [brokerUpdate, execute_bind, h]

/-- An update of the broker that fails leaves the database alone. -/
theorem execute_brokerUpdate_error {operation : Database → Except Failure Database} {e : Failure}
    (h : operation db = .error e) : execute (brokerUpdate operation) db = (.error e, db) := by
  simp [brokerUpdate, execute_bind, h]

/-- A reading leaves the database alone. -/
@[simp] theorem execute_readDatabase (view : Database → Except Failure α) (db : Database) :
    execute (readDatabase view) db = (view db, db) := by
  simp [readDatabase, execute_bind]

/-- A point that the process does not pass leaves the database alone. -/
@[simp] theorem execute_fault (runs : Bool) (boundary : String) (db : Database) :
    execute (fault runs boundary) db = (reject (runs = false) (.service boundary), db) := rfl

variable [Std.Refl R]

/-- A call of the broker keeps a relation that its operation keeps. -/
theorem respects_brokerCall {operation : Database → Except Failure (α × Database)}
    (h : ∀ db a db', operation db = .ok (a, db') → R db db') : Respects R (brokerCall operation) := by
  intro db
  cases hresult : operation db with
  | error e =>
    rw [execute_brokerCall_error hresult]
    exact refl_of R db
  | ok answer =>
    obtain ⟨a, after⟩ := answer
    rw [execute_brokerCall_ok hresult]
    exact h db a after hresult

/-- A reading keeps every reflexive relation. -/
theorem respects_readDatabase (view : Database → Except Failure α) :
    Respects R (readDatabase view) := by
  intro db
  rw [execute_readDatabase]
  exact refl_of R db

/-- A point of failure keeps every reflexive relation. -/
theorem respects_fault (runs : Bool) (boundary : String) : Respects R (fault runs boundary) :=
  respects_lift _

/-- An update of the broker keeps a relation that its operation keeps. -/
theorem respects_brokerUpdate {operation : Database → Except Failure Database}
    (h : ∀ db db', operation db = .ok db' → R db db') : Respects R (brokerUpdate operation) := by
  intro db
  cases hresult : operation db with
  | error e =>
    rw [execute_brokerUpdate_error hresult]
    exact refl_of R db
  | ok after =>
    rw [execute_brokerUpdate_ok hresult]
    exact h db after hresult

/-- A recorded event keeps a relation that its insertion keeps. -/
theorem respects_recordEvent {eventId : EventId} {occurredAt : ℤ} {payload : Payload}
    (h : ∀ db db', appendEvent db eventId occurredAt payload = .ok db' → R db db') :
    Respects R (recordEvent eventId occurredAt payload) :=
  respects_brokerUpdate h

variable [IsTrans Database R]

/-- A fenced body keeps what the body keeps. -/
theorem respects_fencedCycle {runs : Bool} {body : Stateful Failure Database α}
    (h : Respects R body) : Respects R (fencedCycle runs body) :=
  respects_transaction (respects_bind (respects_lift _) fun _ => h)

/-- A fenced transaction keeps what its body keeps. -/
theorem respects_fencedCycleTransaction {runs : Bool} {body : Stateful Failure Database Unit}
    (h : Respects R body) : Respects R (fencedCycleTransaction runs body) :=
  respects_transaction (respects_bind (respects_lift _) fun _ => h)

end Transactions

/-! ## Triples of transactions -/

section Triples

variable {α β : Type} {pre kept : Database → Prop}

/-- The triple of a call of the broker is that of its operation. -/
theorem triple_brokerCall {post : α → Database → Prop}
    {operation : Database → Except Failure (α × Database)} (hkept : ∀ db, pre db → kept db)
    (h : ∀ db a db', pre db → operation db = .ok (a, db') → post a db') :
    Triple pre (brokerCall operation) post kept := by
  intro db hpre
  cases hresult : operation db with
  | error e =>
    rw [execute_brokerCall_error hresult]
    refine ⟨fun a db' hreturned => (by cases hreturned), ?_⟩
    intro e' db' hraised
    cases hraised
    exact hkept db hpre
  | ok answer =>
    obtain ⟨a, after⟩ := answer
    rw [execute_brokerCall_ok hresult]
    refine ⟨?_, fun e db' hraised => (by cases hraised)⟩
    intro b db' hreturned
    cases hreturned
    exact h db a after hpre hresult

/-- A fenced body leaves what its body leaves, or the database before it. -/
theorem triple_fencedCycle {post : α → Database → Prop} {runs : Bool}
    {body : Stateful Failure Database α} (hkept : ∀ db, pre db → kept db)
    (h : Triple pre body post fun _ => True) : Triple pre (fencedCycle runs body) post kept :=
  Triple.transaction hkept (Triple.lift_bind (fun _ _ => trivial) fun _ _ => h)

/-- A reading leaves what holds of the database. -/
theorem triple_readDatabase (view : Database → Except Failure α) :
    Triple pre (readDatabase view) (fun _ => pre) pre :=
  Triple.of_respects (respects_readDatabase (R := Eq) view) (fun _ _ h hsame => hsame ▸ h)
    fun _ _ h hsame => hsame ▸ h

/-- What is read off the database at hand. -/
theorem triple_read_bind {view : Database → Except Failure α} {f : α → Stateful Failure Database β}
    {post : β → Database → Prop} (hkept : ∀ db, pre db → kept db)
    (h : ∀ db a, pre db → view db = .ok a → Triple (· = db) (f a) post kept) :
    Triple pre (readDatabase view >>= f) post kept := by
  intro db hpre
  rw [execute_bind, execute_readDatabase]
  cases hview : view db with
  | error e =>
    refine ⟨fun b db' hreturned => (by cases hreturned), ?_⟩
    intro e' db' hraised
    cases hraised
    exact hkept db hpre
  | ok a => exact h db a hpre hview db rfl

end Triples

/-! ## The records of a cycle and of its source -/

/-- A relation that every record leads along. -/
def Records (R : Database → Database → Prop) : Prop :=
  ∀ db db' eventId occurredAt payload, isRecord payload = true →
    appendEvent db eventId occurredAt payload = .ok db' → R db db'

/-- A relation that follows from growth by records is kept by the records. -/
theorem records_of_grows {R : Database → Database → Prop} {kind : Payload → Prop}
    (hkind : ∀ payload, isRecord payload = true → kind payload)
    (h : ∀ db db', Grows kind db db' → R db db') : Records R :=
  fun _ _ _ _ _ hrecord happend => h _ _ (grows_of_appendEvent happend (hkind _ hrecord))

/-- The records of a cycle add quiet payloads only. -/
theorem records_quiet : Records (Grows Quiet) := records_of_grows quiet_of_isRecord fun _ _ h => h

/-- What a cycle and its source record at a bar besides trading, attempts and completions: health,
alerts, the base decision of the bar, and its follow-ups. -/
inductive Noted (barAt : ℤ) : EventId → Payload → Prop
  | operational {eventId : EventId} {payload : Payload} (h : isOperational eventId payload = true) :
      Noted barAt eventId payload
  | base (payload : BreakerPayload) : Noted barAt (.risk barAt) (.breakerState payload)
  | followup (sequence version : ℕ) (source : EventId) (payload : BreakerPayload) :
      Noted barAt (.riskHealth barAt sequence version source) (.breakerState payload)

/-- What a cycle notes at a bar is a record. -/
theorem Noted.isRecord {barAt : ℤ} {eventId : EventId} {payload : Payload}
    (h : Noted barAt eventId payload) : isRecord payload = true := by
  cases h with
  | operational h => exact isRecord_of_isOperational h
  | base => rfl
  | followup => rfl

/-- A relation that every record of a bar leads along. -/
def RecordsAt (barAt : ℤ) (R : Database → Database → Prop) : Prop :=
  ∀ db db' eventId occurredAt payload, Noted barAt eventId payload →
    appendEvent db eventId occurredAt payload = .ok db' → R db db'

/-- A relation that all records keep is kept by those of one bar. -/
theorem Records.atBar {R : Database → Database → Prop} (h : Records R) (barAt : ℤ) :
    RecordsAt barAt R :=
  fun db db' eventId occurredAt payload hnoted =>
    h db db' eventId occurredAt payload hnoted.isRecord

section Records

variable {Cell : Type} {R : Database → Database → Prop} [Std.Refl R] [IsTrans Database R]
  {barAt : ℤ} (hrecord : RecordsAt barAt R)
include hrecord

/-- The events of a source keep what the records keep. -/
theorem recorded_respects (events : List SourceEvent) : Respects R (forM events fun event =>
    recordEvent event.eventId event.occurredAt event.payload) :=
  respects_forM fun event _ => respects_recordEvent fun db db' =>
    hrecord db db' _ _ _ (.operational event.operational)

/-- A source that is asked for its window keeps what the records keep. -/
theorem load_respects (feed : Feed Cell) : Respects R (load feed) :=
  respects_bind (recorded_respects hrecord feed.recorded) fun _ => respects_lift _

/-- A follow-up of the health gate keeps what the records keep. -/
theorem persistHealthRiskFollowup_respects (stored : RiskState) (final : RiskDecision)
    (health : HealthGate) :
    Respects R (persistHealthRiskFollowup barAt stored final health) := by
  refine respects_bind (respects_lift _) fun _ => ?_
  refine respects_bind respects_get fun db => ?_
  refine respects_bind (respects_lift _) fun snapshot => ?_
  refine respects_lift_bind fun eventId hid => ?_
  obtain ⟨source, -, -, rfl⟩ := healthRiskFollowupId_eq_ok.mp hid
  split
  · exact respects_recordEvent fun db db' => hrecord db db' _ _ _ (.followup _ _ _ _)
  · exact respects_lift _
  · exact respects_lift _

/-- An answer with its follow-up keeps what the records keep. -/
theorem answerWithFollowup_respects (runs : RunPoint → Bool) (base : RiskState)
    (final : RiskDecision) (health : HealthGate) :
    Respects R (answerWithFollowup runs barAt base final health) := by
  refine respects_bind (respects_fencedCycleTransaction
    (persistHealthRiskFollowup_respects hrecord base final health)) fun _ => ?_
  exact respects_bind (respects_lift _) fun _ => respects_pure _

/-- A repeated decision keeps what the records keep. -/
theorem redecide_respects (runs : RunPoint → Bool) (chain : RiskChain)
    (health : HealthGate) : Respects R (redecide runs barAt chain health) := by
  refine respects_bind (respects_lift _) fun _ => ?_
  refine respects_bind (respects_lift _) fun expected => ?_
  dsimp only
  split
  · exact answerWithFollowup_respects hrecord _ _ _ _
  · exact respects_pure _

/-- The decision of a new bar keeps what the records keep. -/
theorem decideNewBar_respects (config : RiskConfig) (runs : RunPoint → Bool)
    (row : RiskRow) (chain : RiskChain) (health : HealthGate) :
    Respects R (decideNewBar config runs barAt row chain health) := by
  refine respects_bind (respects_lift _) fun base => ?_
  have hrecorded : Respects R (recordEvent (.risk barAt) barAt
      (.breakerState (riskStatePayload base))) :=
    respects_recordEvent fun db db' => hrecord db db' _ _ _ (.base _)
  refine respects_bind (respects_fencedCycleTransaction hrecorded) fun _ => ?_
  dsimp only
  split
  · exact answerWithFollowup_respects hrecord _ _ _ _
  · exact respects_pure _

/-- The risk decision of a bar keeps what the records keep. -/
theorem riskDecision_respects (config : RiskConfig) (runs : RunPoint → Bool)
    (row : RiskRow) : Respects R (riskDecision config runs barAt row) := by
  refine respects_bind respects_get fun db => ?_
  refine respects_bind (respects_lift _) fun snapshot => ?_
  refine respects_bind (respects_lift _) fun chain => ?_
  refine respects_bind (respects_lift _) fun health => ?_
  refine respects_bind (respects_lift _) fun _ => ?_
  split
  · exact redecide_respects hrecord _ _ _
  · exact decideNewBar_respects hrecord _ _ _ _ _

variable (chances : Chances Cell) (end_ : ℤ)

omit hrecord in
/-- The record of an attempt keeps what the records keep. -/
theorem recordAttempt_respects (hrecord : Records R) (attempted : List ℤ) :
    Respects R (recordAttempt chances end_ attempted) := by
  unfold recordAttempt
  split
  · exact respects_pure _
  · exact respects_fencedCycleTransaction (respects_recordEvent fun db db' =>
      hrecord db db' _ _ _ rfl)

omit hrecord in
/-- The record of a completion keeps what its insertion keeps. -/
theorem recordCompletion_respects (hcompleted : ∀ db db' eventId occurredAt completion,
      appendEvent db eventId occurredAt (.paperCycle completion) = .ok db' → R db db')
    (result : CycleResult) : Respects R (recordCompletion chances result) :=
  respects_fencedCycleTransaction (respects_recordEvent fun db db' => hcompleted db db' _ _ _)

end Records

/-! ## Contexts and orders -/

section Cycle

variable {Cell : Type} (c : ServiceConfig Cell) (chances : Chances Cell)
  (end_ barAt : ℤ) (enriched : List TrendRow) (bar : Ohlcv ℚ) {R : Database → Database → Prop}
  [Std.Refl R] [IsTrans Database R]

/-- The context of one earlier entry keeps what the records keep. -/
theorem legacyEntryContext_respects [DecidableEq Cell] (hrecord : RecordsAt barAt R)
    (order : PaperOrder) : Respects R (legacyEntryContext c chances order) := by
  refine respects_bind (respects_readDatabase _) fun snapshot => ?_
  split
  · exact respects_pure _
  · refine respects_bind (respects_lift _) fun risk => ?_
    refine respects_bind (load_respects hrecord _) fun raw => ?_
    refine respects_bind (respects_lift _) fun quality => ?_
    exact respects_bind (respects_lift _) fun signal => respects_pure _

/-- The contexts of earlier entries keep what the records keep. -/
theorem prepareLegacyEntryContexts_respects [DecidableEq Cell] (hrecord : RecordsAt barAt R) :
    Respects R (prepareLegacyEntryContexts c chances barAt) := by
  refine respects_bind (respects_readDatabase _) fun account => ?_
  refine respects_foldlM (fun prepared order _ => ?_) []
  refine respects_bind (respects_lift _) fun _ => ?_
  split
  · exact respects_bind (legacyEntryContext_respects c chances barAt hrecord order) fun _ =>
      respects_pure _
  · exact respects_pure _

/-- A relation that every stop of a bar leads along. -/
def Protects (costs : CostConfig) (barAt : ℤ) (R : Database → Database → Prop) : Prop :=
  ∀ db db' price activeAfter reason source stop,
    setStop costs db barAt price activeAfter reason (some source) = .ok (stop, db') → R db db'

/-- The stop that a cycle sets keeps what protection keeps. -/
theorem ensureStop_respects (hset : Protects c.brokerCosts barAt R) (runs : Bool)
    (account : Ledger) (activeAfter : Option ℤ) (candidate : Option ℚ) :
    Respects R (ensureStop c barAt enriched runs account activeAfter candidate) := by
  refine respects_bind (respects_readDatabase _) fun position => ?_
  have hstop : ∀ {price reason active}, Respects R (brokerCall fun db =>
      setStop c.brokerCosts db barAt price active reason (some position.order.orderId)) :=
    respects_brokerCall fun db stop db' h => hset db db' _ _ _ _ _ h
  dsimp only
  split
  · exact respects_bind (respects_fencedCycle hstop) fun _ => respects_pure _
  · split
    · exact respects_pure _
    · exact respects_bind (respects_fencedCycle hstop) fun _ => respects_pure _

/-- A relation that the order of a decision leads along. -/
structure Orders (costs : CostConfig) (barAt : ℤ) (decision : Decision)
    (R : Database → Database → Prop) : Prop where
  entry : ∀ reason quantity, decision.action = .buy reason quantity → ∀ db db' context order,
    submitEntry costs db barAt quantity reason (some context) = .ok (order, db') → R db db'
  exit : ∀ db db' quantity owned reason order,
    submitExit costs db barAt quantity owned reason none = .ok (order, db') → R db db'

/-- The decision that is carried out keeps what its orders and its stop keep. -/
theorem carryOut_respects (hset : Protects c.brokerCosts barAt R) (row : TrendRow)
    (account : Ledger) (position : Option PositionContext) {decision : Decision}
    (hplaced : Orders c.brokerCosts barAt decision R) :
    Respects R (carryOut c chances barAt enriched row account position decision) := by
  unfold carryOut
  split
  · split
    · exact respects_bind (respects_fencedCycle (respects_brokerCall fun db order db' h =>
        hplaced.exit db db' _ _ _ order h)) fun _ => respects_pure _
    · exact respects_pure _
  · rename_i reason quantity haction
    refine respects_bind (respects_fencedCycle (respects_bind (respects_readDatabase _)
      fun context => respects_brokerCall fun db order db' h => ?_)) fun _ =>
      respects_bind (respects_fault _ _) fun _ => respects_pure _
    exact hplaced.entry reason quantity haction db db' context order h
  · split
    · exact respects_bind (ensureStop_respects c barAt enriched hset _ _ _ _) fun _ =>
        respects_pure _
    · exact respects_pure _

/-- A relation that every observation leads along. -/
def Observations (R : Database → Database → Prop) : Prop :=
  ∀ db db' id candles initialStop, observePosition db id candles initialStop = .ok db' → R db db'

/-- The observation of a held position keeps what observations keep. -/
theorem observeIfHeld_respects [DecidableEq Cell] (hrecord : RecordsAt barAt R)
    (hobserved : Observations R) (account : Ledger) :
    Respects R (observeIfHeld c chances barAt enriched account) := by
  have hcandles : ∀ start, Respects R (heldCandles c chances barAt enriched start) := by
    intro start
    unfold heldCandles
    dsimp only
    split
    · exact respects_lift _
    · refine respects_bind (respects_lift _) fun loader => ?_
      refine respects_bind (load_respects hrecord _) fun frame => ?_
      exact respects_bind (respects_lift _) fun _ => respects_lift _
  unfold observeIfHeld
  split
  · refine respects_bind (respects_lift _) fun entry => ?_
    refine respects_bind (respects_readDatabase _) fun observation => ?_
    dsimp only
    split
    · exact respects_lift _
    · refine respects_bind (hcandles _) fun held => ?_
      refine respects_bind (respects_readDatabase _) fun initial => ?_
      refine respects_bind (respects_fencedCycleTransaction (respects_brokerUpdate ?_)) fun _ =>
        respects_fault _ _
      exact fun db db' h => hobserved db db' _ _ _ h
  · exact respects_pure _

/-! ## The fills of a bar -/

/-- A relation that the fills of a bar lead along, with the contexts that they bind. -/
structure Fills (barAt : ℤ) (R : Database → Database → Prop) : Prop where
  bind : ∀ db db' id context order,
    bindEntryContext db id context = .ok (order, db') → R db db'
  open_ : ∀ db db' id price fill, processOpen db id barAt price none = .ok (fill, db') → R db db'
  stop : ∀ db db' openPrice lowPrice fill,
    processIntrabarStop db barAt openPrice lowPrice = .ok (fill, db') → R db db'

/-- A prepared context that is bound keeps what the binding keeps. -/
theorem bindPrepared_respects (hbind : ∀ db db' id context order,
      bindEntryContext db id context = .ok (order, db') → R db db')
    (prepared : PreparedContexts) (order : PaperOrder) :
    Respects R (bindPrepared prepared order) := by
  unfold bindPrepared
  split
  · refine respects_bind (respects_lift _) fun found => ?_
    split
    · exact respects_pure _
    · refine respects_bind (respects_lift _) fun context => ?_
      exact respects_bind (respects_brokerCall fun db bound db' h => hbind db db' _ _ bound h)
        fun _ => respects_pure _
  · exact respects_pure _

/-- A round of the fills keeps what the fills keep. -/
theorem fillRound_respects (h : Fills barAt R) (prepared : PreparedContexts)
    (progress : FillProgress) (order : PaperOrder) :
    Respects R (fillRound barAt bar prepared progress order) := by
  refine respects_bind (respects_lift _) fun _ => ?_
  split
  · refine respects_bind (bindPrepared_respects h.bind prepared order) fun _ => ?_
    exact respects_bind (respects_brokerCall fun db fill db' hopened =>
      h.open_ db db' _ _ fill hopened) fun _ => respects_pure _
  · exact respects_pure _

omit [IsTrans Database R] in
/-- A stop that is checked at a bar keeps what the fills keep. -/
theorem stopOut_respects (h : Fills barAt R) (account : Ledger) :
    Respects R (stopOut barAt bar account) := by
  unfold stopOut
  split
  · exact respects_brokerCall fun db fill db' hstopped => h.stop db db' _ _ fill hstopped
  · exact respects_pure _

/-- The fills of a bar keep what the fills and the protection keep. -/
theorem fillBar_respects (h : Fills barAt R) (hset : Protects c.brokerCosts barAt R)
    (prepared : PreparedContexts) :
    Respects R (fillBar c chances barAt enriched bar prepared) := by
  refine respects_bind (respects_readDatabase _) fun account => ?_
  refine respects_bind (respects_foldlM (fun progress order _ =>
    fillRound_respects barAt bar h prepared progress order) _) fun progress => ?_
  refine respects_bind (respects_fault _ _) fun _ => ?_
  refine respects_bind ?_ fun account =>
    respects_bind (stopOut_respects barAt bar h account) fun stopFill => respects_pure _
  refine respects_bind (respects_readDatabase _) fun account => ?_
  split
  · exact respects_bind (ensureStop_respects c barAt enriched hset _ _ _ _) fun _ =>
      respects_readDatabase _
  · exact respects_pure _

/-- The transaction of the fills keeps what the fills of the bar keep. -/
theorem fillTransaction_respects (h : Fills barAt R) (hset : Protects c.brokerCosts barAt R)
    (prepared : PreparedContexts) :
    Respects R (fillTransaction c chances end_ barAt enriched bar prepared) := by
  refine respects_fencedCycle (respects_bind (respects_readDatabase _) fun snapshot => ?_)
  refine respects_bind (respects_lift _) fun _ => respects_bind (respects_readDatabase _)
    fun completed => ?_
  split
  · exact respects_pure _
  · exact respects_bind (fillBar_respects c chances barAt enriched bar h hset prepared) fun _ =>
      respects_pure _

/-! ## The whole cycle -/

/-- A cycle whose lease is lost only reads. -/
theorem resultAfterLostLease_respects : Respects R (resultAfterLostLease end_) :=
  respects_bind (respects_readDatabase _) fun _ => respects_pure _

/-- A relation that every transaction of a cycle leads along. -/
structure Along (c : ServiceConfig Cell) (R : Database → Database → Prop) : Prop where
  records : Records R
  completes : ∀ db db' eventId occurredAt completion,
    appendEvent db eventId occurredAt (.paperCycle completion) = .ok db' → R db db'
  observes : Observations R
  protects : ∀ barAt, Protects c.brokerCosts barAt R
  entry : ∀ db db' barAt quantity context order,
    submitEntry c.brokerCosts db barAt quantity "ENTRY" (some context) = .ok (order, db') → R db db'
  exit : ∀ db db' barAt quantity owned reason order,
    submitExit c.brokerCosts db barAt quantity owned reason none = .ok (order, db') → R db db'
  fills : ∀ (chances : Chances Cell) end_ barAt enriched bar prepared,
    Respects R (fillTransaction c chances end_ barAt enriched bar prepared)

variable {c} (h : Along c R)
include h

omit [Std.Refl R] [IsTrans Database R] in
/-- The orders of a decision are kept along a cycle. -/
theorem Along.orders (strategy : StrategyConfig) (costs : CostConfig) (handed : DecisionInput) :
    Orders c.brokerCosts barAt (Strategy.decide strategy costs handed) R := by
  refine ⟨?_, fun db db' => h.exit db db' barAt⟩
  intro reason quantity haction db db' context order hsubmitted
  rw [decide_buy_reason haction] at hsubmitted
  exact h.entry db db' barAt quantity context order hsubmitted

/-- An unsafe cycle is kept along. -/
theorem Along.completeUnsafe : Respects R (completeUnsafe chances end_) := by
  refine respects_bind (respects_readDatabase _) fun account => ?_
  refine respects_bind (respects_readDatabase _) fun snapshot => ?_
  refine respects_bind (respects_lift _) fun _ => ?_
  exact respects_bind (recordCompletion_respects chances h.completes _) fun _ => respects_pure _

variable [DecidableEq Cell]

/-- The close of a bar is kept along a cycle. -/
theorem Along.closeBar (row : TrendRow) (filled : List PaperId) :
    Respects R (closeBar c chances end_ barAt enriched bar row filled) := by
  refine respects_bind (respects_readDatabase _) fun account => ?_
  refine respects_bind (observeIfHeld_respects c chances barAt enriched (h.records.atBar _)
    h.observes account)
    fun _ => ?_
  refine respects_bind (respects_lift _) fun equity => ?_
  refine respects_bind (riskDecision_respects (h.records.atBar _) _ _ _) fun risk => ?_
  refine respects_bind (respects_readDatabase _) fun account' => ?_
  refine respects_bind (respects_readDatabase _) fun position => ?_
  refine respects_bind (carryOut_respects c chances barAt enriched (h.protects barAt) row account'
    position (h.orders barAt _ _ _)) fun created => ?_
  exact respects_bind (recordCompletion_respects chances h.completes _) fun _ => respects_pure _

/-- The window of a cycle is kept along it. -/
theorem Along.processWindow : Respects R (processWindow c chances end_ enriched) := by
  unfold Service.processWindow
  split
  · exact h.completeUnsafe chances end_
  · refine respects_bind (prepareLegacyEntryContexts_respects c chances _
      (h.records.atBar _)) fun prepared => ?_
    split
    · exact resultAfterLostLease_respects end_
    · refine respects_bind (respects_readDatabase _) fun completed => ?_
      split
      · exact respects_pure _
      · refine respects_bind (h.fills chances end_ _ enriched _ prepared) fun filled => ?_
        cases filled with
        | none => exact respects_pure _
        | some filled => exact h.closeBar chances end_ _ enriched _ _ filled

/-- A cycle that holds the lease is kept along. -/
theorem Along.leasedCycle : Respects R (leasedCycle c chances end_) := by
  refine respects_bind (respects_readDatabase _) fun evidence => ?_
  obtain ⟨completed, attempted⟩ := evidence
  dsimp only
  split
  · exact respects_pure _
  · refine respects_bind (respects_lift _) fun _ => ?_
    refine respects_bind (recordAttempt_respects chances end_ h.records attempted) fun _ => ?_
    refine respects_bind (respects_fault _ _) fun _ => ?_
    refine respects_bind (load_respects (h.records.atBar end_) _) fun raw => ?_
    refine respects_bind (respects_lift _) fun quality => ?_
    split
    · exact resultAfterLostLease_respects end_
    · refine respects_bind (respects_readDatabase _) fun completed => ?_
      split
      · exact respects_pure _
      · exact h.processWindow chances end_ _

/-- However a cycle ends, it has led along the relation. -/
theorem Along.processCompletedCandle : Respects R (processCompletedCandle c chances end_) := by
  refine respects_bind (respects_lift _) fun _ => ?_
  refine respects_bind (respects_lift _) fun _ => ?_
  refine respects_bind (respects_readDatabase _) fun evidence => ?_
  obtain ⟨completed, attempted⟩ := evidence
  dsimp only
  split
  · exact respects_pure _
  · refine respects_bind (respects_lift _) fun _ => ?_
    split
    · exact respects_pure _
    · refine respects_recover (h.leasedCycle chances end_) fun e rest hrest => ?_
      cases e <;> cases hrest
      exact resultAfterLostLease_respects end_

end Cycle

/-! ## Runs -/

/-- A step of the service: a cycle that is admitted, which may stop anywhere, or an event that
another process records. -/
inductive ServiceStep {Cell : Type} [DecidableEq Cell]
    (admits : Database → ServiceConfig Cell → Chances Cell → ℤ → Prop) : Database → Database → Prop
  | cycle {db : Database} {c : ServiceConfig Cell} {chances : Chances Cell} {end_ : ℤ}
      (hadmitted : admits db c chances end_) :
      ServiceStep admits db (execute (processCompletedCandle c chances end_) db).2
  | recorded {db db' : Database} (event : SourceEvent)
      (happend : appendEvent db event.eventId event.occurredAt event.payload = .ok db') :
      ServiceStep admits db db'

end AutoBit.Service
