import AutoBit.Service.RiskAgreement

/-!
# The stored fields of a risk state

A risk state is stored as a mapping of JSON values, and read back field by field. The
reader also checks that the fields agree: the halt flag with the decision, and the cursor
with the history. What it accepts of a written state is what the chain of risk events takes
for granted, and every state that the risk policy reaches is among that.
-/

namespace AutoBit.Service.RiskPayload

open Library Risk

/-! ## The mapping -/

/-- A JSON scalar. The canonical texts of an instant and of a date are kept apart from other
texts, since they correspond one to one. -/
inductive Scalar where
  | null
  | bool (value : Bool)
  | int (value : ℤ)
  | float (value : Reading)
  | text (value : String)
  | utc (instant : ℤ)
  | date (day : ℤ)
  deriving DecidableEq, Repr

/-- An element of a JSON array. -/
inductive Element where
  | scalar (value : Scalar)
  | object (items : List (String × Scalar))
  deriving DecidableEq, Repr

/-- A JSON value of the mapping. -/
inductive Json where
  | scalar (value : Scalar)
  | array (items : List Element)
  deriving DecidableEq, Repr

/-- A stored mapping, as its items in order. -/
abbrev Mapping := List (String × Json)

/-- What Python makes of texts: `float` and `date.fromisoformat` of a text that is not
canonical, and the canonical texts themselves. -/
structure Texts where
  float : String → Option Reading
  fromisoformat : String → Option ℤ
  instant : ℤ → String
  date : ℤ → String

/-- `_optional_datetime`. -/
def optionalDatetime : Option ℤ → Json
  | none => .scalar .null
  | some instant => .scalar (.utc instant)

/-- `_risk_state_payload`. -/
def riskStatePayload (state : RiskState) : Mapping :=
  [("consecutive_losses", .scalar (.int state.consecutiveLosses)),
    ("daily_baseline_equity", .scalar (.float (.number state.dailyBaselineEquity))),
    ("daily_date", .scalar (state.dailyDate.elim .null .date)),
    ("daily_halt_started_at_utc", optionalDatetime state.dailyHaltStartedAt),
    ("decision_exposure_cap", .scalar (.float (.number state.decision.exposureCap))),
    ("decision_halted_until_utc", optionalDatetime state.decision.haltedUntil),
    ("decision_reasons",
      .array (state.decision.reasons.map fun reason => .scalar (.text reason))),
    ("decision_risk_rate", .scalar (.float (.number state.decision.riskRate))),
    ("equity_history", .array (state.equityHistory.map fun point =>
      .object [("at_utc", .utc point.1), ("equity", .float (.number point.2))])),
    ("equity_peak", .scalar (.float (.number state.equityPeak))),
    ("halt_entries", .scalar (.bool (state.decision.riskRate ≤ 0))),
    ("last_equity", .scalar (.float (.number state.lastEquity))),
    ("last_risk_at_utc", optionalDatetime state.lastRiskAt),
    ("processed_trade_count", .scalar (.int state.processedTradeCount)),
    ("profitable_trades_since_streak_halt",
      .scalar (.int state.profitableTradesSinceStreakHalt)),
    ("recovery_started_at_utc", optionalDatetime state.recoveryStartedAt),
    ("risk_started_at_utc", optionalDatetime state.riskStartedAt),
    ("streak_halt_started_at_utc", optionalDatetime state.streakHaltStartedAt),
    ("version", .scalar (.int riskStateVersion)),
    ("volatility_halted", .scalar (.bool state.volatilityHalted)),
    ("volatility_stable_bars", .scalar (.int state.volatilityStableBars)),
    ("weekly_halt_started_at_utc", optionalDatetime state.weeklyHaltStartedAt)]

/-! ## Reading a mapping -/

/-- `payload[key]`, once the keys have been checked. -/
def item (payload : Mapping) (key : String) : Json := (payload.lookup key).getD (.scalar .null)

/-- `_strict_stored_datetime`. -/
def strictStoredDatetime : Scalar → Except String ℤ
  | .utc instant => .ok instant
  | _ => .error "stored datetime must be canonical UTC"

/-- `_optional_stored_datetime`. -/
def optionalStoredDatetime : Json → Except String (Option ℤ)
  | .scalar .null => .ok none
  | .scalar value => some <$> strictStoredDatetime value
  | .array _ => .error "stored datetime must be canonical UTC"

/-- `_nonnegative_int`. -/
def nonnegativeInt (value : Json) (label : String) : Except String ℕ :=
  match value with
  | .scalar (.int n) =>
    if n < 0 then .error (label ++ " must be a non-negative integer") else .ok n.toNat
  | _ => .error (label ++ " must be a non-negative integer")

/-- `_strict_bool`. -/
def strictBool (value : Json) (label : String) : Except String Bool :=
  match value with
  | .scalar (.bool flag) => .ok flag
  | _ => .error (label ++ " must be a bool")

section Read

variable (texts : Texts)

/-- `float(value)`. -/
def toFloat : Scalar → Except String Reading
  | .int n =>
    match Library.toFloat |n| with
    | .finite q => .ok (.number (if n < 0 then -q else q))
    | .infinite => .error "int too large to convert to float"
  | .float value => .ok value
  | .bool flag => .ok (.number (if flag then 1 else 0))
  | .text value => require (texts.float value) "could not convert string to float"
  | .utc _ | .date _ => .error "could not convert string to float"
  | .null => .error "float() argument must be a string or a real number"

/-- `_finite_nonnegative` of a scalar. -/
def finiteNonnegative (value : Scalar) (label : String) : Except String ℚ := do
  reject (∃ flag, value = .bool flag) (label ++ " must be finite and non-negative")
  match ← toFloat texts value with
  | .number q => if q < 0 then .error (label ++ " must be finite and non-negative") else .ok q
  | _ => .error (label ++ " must be finite and non-negative")

/-- `_finite_nonnegative`. -/
def finiteNonnegativeItem (value : Json) (label : String) : Except String ℚ :=
  match value with
  | .scalar value => finiteNonnegative texts value label
  | .array _ => .error "float() argument must be a string or a real number"

/-- `date.fromisoformat(daily_value)`, if that is a text. -/
def dailyDate : Json → Except String (Option ℤ)
  | .scalar (.date day) => .ok (some day)
  | .scalar (.text value) =>
    some <$> require (texts.fromisoformat value) "Invalid isoformat string"
  | .scalar (.utc _) => .error "Invalid isoformat string"
  | _ => .ok none

/-- One item of the equity history. -/
def historyItem : Element → Except String (ℤ × ℚ)
  | .object items => do
    reject (!Health.sameKeys (items.map Prod.fst) ["at_utc", "equity"])
      "invalid equity history item"
    let at_ ← strictStoredDatetime ((items.lookup "at_utc").getD .null)
    let equity ← finiteNonnegative texts ((items.lookup "equity").getD .null) "history equity"
    return (at_, equity)
  | .scalar _ => .error "invalid equity history item"

/-- The equity history. -/
def equityHistory : Json → Except String (List (ℤ × ℚ))
  | .array items => do
    let history ← items.mapM (historyItem texts)
    reject (¬(history.map Prod.fst).IsChain (· < ·)) "risk history is not strictly increasing"
    return history
  | .scalar _ => .error "invalid equity history"

/-- One reason: a text that is not empty. -/
def reasonText : Element → Except String String
  | .scalar (.text reason) => if reason = "" then .error "invalid risk reason" else .ok reason
  | .scalar (.utc instant) =>
    if texts.instant instant = "" then .error "invalid risk reason"
    else .ok (texts.instant instant)
  | .scalar (.date day) =>
    if texts.date day = "" then .error "invalid risk reason" else .ok (texts.date day)
  | _ => .error "invalid risk reason"

/-- The reasons of the decision. -/
def decisionReasons : Json → Except String (List String)
  | .array items => items.mapM (reasonText texts)
  | .scalar _ => .error "invalid risk reasons"

/-- The decision of a stored mapping. -/
def decisionOf (payload : Mapping) : Except String RiskDecision := do
  let reasons ← decisionReasons texts (item payload "decision_reasons")
  let riskRate ← finiteNonnegativeItem texts (item payload "decision_risk_rate")
    "decision risk rate"
  let exposureCap ← finiteNonnegativeItem texts (item payload "decision_exposure_cap")
    "decision exposure cap"
  let haltedUntil ← optionalStoredDatetime (item payload "decision_halted_until_utc")
  return ⟨riskRate, exposureCap, haltedUntil, reasons⟩

/-- The state of a stored mapping, in the order in which its fields are read. -/
def stateOf (payload : Mapping) : Except String RiskState := do
  let dailyDate ← dailyDate texts (item payload "daily_date")
  let history ← equityHistory texts (item payload "equity_history")
  let decision ← decisionOf texts payload
  let equityPeak ← finiteNonnegativeItem texts (item payload "equity_peak") "equity peak"
  let dailyBaselineEquity ← finiteNonnegativeItem texts (item payload "daily_baseline_equity")
    "daily baseline"
  let riskStartedAt ← optionalStoredDatetime (item payload "risk_started_at_utc")
  let lastEquity ← finiteNonnegativeItem texts (item payload "last_equity") "last equity"
  let lastRiskAt ← optionalStoredDatetime (item payload "last_risk_at_utc")
  let consecutiveLosses ← nonnegativeInt (item payload "consecutive_losses") "loss count"
  let processedTradeCount ← nonnegativeInt (item payload "processed_trade_count") "trade cursor"
  let recoveryStartedAt ← optionalStoredDatetime (item payload "recovery_started_at_utc")
  let dailyHaltStartedAt ← optionalStoredDatetime (item payload "daily_halt_started_at_utc")
  let weeklyHaltStartedAt ← optionalStoredDatetime (item payload "weekly_halt_started_at_utc")
  let streakHaltStartedAt ← optionalStoredDatetime (item payload "streak_halt_started_at_utc")
  let profitableTradesSinceStreakHalt ← nonnegativeInt
    (item payload "profitable_trades_since_streak_halt") "profitable trade count"
  let volatilityHalted ← strictBool (item payload "volatility_halted") "volatility halt"
  let volatilityStableBars ← nonnegativeInt (item payload "volatility_stable_bars")
    "volatility stable bars"
  let haltEntries ← strictBool (item payload "halt_entries") "halt entries"
  reject (haltEntries ≠ decide (decision.riskRate ≤ 0)) "halt flag contradicts risk decision"
  reject (∃ cursor ∈ lastRiskAt, ∃ last ∈ history.getLast?, cursor ≠ last.1)
    "risk cursor contradicts equity history"
  return {
    equityPeak, dailyDate, dailyBaselineEquity, equityHistory := history, riskStartedAt
    lastEquity, lastRiskAt, consecutiveLosses, processedTradeCount, recoveryStartedAt
    dailyHaltStartedAt, weeklyHaltStartedAt, streakHaltStartedAt
    profitableTradesSinceStreakHalt, volatilityHalted, volatilityStableBars, decision }

/-- `_risk_state_from_payload`. -/
def riskStateFromPayload (payload : Mapping) : Except Failure RiskState := do
  if payload = [] then return {}
  reject (!Health.sameKeys (payload.map Prod.fst) ((riskStatePayload {}).map Prod.fst) ∨
      (item payload "version" ≠ .scalar (.int 1) ∧
        item payload "version" ≠ .scalar (.int riskStateVersion)))
    (.corruption "persisted breaker state has an invalid schema")
  (stateOf texts payload).mapError fun _ => .corruption "persisted breaker state is invalid"

end Read

/-! ## Reading what was written -/

section Written

variable {texts : Texts}

/-- An optional datetime is read as it was written. -/
@[simp] theorem optionalStoredDatetime_written (value : Option ℤ) :
    optionalStoredDatetime (optionalDatetime value) = .ok value := by
  cases value <;> rfl

/-- A count is read as it was written. -/
@[simp] theorem nonnegativeInt_written (n : ℕ) (label : String) :
    nonnegativeInt (.scalar (.int n)) label = .ok n := by
  have hnonneg : ¬((n : ℤ) < 0) := by omega
  rw [nonnegativeInt, if_neg hnonneg, Int.toNat_natCast]

/-- A flag is read as it was written. -/
@[simp] theorem strictBool_written (flag : Bool) (label : String) :
    strictBool (.scalar (.bool flag)) label = .ok flag := rfl

/-- A date is read as it was written. -/
@[simp] theorem dailyDate_written (value : Option ℤ) :
    dailyDate texts (.scalar (value.elim .null .date)) = .ok value := by
  cases value <;> rfl

/-- A number that is not negative is read as it was written. -/
@[simp] theorem finiteNonnegative_written {q value : ℚ} {label : String} :
    finiteNonnegative texts (.float (.number q)) label = .ok value ↔ 0 ≤ q ∧ q = value := by
  simp only [finiteNonnegative, Except.bind_eq_ok, reject_eq_ok, toFloat]
  constructor
  · rintro ⟨_, _, _, ⟨⟩, hvalue⟩
    dsimp only at hvalue
    split at hvalue
    · cases hvalue
    · next hnonneg =>
      cases hvalue
      exact ⟨not_lt.mp hnonneg, rfl⟩
  · rintro ⟨hnonneg, rfl⟩
    exact ⟨(), by simp, _, rfl, if_neg (not_lt.mpr hnonneg)⟩

/-- An item that is not negative is read as it was written. -/
@[simp] theorem finiteNonnegativeItem_written {q value : ℚ} {label : String} :
    finiteNonnegativeItem texts (.scalar (.float (.number q))) label = .ok value ↔
      0 ≤ q ∧ q = value := finiteNonnegative_written

/-- A point of the history is read as it was written when its equity is not negative. -/
theorem historyItem_written {point value : ℤ × ℚ} :
    historyItem texts (.object [("at_utc", .utc point.1), ("equity", .float (.number point.2))]) =
      .ok value ↔ 0 ≤ point.2 ∧ point = value := by
  simp only [historyItem, Except.bind_eq_ok, reject_eq_ok, Except.pure_eq_ok]
  constructor
  · rintro ⟨_, _, instant, ⟨⟩, equity, hequity, rfl⟩
    obtain ⟨hnonneg, rfl⟩ := finiteNonnegative_written.mp hequity
    exact ⟨hnonneg, rfl⟩
  · rintro ⟨hnonneg, rfl⟩
    exact ⟨(), by simp [Health.sameKeys], _, rfl, _,
      finiteNonnegative_written.mpr ⟨hnonneg, rfl⟩, rfl⟩

/-- Items that are read back where they satisfy a condition make a list that is. -/
theorem mapM_written {α β : Type} {write : α → β} {read : β → Except String α} {P : α → Prop}
    (h : ∀ x y, read (write x) = .ok y ↔ P x ∧ x = y) {xs ys : List α} :
    (xs.map write).mapM read = .ok ys ↔ (∀ x ∈ xs, P x) ∧ xs = ys := by
  rw [mapM_eq_ok, List.forall₂_map_left_iff]
  constructor
  · intro hall
    have heq : xs = ys := by
      refine List.forall₂_eq_eq_eq ▸ hall.imp ?_
      exact fun x y hxy => ((h x y).mp hxy).2
    refine ⟨?_, heq⟩
    intro x hx
    obtain ⟨y, _, hxy⟩ := forall₂_exists_right hall hx
    exact ((h x y).mp hxy).1
  · rintro ⟨hall, rfl⟩
    exact List.forall₂_same.mpr fun x hx => (h x x).mpr ⟨hall x hx, rfl⟩

/-- A history is read as it was written when it is in order and not negative. -/
theorem equityHistory_written {points history : List (ℤ × ℚ)} :
    equityHistory texts (.array (points.map fun point =>
      .object [("at_utc", .utc point.1), ("equity", .float (.number point.2))])) = .ok history ↔
      (∀ point ∈ points, 0 ≤ point.2) ∧ (points.map Prod.fst).Pairwise (· < ·) ∧
        points = history := by
  simp only [equityHistory, Except.bind_eq_ok, reject_eq_ok, Except.pure_eq_ok,
    mapM_written fun x y => @historyItem_written texts x y]
  rw [← List.isChain_iff_pairwise]
  constructor
  · rintro ⟨_, ⟨hnonneg, rfl⟩, _, hsorted, rfl⟩
    exact ⟨hnonneg, not_not.mp hsorted, rfl⟩
  · rintro ⟨hnonneg, hsorted, rfl⟩
    exact ⟨_, ⟨hnonneg, rfl⟩, (), not_not.mpr hsorted, rfl⟩

/-- Reasons are read as they were written when none is empty. -/
theorem decisionReasons_written {reasons read : List String} :
    decisionReasons texts (.array (reasons.map fun reason => .scalar (.text reason))) = .ok read ↔
      "" ∉ reasons ∧ reasons = read := by
  have hone : ∀ reason value : String,
      reasonText texts (.scalar (.text reason)) = .ok value ↔ reason ≠ "" ∧ reason = value := by
    intro reason value
    by_cases hempty : reason = ""
    · simp [reasonText, hempty]
    · simp [reasonText, hempty]
  rw [decisionReasons, mapM_written hone]
  have hmem : (∀ reason ∈ reasons, reason ≠ "") ↔ "" ∉ reasons := by
    constructor
    · intro hall hempty
      exact hall "" hempty rfl
    · rintro hempty reason hreason rfl
      exact hempty hreason
  rw [hmem]

/-- A decision is read as it was written when its reasons and rates are valid. -/
theorem decisionOf_written {s : RiskState} {decision : RiskDecision} :
    decisionOf texts (riskStatePayload s) = .ok decision ↔
      "" ∉ s.decision.reasons ∧ 0 ≤ s.decision.riskRate ∧ 0 ≤ s.decision.exposureCap ∧
        s.decision = decision := by
  have hreasons : item (riskStatePayload s) "decision_reasons" =
      .array (s.decision.reasons.map fun reason => .scalar (.text reason)) := rfl
  have hrate : item (riskStatePayload s) "decision_risk_rate" =
      .scalar (.float (.number s.decision.riskRate)) := rfl
  have hcap : item (riskStatePayload s) "decision_exposure_cap" =
      .scalar (.float (.number s.decision.exposureCap)) := rfl
  have huntil : item (riskStatePayload s) "decision_halted_until_utc" =
      optionalDatetime s.decision.haltedUntil := rfl
  simp only [decisionOf, Except.bind_eq_ok, Except.pure_eq_ok, hreasons, hrate, hcap, huntil,
    decisionReasons_written, finiteNonnegativeItem_written, optionalStoredDatetime_written]
  constructor
  · rintro ⟨_, ⟨htexts, rfl⟩, _, ⟨hratePos, rfl⟩, _, ⟨hcapPos, rfl⟩, _, huntilOk, rfl⟩
    cases huntilOk
    exact ⟨htexts, hratePos, hcapPos, rfl⟩
  · rintro ⟨htexts, hratePos, hcapPos, rfl⟩
    exact ⟨_, ⟨htexts, rfl⟩, _, ⟨hratePos, rfl⟩, _, ⟨hcapPos, rfl⟩, _, rfl, rfl⟩

/-- What is read of a written state. -/
theorem stateOf_written {s state : RiskState} :
    stateOf texts (riskStatePayload s) = .ok state ↔
      Service.riskStateFromPayload (Service.riskStatePayload s) = .ok state := by
  have hdate : item (riskStatePayload s) "daily_date" =
      .scalar (s.dailyDate.elim .null .date) := rfl
  have hhistory : item (riskStatePayload s) "equity_history" = .array (s.equityHistory.map
      fun point => .object [("at_utc", .utc point.1), ("equity", .float (.number point.2))]) := rfl
  have hpeak : item (riskStatePayload s) "equity_peak" =
      .scalar (.float (.number s.equityPeak)) := rfl
  have hbaseline : item (riskStatePayload s) "daily_baseline_equity" =
      .scalar (.float (.number s.dailyBaselineEquity)) := rfl
  have hstarted : item (riskStatePayload s) "risk_started_at_utc" =
      optionalDatetime s.riskStartedAt := rfl
  have hequity : item (riskStatePayload s) "last_equity" =
      .scalar (.float (.number s.lastEquity)) := rfl
  have hcursor : item (riskStatePayload s) "last_risk_at_utc" =
      optionalDatetime s.lastRiskAt := rfl
  have hlosses : item (riskStatePayload s) "consecutive_losses" =
      .scalar (.int s.consecutiveLosses) := rfl
  have htrades : item (riskStatePayload s) "processed_trade_count" =
      .scalar (.int s.processedTradeCount) := rfl
  have hrecovery : item (riskStatePayload s) "recovery_started_at_utc" =
      optionalDatetime s.recoveryStartedAt := rfl
  have hdaily : item (riskStatePayload s) "daily_halt_started_at_utc" =
      optionalDatetime s.dailyHaltStartedAt := rfl
  have hweekly : item (riskStatePayload s) "weekly_halt_started_at_utc" =
      optionalDatetime s.weeklyHaltStartedAt := rfl
  have hstreak : item (riskStatePayload s) "streak_halt_started_at_utc" =
      optionalDatetime s.streakHaltStartedAt := rfl
  have hprofitable : item (riskStatePayload s) "profitable_trades_since_streak_halt" =
      .scalar (.int s.profitableTradesSinceStreakHalt) := rfl
  have hhalted : item (riskStatePayload s) "volatility_halted" =
      .scalar (.bool s.volatilityHalted) := rfl
  have hstable : item (riskStatePayload s) "volatility_stable_bars" =
      .scalar (.int s.volatilityStableBars) := rfl
  have hentries : item (riskStatePayload s) "halt_entries" =
      .scalar (.bool (s.decision.riskRate ≤ 0)) := rfl
  simp only [stateOf, Except.bind_eq_ok, Except.pure_eq_ok, reject_eq_ok, hdate, hhistory, hpeak,
    hbaseline, hstarted, hequity, hcursor, hlosses, htrades, hrecovery, hdaily, hweekly, hstreak,
    hprofitable, hhalted, hstable, hentries, dailyDate_written, equityHistory_written,
    decisionOf_written, finiteNonnegativeItem_written, optionalStoredDatetime_written,
    nonnegativeInt_written, strictBool_written]
  simp only [Service.riskStatePayload, Service.riskStateFromPayload, Except.bind_eq_ok,
    Except.pure_eq_ok, reject_eq_ok]
  constructor
  · rintro ⟨_, hdateOk, _, ⟨hnonneg, hsorted, rfl⟩, _, ⟨htexts, hrate, hcap, rfl⟩, _,
      ⟨hpeakPos, rfl⟩, _, ⟨hbaselinePos, rfl⟩, _, hstartedOk, _, ⟨hequityPos, rfl⟩, _, hcursorOk,
      _, hlossesOk, _, htradesOk, _, hrecoveryOk, _, hdailyOk, _, hweeklyOk, _, hstreakOk, _,
      hprofitableOk, _, hhaltedOk, _, hstableOk, _, hentriesOk, _, hflag, _, hlast, rfl⟩
    cases hdateOk
    cases hstartedOk
    cases hcursorOk
    cases hlossesOk
    cases htradesOk
    cases hrecoveryOk
    cases hdailyOk
    cases hweeklyOk
    cases hstreakOk
    cases hprofitableOk
    cases hhaltedOk
    cases hstableOk
    refine ⟨(), by simp, (), ?_, (), not_not.mpr hsorted, (), htexts, (), ?_, (), ?_, (), hlast, rfl⟩
    · rintro ⟨point, hpoint, hnegative⟩
      exact absurd (hnonneg point hpoint) (not_le.mpr hnegative)
    · exact not_or.mpr ⟨not_lt.mpr hrate, not_lt.mpr hcap⟩
    · exact not_or.mpr ⟨not_lt.mpr hpeakPos, not_or.mpr ⟨not_lt.mpr hbaselinePos,
        not_lt.mpr hequityPos⟩⟩
  · rintro ⟨_, _, _, hnonneg, _, hsorted, _, htexts, _, hrates, _, hequities, _, hlast, rfl⟩
    obtain ⟨hrate, hcap⟩ := not_or.mp hrates
    obtain ⟨hpeakPos, hrest⟩ := not_or.mp hequities
    obtain ⟨hbaselinePos, hequityPos⟩ := not_or.mp hrest
    refine ⟨_, rfl, _, ⟨?_, not_not.mp hsorted, rfl⟩, _,
      ⟨htexts, not_lt.mp hrate, not_lt.mp hcap, rfl⟩, _, ⟨not_lt.mp hpeakPos, rfl⟩, _,
      ⟨not_lt.mp hbaselinePos, rfl⟩, _, rfl, _, ⟨not_lt.mp hequityPos, rfl⟩, _, rfl, _, rfl, _, rfl,
      _, rfl, _, rfl, _, rfl, _, rfl, _, rfl, _, rfl, _, rfl, _, rfl, (), by simp, (), hlast, rfl⟩
    intro point hpoint
    by_contra hnegative
    exact hnonneg ⟨point, hpoint, not_le.mp hnegative⟩

/-- A payload of the risk state is not empty. -/
theorem riskStatePayload_ne_nil (s : RiskState) : (riskStatePayload s = []) = False :=
  eq_false (List.cons_ne_nil _ _)

/-- The fields of a written state are read as the chain of risk events reads the state. -/
theorem riskStateFromPayload_written (texts : Texts) (s : RiskState) :
    riskStateFromPayload texts (riskStatePayload s) =
      Service.riskStateFromPayload (Service.riskStatePayload s) := by
  have hversion : item (riskStatePayload s) "version" = .scalar (.int riskStateVersion) := rfl
  have hkeys : (riskStatePayload s).map Prod.fst = (riskStatePayload {}).map Prod.fst := rfl
  have hsame : Health.sameKeys ((riskStatePayload {}).map Prod.fst)
      ((riskStatePayload {}).map Prod.fst) = true := by decide +kernel
  have hschema : ¬((!Health.sameKeys ((riskStatePayload s).map Prod.fst)
        ((riskStatePayload {}).map Prod.fst)) = true ∨
      (item (riskStatePayload s) "version" ≠ .scalar (.int 1) ∧
        item (riskStatePayload s) "version" ≠ .scalar (.int riskStateVersion))) := by
    rw [hversion, hkeys, hsame]
    simp
  refine Except.eq_of_ok_iff (e := .corruption "persisted breaker state is invalid") ?_ ?_ ?_
  · intro state
    have hwritten : stateOf texts (riskStatePayload s) = .ok state ↔ _ := stateOf_written
    rw [← hwritten]
    simp only [riskStateFromPayload, riskStatePayload_ne_nil, if_false, Except.bind_eq_ok,
      reject_eq_ok, Except.mapError_eq_ok]
    constructor
    · rintro ⟨_, _, hread⟩
      exact hread
    · intro hread
      exact ⟨(), hschema, hread⟩
  · intro raised hraised
    simp only [riskStateFromPayload, riskStatePayload_ne_nil, if_false, Except.bind_eq_error,
      reject_eq_error, Except.mapError_eq_error] at hraised
    rcases hraised with ⟨hbad, -⟩ | ⟨_, -, _, -, rfl⟩
    · exact absurd hbad hschema
    · rfl
  · intro raised hraised
    simp only [Service.riskStatePayload, Service.riskStateFromPayload, Except.bind_eq_error,
      reject_eq_error] at hraised
    rcases hraised with ⟨hbad, -⟩ | ⟨_, -, hraised⟩
    · exact absurd rfl hbad.2
    · rcases hraised with ⟨-, rfl⟩ | ⟨_, -, ⟨-, rfl⟩ | ⟨_, -, ⟨-, rfl⟩ | ⟨_, -, ⟨-, rfl⟩ |
        ⟨_, -, ⟨-, rfl⟩ | ⟨_, -, ⟨-, rfl⟩ | ⟨_, -, hreturned⟩⟩⟩⟩⟩⟩
      all_goals first | rfl | cases hreturned

end Written

/-! ## Every reachable state -/

/-- The states that observations and overlays of the decision reach from the default. -/
inductive Reached (config : RiskConfig) : RiskState → Prop where
  | start : Reached config {}
  | bar {s next : RiskState} {observation : RiskObservation} :
      Reached config s → advanceRiskState s observation config = .ok next → Reached config next
  | overlay {s : RiskState} (systemHealthy resumeReduced : Bool) : Reached config s →
      Reached config
        { s with decision := applyHealthRecovery s.decision systemHealthy resumeReduced }

/-- What happens to a risk state between two decisions. -/
inductive RiskStep where
  | bar (observation : RiskObservation)
  | overlay (systemHealthy resumeReduced : Bool)
  | reload
  deriving Repr

def RiskStep.isReload : RiskStep → Bool
  | .reload => true
  | _ => false

/-- One step. A reload writes the state, and continues with what is read back. -/
def RiskStep.apply (texts : Texts) (config : RiskConfig) (s : RiskState) :
    RiskStep → Except Failure RiskState
  | .bar observation => advanceRiskState s observation config
  | .overlay systemHealthy resumeReduced =>
    .ok { s with decision := applyHealthRecovery s.decision systemHealthy resumeReduced }
  | .reload => riskStateFromPayload texts (riskStatePayload s)

/-- The decisions of a run, and how it ends: with a state, or with the error of a step. -/
def decisionsOf (texts : Texts) (config : RiskConfig) (s : RiskState) :
    List RiskStep → List RiskDecision × Except Failure RiskState
  | [] => ([], .ok s)
  | step :: steps =>
    match step.apply texts config s with
    | .error failure => ([], .error failure)
    | .ok next =>
      let (decisions, final) := decisionsOf texts config next steps
      (if step.isReload then decisions else next.decision :: decisions, final)

section Reached

variable {texts : Texts} {config : RiskConfig} {s : RiskState}

/-- A reached state is ready for the store. -/
theorem Reached.ready (h : Reached config s) : Ready s := by
  induction h with
  | start => exact ready_init
  | bar _ hnext ih => exact ih.observed hnext
  | overlay systemHealthy resumeReduced _ ih =>
    exact ih.withDecision (ih.decision.applyHealthRecovery systemHealthy resumeReduced)

/-- A ready state is read back from its fields. -/
theorem Ready.fields (h : Ready s) :
    riskStateFromPayload texts (riskStatePayload s) = .ok s := by
  rw [riskStateFromPayload_written]
  exact h.fromPayload

/-- A step leaves a ready state ready. -/
theorem Ready.apply {next : RiskState} (h : Ready s) {step : RiskStep}
    (hstep : step.apply texts config s = .ok next) : Ready next := by
  cases step with
  | bar observation => exact h.observed hstep
  | overlay systemHealthy resumeReduced =>
    cases hstep
    exact h.withDecision (h.decision.applyHealthRecovery systemHealthy resumeReduced)
  | reload =>
    rw [RiskStep.apply, Ready.fields h] at hstep
    cases hstep
    exact h

/-- From a ready state, reloads change neither the decisions nor the end of a run. -/
theorem decisionsOf_filter (h : Ready s) (steps : List RiskStep) :
    decisionsOf texts config s steps =
      decisionsOf texts config s (steps.filter fun step => !step.isReload) := by
  induction steps generalizing s with
  | nil => rfl
  | cons step steps ih =>
    by_cases hreload : step.isReload = true
    · have hstep : step.apply texts config s = .ok s := by
        cases step with
        | reload => exact Ready.fields h
        | bar _ | overlay _ _ => cases hreload
      rw [List.filter_cons_of_neg (by simpa using hreload), ← ih h, decisionsOf, hstep]
      simp [hreload]
    · rw [List.filter_cons_of_pos (by simpa using hreload), decisionsOf, decisionsOf]
      cases hstep : step.apply texts config s with
      | error failure => rfl
      | ok next =>
        dsimp only
        rw [ih (Ready.apply h hstep)]

end Reached

/-- Every reached state is read back as it was written, and a run that stores and loads its
state between any two bars decides as one that keeps it in memory. -/
theorem risk_state_survives_storage (texts : Texts) (config : RiskConfig) :
    (∀ s, Reached config s → riskStateFromPayload texts (riskStatePayload s) = .ok s) ∧
      ∀ steps, decisionsOf texts config {} steps =
        decisionsOf texts config {} (steps.filter fun step => !step.isReload) := by
  constructor
  · intro s hs
    exact Ready.fields hs.ready
  · intro steps
    exact decisionsOf_filter ready_init steps

/-- The texts of a store that holds only canonical ones. -/
def canonicalTexts : Texts := ⟨fun _ => none, fun _ => none, fun _ => "instant", fun _ => "date"⟩

/-- A bar with a loss, an overlay, a reload and the bar four hours later. -/
theorem risk_state_survives_storage_two_bars :
    decisionsOf canonicalTexts {} {}
        [.bar ⟨0, 95, [], .number 1, true, true⟩, .overlay true true, .reload,
          .bar ⟨hours 4, 96, [], .number 1, true, true⟩] =
      decisionsOf canonicalTexts {} {}
        [.bar ⟨0, 95, [], .number 1, true, true⟩, .overlay true true,
          .bar ⟨hours 4, 96, [], .number 1, true, true⟩] ∧
    ((decisionsOf canonicalTexts {} {}
        [.bar ⟨0, 95, [], .number 1, true, true⟩, .overlay true true, .reload,
          .bar ⟨hours 4, 96, [], .number 1, true, true⟩]).1.map (·.riskRate)).length = 3 := by
  refine ⟨(risk_state_survives_storage canonicalTexts {}).2 _, ?_⟩
  decide +kernel

end AutoBit.Service.RiskPayload
