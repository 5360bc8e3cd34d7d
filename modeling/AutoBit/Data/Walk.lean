import AutoBit.Data.Collector
import AutoBit.Library.Loop
import Mathlib.Logic.Relation

/-!
# The backward walk behind a collection

Apart from its files a collection is a walk: each round turns the evidence and the answer
of the client into the next evidence. Every state of a walk satisfies the validator, and
the states before it are the snapshot prefixes of it.
-/

namespace AutoBit.Data

open AutoBit.Library

section Rounds

variable {ρ δ : Type} (py : Platform ρ δ) (c : Collection)

/-- The evidence that one more page makes durable. -/
def persisted (evidence : CollectionEvidence δ) (page : List (Row ρ))
    (requestToUtc : UtcText) (oldestTimestampUtc : Option UtcText) (nextToUtc : UtcText)
    (complete : Bool) : CollectionEvidence δ :=
  let advanced := advanceEvidence py evidence page requestToUtc oldestTimestampUtc
    nextToUtc complete
  let hash := py.sha256 (.state (statePayloadFromEvidence advanced))
  { advanced with
    collectionSnapshotPath := some (.snapshot hash)
    collectionSnapshotSha256 := some hash }

/-- What `persist_raw_page` returns when no file stands in its way. -/
def persistOutcome (evidence : CollectionEvidence δ) (page : List (Row ρ))
    (requestToUtc : UtcText) (oldestTimestampUtc : Option UtcText) (nextToUtc : UtcText)
    (complete : Bool) : Except Failure (CollectionEvidence δ) := do
  reject (evidence.complete = true)
    (.value "cannot add a raw page to completed collection evidence")
  forM page py.encode
  return persisted py evidence page requestToUtc oldestTimestampUtc nextToUtc complete

/-- The purpose of a round: the next evidence, or an exception. -/
def roundOutcome (evidence : CollectionEvidence δ) (answer : Except Failure (List (Row ρ))) :
    Except Failure (CollectionEvidence δ) :=
  match parseUtc evidence.nextToUtc, answer with
  | .error e, _ => .error e
  | .ok _, .error e => .error e
  | .ok _, .ok [] =>
    persistOutcome py evidence [] evidence.nextToUtc none evidence.nextToUtc true
  | .ok requestBoundary, .ok page => do
    let oldest ← oldestBefore requestBoundary page
    persistOutcome py evidence page evidence.nextToUtc (some (formatUtc oldest))
      (formatUtc oldest) (oldest < c.start)

/-- The loop of a collection without its files. -/
def walk (fetch : ℕ → UtcText → Except Failure (List (Row ρ))) :
    ℕ → ℕ → CollectionEvidence δ → Option (Except Failure (CollectionEvidence δ))
  | 0, _, _ => none
  | fuel + 1, round, evidence =>
    match roundOutcome py c evidence (fetch round evidence.nextToUtc) with
    | .error e => some (.error e)
    | .ok advanced =>
      if advanced.complete then some (.ok advanced)
      else walk fetch fuel (round + 1) advanced

/-- One round of a walk whose pages are answers. -/
def Advances (answers : UtcText → List (Row ρ) → Prop)
    (evidence evidence' : CollectionEvidence δ) : Prop :=
  ∃ page, answers evidence.nextToUtc page
    ∧ roundOutcome py c evidence (.ok page) = .ok evidence'

/-- A state of a walk from the beginning. -/
def Walked (answers : UtcText → List (Row ρ) → Prop) (evidence : CollectionEvidence δ) :
    Prop :=
  Relation.ReflTransGen (Advances py c answers) (newCollectionEvidence (c.identity py))
    evidence

/-- The page of an answer, as the evidence records it. -/
def pageEvidence (page : List (Row ρ)) (requestToUtc : UtcText)
    (oldestTimestampUtc : Option UtcText) : RawPageEvidence δ where
  path := .page (py.sha256 (.page page))
  sha256 := py.sha256 (.page page)
  requestToUtc := requestToUtc
  oldestTimestampUtc := oldestTimestampUtc
  rowCount := page.length

variable {py c} {evidence evidence' : CollectionEvidence δ} {page : List (Row ρ)}
  {answer : Except Failure (List (Row ρ))} {answers : UtcText → List (Row ρ) → Prop}

/-- A page is persisted exactly when the evidence is open and the page can be encoded. -/
theorem persistOutcome_eq_ok {requestToUtc nextToUtc : UtcText}
    {oldestTimestampUtc : Option UtcText} {complete : Bool} :
    persistOutcome py evidence page requestToUtc oldestTimestampUtc nextToUtc complete =
        .ok evidence' ↔
      evidence.complete = false ∧ forM page py.encode = .ok () ∧
        persisted py evidence page requestToUtc oldestTimestampUtc nextToUtc complete =
          evidence' := by
  simp only [persistOutcome, Except.bind_eq_ok, reject_eq_ok, Except.pure_eq_ok,
    Bool.not_eq_true]
  constructor
  · rintro ⟨-, hopen, ⟨⟩, hencode, rfl⟩
    exact ⟨hopen, hencode, rfl⟩
  · rintro ⟨hopen, hencode, rfl⟩
    exact ⟨(), hopen, (), hencode, rfl⟩

/-- The oldest instant of a page is accepted exactly when it is before the boundary. -/
theorem oldestBefore_eq_ok {requestBoundary oldest : ℤ} :
    oldestBefore requestBoundary page = .ok oldest ↔
      oldestInstant page = .ok oldest ∧ oldest < requestBoundary := by
  simp only [oldestBefore, Except.bind_eq_ok, reject_eq_ok, Except.pure_eq_ok]
  constructor
  · rintro ⟨found, hfound, -, hless, rfl⟩
    exact ⟨hfound, not_le.mp hless⟩
  · rintro ⟨hfound, hless⟩
    exact ⟨oldest, hfound, (), not_le.mpr hless, rfl⟩

/-- Everything that a round that returns can do. -/
theorem roundOutcome_cases (h : roundOutcome py c evidence answer = .ok evidence') :
    ∃ boundary page, evidence.nextToUtc = .stamp boundary ∧ answer = .ok page ∧
      evidence.complete = false ∧
      (page = [] ∧ evidence' =
          persisted py evidence [] (.stamp boundary) none (.stamp boundary) true ∨
        ∃ oldest, page ≠ [] ∧ oldestInstant page = .ok oldest ∧
          oldest < boundary * 1000000 ∧ evidence' =
            persisted py evidence page (.stamp boundary) (some (formatUtc oldest))
              (formatUtc oldest) (oldest < c.start)) := by
  unfold roundOutcome at h
  cases hnext : evidence.nextToUtc with
  | malformed text =>
    rw [hnext] at h
    cases h
  | stamp boundary =>
    rw [hnext] at h
    cases answer with
    | error e => cases h
    | ok page =>
      cases page with
      | nil =>
        obtain ⟨hopen, -, rfl⟩ := persistOutcome_eq_ok.mp h
        exact ⟨boundary, [], rfl, rfl, hopen, Or.inl ⟨rfl, rfl⟩⟩
      | cons row rows =>
        have h' := Except.bind_eq_ok.mp h
        obtain ⟨oldest, holdest, hpersist⟩ := h'
        obtain ⟨hfound, hless⟩ := oldestBefore_eq_ok.mp holdest
        obtain ⟨hopen, -, rfl⟩ := persistOutcome_eq_ok.mp hpersist
        exact ⟨boundary, row :: rows, rfl, rfl, hopen,
          Or.inr ⟨oldest, List.cons_ne_nil _ _, hfound, hless, rfl⟩⟩

/-- A persisted page is the last one of the evidence. -/
@[simp] theorem persisted_pages (requestToUtc nextToUtc : UtcText)
    (oldestTimestampUtc : Option UtcText) (complete : Bool) :
    (persisted py evidence page requestToUtc oldestTimestampUtc nextToUtc complete).pages =
      evidence.pages ++ [pageEvidence py page requestToUtc oldestTimestampUtc] := rfl

/-- Persisted evidence has the next boundary. -/
@[simp] theorem persisted_nextToUtc (requestToUtc nextToUtc : UtcText)
    (oldestTimestampUtc : Option UtcText) (complete : Bool) :
    (persisted py evidence page requestToUtc oldestTimestampUtc nextToUtc complete).nextToUtc =
      nextToUtc := rfl

/-- Persisted evidence says whether it is complete. -/
@[simp] theorem persisted_complete (requestToUtc nextToUtc : UtcText)
    (oldestTimestampUtc : Option UtcText) (complete : Bool) :
    (persisted py evidence page requestToUtc oldestTimestampUtc nextToUtc complete).complete =
      complete := rfl

/-- The name and hash of the snapshot of an evidence, none before the first page. -/
def snapshotOf (py : Platform ρ δ) (evidence : CollectionEvidence δ) :
    Option (FileName δ × δ) :=
  let hash := py.sha256 (.state (statePayloadFromEvidence evidence))
  if evidence.pages = [] then none else some (.snapshot hash, hash)

/-- An evidence is what its own state document describes. -/
def Restores (py : Platform ρ δ) (c : Collection) (evidence : CollectionEvidence δ) : Prop :=
  (statePayloadFromEvidence evidence).identity = c.identity py ∧
    evidenceOf (c.identity py) (statePayloadFromEvidence evidence) (snapshotOf py evidence) =
      evidence

/-- New evidence restores its collection. -/
theorem Restores.new : Restores py c (newCollectionEvidence (c.identity py)) := ⟨rfl, rfl⟩

/-- Evidence with one more page restores its collection. -/
theorem Restores.persisted (h : Restores py c evidence) (requestToUtc nextToUtc : UtcText)
    (oldestTimestampUtc : Option UtcText) (complete : Bool) :
    Restores py c
      (persisted py evidence page requestToUtc oldestTimestampUtc nextToUtc complete) := by
  obtain ⟨hidentity, hevidence⟩ := h
  have hnew : (statePayloadFromEvidence (Data.persisted py evidence page requestToUtc
      oldestTimestampUtc nextToUtc complete)).identity = c.identity py := hidentity
  refine ⟨hnew, ?_⟩
  have hpages : (Data.persisted py evidence page requestToUtc oldestTimestampUtc nextToUtc
      complete).pages ≠ [] := by simp
  simp only [snapshotOf, if_neg hpages]
  rw [← hnew]
  rfl

/-- Evidence that was walked to restores its collection. -/
theorem Walked.restores (h : Walked py c answers evidence) : Restores py c evidence := by
  induction h with
  | refl => exact Restores.new
  | tail _ hstep ih =>
    obtain ⟨page, -, hround⟩ := hstep
    obtain ⟨boundary, page', -, -, -, hnil | ⟨oldest, -, -, -, hcons⟩⟩ :=
      roundOutcome_cases hround
    · obtain ⟨-, rfl⟩ := hnil
      exact ih.persisted _ _ _ _
    · subst hcons
      exact ih.persisted _ _ _ _

/-- A page record tells the rows it was made from. -/
structure Records (py : Platform ρ δ) (record : RawPageEvidence δ) (rows : List (Row ρ)) :
    Prop where
  path : record.path = .page record.sha256
  hash : py.sha256 (.page rows) = record.sha256
  count : rows.length = record.rowCount
  oldest : oldestTimestamp rows = .ok record.oldestTimestampUtc

/-- A page whose every row has an instant states the oldest of them. -/
theorem oldestTimestamp_of_oldestInstant {rows : List (Row ρ)} {oldest : ℤ}
    (h : oldestInstant rows = .ok oldest) :
    oldestTimestamp rows = .ok (some (formatUtc oldest)) := by
  obtain ⟨instants, hinstants, hmin⟩ := Except.bind_eq_ok.mp h
  have hall : (rows.filterMap Row.candleDateTimeUtc).mapM CandleText.parsed = .ok instants := by
    clear h hmin
    induction rows generalizing instants with
    | nil => exact hinstants
    | cons row rows ih =>
      rw [List.mapM_cons, Except.bind_eq_ok] at hinstants
      obtain ⟨instant, hrow, hrows⟩ := hinstants
      obtain ⟨rest, hrest, heq⟩ := Except.bind_eq_ok.mp hrows
      obtain ⟨text, htext, hparsed⟩ := Except.bind_eq_ok.mp hrow
      rw [require_eq_ok] at htext
      rw [List.filterMap_cons_some htext, List.mapM_cons, Except.bind_eq_ok]
      exact ⟨instant, hparsed, Except.bind_eq_ok.mpr ⟨rest, ih rest hrest, heq⟩⟩
  rw [require_eq_ok] at hmin
  simp only [oldestTimestamp, Except.bind_eq_ok, Except.pure_eq_ok]
  exact ⟨instants, hall, by rw [hmin]; rfl⟩

/-- What a round adds: one page record that answers the boundary of the evidence. -/
theorem roundOutcome_pages (h : roundOutcome py c evidence (.ok page) = .ok evidence') :
    ∃ record, evidence'.pages = evidence.pages ++ [record] ∧
      record.requestToUtc = evidence.nextToUtc ∧ Records py record page := by
  obtain ⟨boundary, page', hnext, hpage, -, hcase⟩ := roundOutcome_cases h
  obtain rfl := Except.ok.inj hpage
  rcases hcase with ⟨rfl, rfl⟩ | ⟨oldest, -, holdest, -, rfl⟩
  · exact ⟨_, rfl, hnext.symm, ⟨rfl, rfl, rfl, rfl⟩⟩
  · exact ⟨_, rfl, hnext.symm, ⟨rfl, rfl, rfl, oldestTimestamp_of_oldestInstant holdest⟩⟩

end Rounds

section Boundaries

variable {ρ δ : Type} {start boundary final : ℤ} {pages : List (RawPageEvidence δ)}

/-- Pages that answer one boundary after the other, none empty and none past the start. -/
def Backward (start : ℤ) : ℤ → List (RawPageEvidence δ) → ℤ → Prop
  | boundary, [], final => boundary = final
  | boundary, page :: rest, final =>
    page.requestToUtc = .stamp boundary ∧ 0 < page.rowCount ∧
      ∃ oldest, page.oldestTimestampUtc = some (.stamp oldest) ∧ oldest < boundary ∧
        start ≤ oldest * 1000000 ∧ Backward start oldest rest final

/-- The last page of a completed walk: empty, or the first one past the start. -/
def Terminal (start boundary : ℤ) (page : RawPageEvidence δ) (final : ℤ) : Prop :=
  page.requestToUtc = .stamp boundary ∧
    (page.rowCount = 0 ∧ page.oldestTimestampUtc = none ∧ final = boundary ∨
      0 < page.rowCount ∧ page.oldestTimestampUtc = some (.stamp final) ∧ final < boundary ∧
        final * 1000000 < start)

/-- The pagination state of a walk that starts at a boundary. -/
inductive Bounded (start boundary : ℤ) (state : StatePayload δ) : Prop
  | running (final : ℤ) (backward : Backward start boundary state.pages final)
      (next : state.nextToUtc = .stamp final)
      (previous : state.previousOldestUtc = lastOldest state.pages)
      (open_ : state.complete = false)
  | ended (init : List (RawPageEvidence δ)) (page : RawPageEvidence δ) (last final : ℤ)
      (pages : state.pages = init ++ [page]) (backward : Backward start boundary init last)
      (terminal : Terminal start last page final)
      (next : state.nextToUtc = .stamp final)
      (previous : state.previousOldestUtc = page.oldestTimestampUtc)
      (complete : state.complete = true)

/-- Pages that go backward end at or before the boundary. -/
theorem Backward.le (h : Backward start boundary pages final) : final ≤ boundary := by
  induction pages generalizing boundary with
  | nil => exact le_of_eq h.symm
  | cons page rest ih =>
    obtain ⟨-, -, oldest, -, hless, -, hrest⟩ := h
    have := ih hrest
    omega

/-- Pages that go backward go on with an older page. -/
theorem Backward.snoc {page : RawPageEvidence δ} {oldest : ℤ}
    (h : Backward start boundary pages final) (hrequest : page.requestToUtc = .stamp final)
    (hcount : 0 < page.rowCount) (holdest : page.oldestTimestampUtc = some (.stamp oldest))
    (hless : oldest < final) (hstart : start ≤ oldest * 1000000) :
    Backward start boundary (pages ++ [page]) oldest := by
  induction pages generalizing boundary with
  | nil =>
    obtain rfl : boundary = final := h
    exact ⟨hrequest, hcount, oldest, holdest, hless, hstart, rfl⟩
  | cons first rest ih =>
    obtain ⟨hfirst, hfirstCount, o, ho, holess, hostart, hrest⟩ := h
    exact ⟨hfirst, hfirstCount, o, ho, holess, hostart, ih hrest⟩

/-- The last page of a walk states the boundary that the walk has reached. -/
theorem Backward.lastOldest_eq (h : Backward start boundary pages final) :
    pages = [] ∧ final = boundary ∨ lastOldest pages = some (.stamp final) := by
  induction pages generalizing boundary with
  | nil => exact Or.inl ⟨rfl, h.symm⟩
  | cons page rest ih =>
    right
    obtain ⟨-, -, oldest, holdest, -, -, hrest⟩ := h
    rcases ih hrest with ⟨rfl, rfl⟩ | hlast
    · simpa [lastOldest] using holdest
    · cases rest with
      | nil => simp [lastOldest] at hlast
      | cons next rest => simpa [lastOldest] using hlast

variable (label : String) (complete : Bool)

/-- The loop of the validator passes over the pages of a walk. -/
theorem validateBoundaries_backward (h : Backward start boundary pages final)
    (rest : List (RawPageEvidence δ)) :
    validateBoundaries label complete start (boundary * 1000000) (pages ++ rest) =
      validateBoundaries label complete start (final * 1000000) rest := by
  induction pages generalizing boundary with
  | nil =>
    obtain rfl : boundary = final := h
    rfl
  | cons page pages ih =>
    obtain ⟨hrequest, hcount, oldest, holdest, hless, hstart, hpages⟩ := h
    have hforward : ¬boundary ≤ oldest := by omega
    have hbefore : ¬oldest * 1000000 < start := by omega
    have hcount' : page.rowCount ≠ 0 := by omega
    rw [List.cons_append, validateBoundaries, ← ih hpages]
    simp [hrequest, holdest, hforward, hbefore, hcount', parseUtcBoundary, reject, require,
      Bind.bind, Except.bind]

/-- The loop of the validator accepts the terminal page of a completed walk. -/
theorem validateBoundaries_terminal {page : RawPageEvidence δ}
    (h : Terminal start boundary page final) :
    validateBoundaries label true start (boundary * 1000000) [page] =
      .ok (final * 1000000) := by
  obtain ⟨hrequest, ⟨hcount, hnone, rfl⟩ | ⟨hcount, holdest, hless, -⟩⟩ := h
  · simp [validateBoundaries, hrequest, hcount, hnone, parseUtcBoundary, reject, Bind.bind,
      Except.bind]
  · have hforward : ¬boundary ≤ final := by omega
    have hcount' : page.rowCount ≠ 0 := by omega
    simp [validateBoundaries, hrequest, hcount', holdest, hforward, parseUtcBoundary, reject,
      require, Bind.bind, Except.bind]

/-- A terminal page passes its check. -/
theorem validateTerminal_ok {page : RawPageEvidence δ} {last : ℤ}
    (h : Terminal start last page final) : validateTerminal label start page = .ok () := by
  obtain ⟨-, ⟨hcount, -, -⟩ | ⟨hcount, holdest, -, hpast⟩⟩ := h
  · simp [validateTerminal, hcount, Pure.pure, Except.pure]
  · have hpast' : ¬start ≤ final * 1000000 := by omega
    simp [validateTerminal, hcount, holdest, hpast', parseUtcBoundary, require, reject,
      Bind.bind, Except.bind]

/-- The validator accepts exactly such states as a walk can leave: running ones with every
page inside the range, and ended ones with a terminal page. -/
theorem Bounded.validatePaginationState {identity : Identity δ} {state : StatePayload δ}
    {startSecond : ℤ} (h : Bounded (startSecond * 1000000) boundary state)
    (hstart : identity.startUtc = .stamp startSecond)
    (hfinish : identity.endUtc = .stamp boundary) :
    validatePaginationState label identity state = .ok () := by
  cases h with
  | running final backward next previous open_ =>
    have hloop := validateBoundaries_backward label false backward []
    rw [List.append_nil, validateBoundaries] at hloop
    rcases backward.lastOldest_eq with ⟨hnil, rfl⟩ | hlast
    · have hnone : lastOldest state.pages = none := by rw [hnil]; rfl
      rw [hnone] at previous
      simp [Data.validatePaginationState, hstart, hfinish, parseUtcBoundary, hloop,
        next, open_, previous, hnone, reject, Bind.bind, Except.bind, Pure.pure, Except.pure]
    · rw [hlast] at previous
      simp [Data.validatePaginationState, hstart, hfinish, parseUtcBoundary, hloop,
        next, open_, previous, hlast, reject, Bind.bind, Except.bind, Pure.pure, Except.pure]
  | ended init page last final pages backward terminal next previous complete =>
    have hloop := validateBoundaries_backward label true backward [page]
    rw [validateBoundaries_terminal label terminal] at hloop
    have hlast : lastOldest state.pages = page.oldestTimestampUtc := by
      simp [pages, lastOldest]
    have hterminal := validateTerminal_ok label terminal
    have hoverall : page.oldestTimestampUtc = none ∨
        page.oldestTimestampUtc = some (.stamp final) := by
      rcases terminal.2 with ⟨-, hnone, -⟩ | ⟨-, hsome, -⟩
      · exact Or.inl hnone
      · exact Or.inr hsome
    rw [pages] at hlast
    rcases hoverall with holdest | holdest <;> rw [holdest] at hlast previous <;>
      simp [Data.validatePaginationState, hstart, hfinish, parseUtcBoundary, pages, hloop,
        next, complete, previous, hlast, hterminal, reject, Bind.bind, Except.bind]

end Boundaries

section States

variable {ρ δ : Type} {py : Platform ρ δ} {c : Collection}
  {evidence evidence' : CollectionEvidence δ} {page : List (Row ρ)}
  {answers : UtcText → List (Row ρ) → Prop}

/-- A round keeps the pagination state of the walk. -/
theorem Bounded.round {boundary : ℤ} (hwhole : c.start % 1000000 = 0)
    (h : Bounded c.start boundary (statePayloadFromEvidence evidence))
    (hround : roundOutcome py c evidence (.ok page) = .ok evidence') :
    Bounded c.start boundary (statePayloadFromEvidence evidence') := by
  obtain ⟨request, page', hnext, hpage, hopen, hcase⟩ := roundOutcome_cases hround
  obtain rfl := Except.ok.inj hpage
  cases h with
  | ended init last r final pages backward terminal next previous complete =>
    exact absurd (hopen.symm.trans complete) Bool.false_ne_true
  | running final backward next previous open_ =>
    obtain rfl : request = final := UtcText.stamp.inj (hnext.symm.trans next)
    rcases hcase with ⟨rfl, rfl⟩ | ⟨oldest, hpage, -, hless, rfl⟩
    · exact Bounded.ended evidence.pages (pageEvidence py [] (.stamp request) none) request
        request rfl backward ⟨rfl, Or.inl ⟨rfl, rfl, rfl⟩⟩ rfl rfl rfl
    · have hcount : 0 < page.length := List.length_pos_of_ne_nil hpage
      have hbackward : oldest / 1000000 < request := by omega
      let record := pageEvidence py page (.stamp request) (some (formatUtc oldest))
      by_cases hpast : oldest < c.start
      · have hterminal : Terminal c.start request record (oldest / 1000000) :=
          ⟨rfl, Or.inr ⟨hcount, rfl, hbackward, by omega⟩⟩
        exact Bounded.ended evidence.pages record request (oldest / 1000000) rfl backward
          hterminal rfl rfl (decide_eq_true hpast)
      · have hinside : c.start ≤ oldest / 1000000 * 1000000 := by omega
        have hsnoc : Backward c.start boundary (evidence.pages ++ [record])
            (oldest / 1000000) :=
          backward.snoc rfl hcount rfl hbackward hinside
        refine Bounded.running (oldest / 1000000) hsnoc rfl ?_ (decide_eq_false hpast)
        simp [statePayloadFromEvidence, persisted, advanceEvidence, lastOldest]

/-- Every state of a walk has the pagination state of one. -/
theorem Walked.bounded (hwhole : c.start % 1000000 = 0) (h : Walked py c answers evidence) :
    Bounded c.start (c.finish / 1000000) (statePayloadFromEvidence evidence) := by
  induction h with
  | refl => exact Bounded.running (c.finish / 1000000) rfl rfl rfl rfl
  | tail _ hstep ih =>
    obtain ⟨page, -, hround⟩ := hstep
    exact ih.round hwhole hround

/-- Every page record of a walk tells the rows of an answer. -/
theorem Walked.records (h : Walked py c answers evidence) :
    ∀ record ∈ evidence.pages, ∃ rows, Records py record rows := by
  induction h with
  | refl => exact fun record hrecord => absurd hrecord List.not_mem_nil
  | tail _ hstep ih =>
    obtain ⟨page, -, hround⟩ := hstep
    obtain ⟨record, hpages, -, hrecord⟩ := roundOutcome_pages hround
    intro other hother
    rw [hpages, List.mem_append, List.mem_singleton] at hother
    rcases hother with hold | rfl
    · exact ih other hold
    · exact ⟨page, hrecord⟩

/-- The rounds from one state of a walk to another. -/
def Later (py : Platform ρ δ) (c : Collection) (answers : UtcText → List (Row ρ) → Prop) :
    CollectionEvidence δ → CollectionEvidence δ → Prop :=
  Relation.ReflTransGen (Advances py c answers)

/-- The pages of a state are a prefix of the pages of every later one; the boundary of the
state is what the next page answers. -/
theorem Later.prefix (h : Later py c answers evidence evidence') :
    evidence = evidence' ∨ ∃ record rest, evidence'.pages = evidence.pages ++ record :: rest ∧
      record.requestToUtc = evidence.nextToUtc ∧ evidence.complete = false := by
  induction h using Relation.ReflTransGen.head_induction_on with
  | refl => exact Or.inl rfl
  | head hstep _ ih =>
    right
    obtain ⟨page, -, hround⟩ := hstep
    obtain ⟨record, hpages, hrequest, -⟩ := roundOutcome_pages hround
    obtain ⟨-, -, -, -, hopen, -⟩ := roundOutcome_cases hround
    rcases ih with rfl | ⟨next, rest, hrest, -, -⟩
    · exact ⟨record, [], hpages, hrequest, hopen⟩
    · refine ⟨record, next :: rest, ?_, hrequest, hopen⟩
      rw [hrest, hpages, List.append_assoc, List.singleton_append]

/-- An earlier state of a walk is a snapshot prefix of a later one. -/
theorem Later.isSnapshotPrefix [DecidableEq δ] (h : Later py c answers evidence evidence') :
    isSnapshotPrefix evidence evidence' = true := by
  rcases h.prefix with rfl | ⟨record, rest, hpages, hrequest, hopen⟩
  · simp [Data.isSnapshotPrefix]
  · simp [Data.isSnapshotPrefix, hpages, hrequest, hopen]

/-- No later state of a walk has as few pages. -/
theorem Later.eq_of_length (h : Later py c answers evidence evidence')
    (hlength : evidence'.pages.length ≤ evidence.pages.length) : evidence = evidence' := by
  rcases h.prefix with rfl | ⟨record, rest, hpages, -, -⟩
  · rfl
  · rw [hpages, List.length_append, List.length_cons] at hlength
    omega

/-- A walk without pages is at its beginning. -/
theorem Walked.eq_new_of_nil (h : Walked py c answers evidence) (hnil : evidence.pages = []) :
    evidence = newCollectionEvidence (c.identity py) :=
  (Later.eq_of_length h (by rw [hnil]; exact Nat.zero_le _)).symm

end States

end AutoBit.Data
