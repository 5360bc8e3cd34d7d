import AutoBit.Data.Storage
import Mathlib.Data.List.Sort

/-!
# Backward collection of public candles

A collection asks for pages of candles that end before a request boundary, makes each page
durable, and moves the boundary to the oldest candle of the page, until that is before the
start or a page is empty. Its frame is derived from the stored pages.
-/

namespace AutoBit.Data

open AutoBit.Library

/-- The arguments of `collect_evidence_range` with the client's source and configuration. -/
structure Collection where
  sourceUrl : String
  clientConfig : DataConfig
  config : Option DataConfig
  start : ℤ
  finish : ℤ

/-- `_parse_utc`. -/
def parseUtc : UtcText → Except Failure ℤ
  | .stamp seconds => .ok (seconds * 1000000)
  | .malformed _ => .error (.value "timestamps must be timezone-aware UTC values")

section Rows

variable {ρ : Type}

/-- `_timestamp_from` and `_parse_candle_utc`. -/
def rowInstant (row : Row ρ) : Except Failure ℤ := do
  let text ← require row.candleDateTimeUtc
    (.value "public candle is missing candle_date_time_utc")
  text.parsed

/-- The oldest instant of a page. -/
def oldestInstant (page : List (Row ρ)) : Except Failure ℤ := do
  let instants ← page.mapM rowInstant
  require instants.min? (.value "min() iterable argument is empty")

end Rows

section Frame

variable {ρ : Type} [DecidableEq ρ]

/-- Where a record of the frame was collected. -/
structure Provenance where
  page : ℕ
  row : ℕ
  deriving DecidableEq, Repr

/-- The text `page:{page_index}:row:{row_index}`. -/
def Provenance.text (provenance : Provenance) : String :=
  "page:" ++ toString provenance.page ++ ":row:" ++ toString provenance.row

/-- The year, month and day of a day number since the Unix epoch. -/
def civilDate (days : ℤ) : ℤ × ℤ × ℤ :=
  let shifted := days + 719468
  let era := shifted / 146097
  let day := shifted % 146097
  let year := (day - day / 1460 + day / 36524 - day / 146096) / 365
  let dayOfYear := day - (365 * year + year / 4 - year / 100)
  let month := (5 * dayOfYear + 2) / 153
  let dayOfMonth := dayOfYear - (153 * month + 2) / 5 + 1
  let civilMonth := if month < 10 then month + 3 else month - 9
  (year + era * 400 + (if civilMonth ≤ 2 then 1 else 0), civilMonth, dayOfMonth)

/-- A number with leading zeros. -/
def padded (width : ℕ) (n : ℤ) : String :=
  let digits := toString n
  "".pushn '0' (width - digits.length) ++ digits

/-- The text of a timestamp. -/
def UtcText.text : UtcText → String
  | .malformed text => text
  | .stamp seconds =>
    let (year, month, day) := civilDate (seconds / 86400)
    let second := seconds % 86400
    padded 4 year ++ "-" ++ padded 2 month ++ "-" ++ padded 2 day ++ "T"
      ++ padded 2 (second / 3600) ++ ":" ++ padded 2 (second / 60 % 60) ++ ":"
      ++ padded 2 (second % 60) ++ "Z"

/-- The normalized view of a collection with the attributes of its frame. -/
structure CandleFrame (ρ : Type) where
  rows : List (Row ρ)
  duplicates : ℕ
  conflictingDuplicates : ℕ
  duplicatePolicy : String
  duplicateProvenance : List (UtcText × Provenance × Provenance)
  deriving DecidableEq

/-- The accumulators of `_frame_from_pages`. -/
structure FrameRecords (ρ : Type) where
  records : Files ℤ (Row ρ × Provenance)
  duplicateProvenance : List (UtcText × Provenance × Provenance)

/-- One row of the loop of `_frame_from_pages`. -/
def recordRow (start finish : ℤ) (acc : FrameRecords ρ) (located : Row ρ × Provenance) :
    Except Failure (FrameRecords ρ) := do
  let (row, provenance) := located
  let timestamp ← rowInstant row
  if start ≤ timestamp ∧ timestamp ≤ finish then
    let records := acc.records.insert timestamp (row, provenance)
    match acc.records.lookup timestamp with
    | none => return { acc with records := records }
    | some (existingRow, existingProvenance) =>
      reject (existingRow ≠ row)
        (.value ("conflicting duplicate OHLCV timestamp " ++ (formatUtc timestamp).text
          ++ " between " ++ existingProvenance.text ++ " and " ++ provenance.text))
      return { records := records
               duplicateProvenance := acc.duplicateProvenance ++
                 [(formatUtc timestamp, existingProvenance, provenance)] }
  else
    return acc

/-- The rows of all pages in order, with their places. -/
def locatedRows (pages : List (List (Row ρ))) : List (Row ρ × Provenance) :=
  pages.zipIdx.flatMap fun (page, pageIndex) =>
    page.zipIdx.map fun (row, rowIndex) => (row, ⟨pageIndex, rowIndex⟩)

/-- `_frame_from_pages`. -/
def frameFromPages (pages : List (List (Row ρ))) (start finish : ℤ) :
    Except Failure (CandleFrame ρ) := do
  let acc ← (locatedRows pages).foldlM (recordRow start finish) ⟨∅, []⟩
  let timestamps := acc.records.keys.insertionSort (· ≤ ·)
  return { rows := timestamps.filterMap fun t => (acc.records.lookup t).map Prod.fst
           duplicates := acc.duplicateProvenance.length
           conflictingDuplicates := 0
           duplicatePolicy := "latest_collected"
           duplicateProvenance := acc.duplicateProvenance }

end Frame

section Collecting

variable {ρ δ : Type} [DecidableEq ρ] [DecidableEq δ] (py : Platform ρ δ) (c : Collection)

/-- The identity that the collection hands to `load_collection_evidence`. -/
def Collection.identity : Identity δ :=
  collectionIdentity py c.sourceUrl (formatUtc c.start) (formatUtc c.finish) c.clientConfig

/-- The start of `collect_evidence_range`: the checks of its arguments and the load. -/
def openCollection (files : Root ρ δ) : Except Failure (CollectionEvidence δ) := do
  reject (c.config ≠ none ∧ c.config ≠ some c.clientConfig)
    (.value "explicit configuration does not match client configuration")
  reject (c.finish < c.start) (.value "start_utc must not be after end_utc")
  loadCollectionEvidence py files (c.identity py)

/-- What a fetched page moves the boundary to, after the check that it moves backward. -/
def oldestBefore (requestBoundary : ℤ) (page : List (Row ρ)) : Except Failure ℤ := do
  let oldest ← oldestInstant page
  reject (requestBoundary ≤ oldest) (.value "public candle page did not move backward")
  return oldest

/-- One round of the loop of `collect_evidence_range`, on the answer of the client: the
writes it performs, and the evidence it leaves or the exception it raises. -/
def collectRound (uuids : FileName δ → ℕ) (files : Root ρ δ)
    (evidence : CollectionEvidence δ) (answer : Except Failure (List (Row ρ))) :
    List (AtomicWrite (FileName δ) (Node ρ δ)) × Except Failure (CollectionEvidence δ) :=
  let requestToUtc := evidence.nextToUtc
  match parseUtc requestToUtc, answer with
  | .error e, _ => ([], .error e)
  | .ok _, .error e => ([], .error e)
  | .ok _, .ok [] =>
    persistRawPage py uuids files evidence [] requestToUtc none requestToUtc true
  | .ok requestBoundary, .ok page =>
    match oldestBefore requestBoundary page with
    | .error e => ([], .error e)
    | .ok oldest =>
      persistRawPage py uuids files evidence page requestToUtc (some (formatUtc oldest))
        (formatUtc oldest) (oldest < c.start)

/-- The loop of `collect_evidence_range` for at most `fuel` rounds; nothing when these do
not suffice. The client's answer may depend on the round. -/
def collectLoop (fetch : ℕ → UtcText → Except Failure (List (Row ρ)))
    (uuids : ℕ → FileName δ → ℕ) : ℕ → ℕ → Root ρ δ → CollectionEvidence δ →
      Root ρ δ × Option (Except Failure (CollectionEvidence δ))
  | 0, _, files, _ => (files, none)
  | fuel + 1, round, files, evidence =>
    let (writes, result) :=
      collectRound py c (uuids round) files evidence (fetch round evidence.nextToUtc)
    let files' := commit .blank writes files
    match result with
    | .error e => (files', some (.error e))
    | .ok advanced =>
      if advanced.complete then (files', some (.ok advanced))
      else collectLoop fetch uuids fuel (round + 1) files' advanced

/-- The `CollectionResult`: the frame of the stored pages, and the evidence. -/
def collectionResult (files : Root ρ δ) (evidence : CollectionEvidence δ) :
    Except Failure (CandleFrame ρ × CollectionEvidence δ) := do
  let pages ← loadRawPages py files evidence
  let frame ← frameFromPages pages c.start c.finish
  return (frame, evidence)

/-- `collect_evidence_range`. -/
def collectEvidenceRange (fetch : ℕ → UtcText → Except Failure (List (Row ρ)))
    (uuids : ℕ → FileName δ → ℕ) (fuel : ℕ) (files : Root ρ δ) :
    Root ρ δ × Option (Except Failure (CandleFrame ρ × CollectionEvidence δ)) :=
  match openCollection py c files with
  | .error e => (files, some (.error e))
  | .ok evidence =>
    let (files', outcome) :=
      if evidence.complete then (files, some (.ok evidence))
      else collectLoop py c fetch uuids fuel 0 files evidence
    (files', outcome.map fun result => result.bind (collectionResult py c files'))

end Collecting

section Attempts

variable {ρ δ : Type} [DecidableEq ρ] [DecidableEq δ] (py : Platform ρ δ) (c : Collection)

/-- An evidence root and the call that is collecting into it, if one is. -/
structure Attempt (ρ δ : Type) where
  files : Root ρ δ
  process : Option (CollectionEvidence δ)

/-- A root that nothing was collected into. -/
def Attempt.fresh : Attempt ρ δ := ⟨∅, none⟩

/-- What may happen to a root: its entries are listed in another order, a call begins, a
call finishes a round, a crash cuts a round, or a call ends between two rounds. -/
inductive Action (ρ δ : Type) where
  | relist (listing : Root ρ δ)
  | begin
  | round (uuids : FileName δ → ℕ) (answer : Except Failure (List (Row ρ)))
  | crash (uuids : FileName δ → ℕ) (page : List (Row ρ)) (crash : Crash (Node ρ δ))
  | stop

/-- One action of an attempt. `check` is what the caller checks before it collects. -/
def Attempt.step (check : Root ρ δ → Except Failure Unit) (attempt : Attempt ρ δ) :
    Action ρ δ → Option (Attempt ρ δ)
  | .relist listing =>
    if listing.entries.Perm attempt.files.entries then
      some { attempt with files := listing }
    else none
  | .begin =>
    match attempt.process with
    | some _ => none
    | none =>
      some { attempt with
             process := (do check attempt.files; openCollection py c attempt.files).toOption }
  | .round uuids answer =>
    match attempt.process with
    | none => none
    | some evidence =>
      if evidence.complete then none
      else
        let (writes, result) := collectRound py c uuids attempt.files evidence answer
        some ⟨commit .blank writes attempt.files, result.toOption⟩
  | .crash uuids page crash =>
    match attempt.process with
    | none => none
    | some evidence =>
      if evidence.complete then none
      else
        let (writes, _) := collectRound py c uuids attempt.files evidence (.ok page)
        some ⟨crash.cut .blank writes attempt.files, none⟩
  | .stop => some { attempt with process := none }

variable {py c} in
/-- A crash of a round leaves what it cuts of the round's writes, and no call. -/
theorem Attempt.step_crash {check : Root ρ δ → Except Failure Unit} {attempt : Attempt ρ δ}
    {evidence : CollectionEvidence δ} (uuids : FileName δ → ℕ) (page : List (Row ρ))
    (crash : Crash (Node ρ δ)) (hprocess : attempt.process = some evidence)
    (hopen : evidence.complete = false) :
    attempt.step py c check (.crash uuids page crash) =
      some ⟨crash.cut .blank (collectRound py c uuids attempt.files evidence (.ok page)).1
        attempt.files, none⟩ := by
  simp [Attempt.step, hprocess, hopen]

/-- The pages an action brings answer the boundary that the call asked for. -/
def Action.Answered (answers : UtcText → List (Row ρ) → Prop) (attempt : Attempt ρ δ) :
    Action ρ δ → Prop
  | .round _ answer => ∀ evidence page, attempt.process = some evidence →
      answer = .ok page → answers evidence.nextToUtc page
  | .crash _ page _ => ∀ evidence, attempt.process = some evidence →
      answers evidence.nextToUtc page
  | _ => True

/-- What attempts leave of a fresh root when they are crashed and repeated at will. -/
inductive Attempted (check : Root ρ δ → Except Failure Unit)
    (answers : UtcText → List (Row ρ) → Prop) : Attempt ρ δ → Prop
  | fresh : Attempted check answers Attempt.fresh
  | step {attempt attempt' : Attempt ρ δ} (action : Action ρ δ)
      (before : Attempted check answers attempt)
      (answered : action.Answered answers attempt)
      (taken : attempt.step py c check action = some attempt') :
      Attempted check answers attempt'

end Attempts

end AutoBit.Data
