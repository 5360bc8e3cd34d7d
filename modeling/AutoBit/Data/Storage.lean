import AutoBit.Basic
import AutoBit.Library.Except
import AutoBit.Library.Files
import Mathlib.Data.List.MinMax

/-!
# Durable evidence of a candle collection

An evidence root is a directory of raw pages and collection snapshots, both named by the
SHA-256 of their bytes, and of one checkpoint that names the latest snapshot. A document is
modelled by the value whose canonical JSON it is. The digest of a document and whether a
row has a canonical form at all are left to the platform.
-/

namespace AutoBit.Data

open AutoBit.Library

/-- A timestamp text of the form `%Y-%m-%dT%H:%M:%SZ`, by the second it names, or a text
that is not a timestamp. -/
inductive UtcText where
  | stamp (seconds : ℤ)
  | malformed (text : String)
  deriving DecidableEq, Repr

/-- The text of a `candle_date_time_utc` and what `parse_candle_utc` makes of it. -/
structure CandleText where
  text : String
  parsed : Except Failure ℤ
  deriving DecidableEq

/-- One row of a public response: its timestamp, absent when it is not a text, and the
other columns. -/
structure Row (ρ : Type) where
  candleDateTimeUtc : Option CandleText
  columns : ρ
  deriving DecidableEq

/-- `DataConfig`. -/
structure DataConfig where
  market : String
  candleUnitMinutes : ℕ
  pageSize : ℕ
  years : ℕ
  deriving DecidableEq, Repr

/-- The names in an evidence root: the checkpoint, collection snapshots and pages under a
digest, the scratch file of a write, and any other name. -/
inductive FileName (δ : Type) where
  | checkpoint
  | snapshot (hash : δ)
  | page (hash : δ)
  | temporary (destination : FileName δ) (uuid : ℕ)
  | other (name : String)
  deriving DecidableEq, Repr

/-- The names of `_atomic_write`'s scratch files. -/
def FileName.IsTemporary {δ : Type} : FileName δ → Prop
  | .temporary _ _ => True
  | _ => False

instance {δ : Type} : DecidablePred (FileName.IsTemporary (δ := δ))
  | .temporary _ _ => isTrue trivial
  | .checkpoint | .snapshot _ | .page _ | .other _ => isFalse id

/-- `RawPageEvidence`: one immutable page and the request that produced it. -/
structure RawPageEvidence (δ : Type) where
  path : FileName δ
  sha256 : δ
  requestToUtc : UtcText
  oldestTimestampUtc : Option UtcText
  rowCount : ℕ
  deriving DecidableEq, Repr

/-- `_collection_identity`: what a collection is of. -/
structure Identity (δ : Type) where
  sourceUrl : String
  market : String
  candleUnitMinutes : ℕ
  pageSize : ℕ
  startUtc : UtcText
  endUtc : UtcText
  config : DataConfig
  configSha256 : δ
  deriving DecidableEq, Repr

/-- The document of a collection snapshot. -/
structure StatePayload (δ : Type) where
  identity : Identity δ
  pages : List (RawPageEvidence δ)
  nextToUtc : UtcText
  previousOldestUtc : Option UtcText
  complete : Bool
  deriving DecidableEq, Repr

/-- The document of the checkpoint: a snapshot's state and the snapshot's name and hash. -/
structure Checkpoint (δ : Type) where
  state : StatePayload δ
  collectionSnapshot : FileName δ
  collectionSnapshotSha256 : δ
  deriving DecidableEq, Repr

/-- What the bytes of a file say: one of the documents, or bytes that are none. -/
inductive Contents (ρ δ : Type) where
  | page (rows : List (Row ρ))
  | state (payload : StatePayload δ)
  | checkpoint (checkpoint : Checkpoint δ)
  | config (config : DataConfig)
  | fragment (bytes : String)
  deriving DecidableEq

/-- A directory entry: a regular file, or a link or directory. -/
inductive Node (ρ δ : Type) where
  | file (contents : Contents ρ δ)
  | irregular
  deriving DecidableEq

/-- A file that was just created. -/
def Node.blank {ρ δ : Type} : Node ρ δ := .file (.fragment "")

/-- An evidence root. -/
abbrev Root (ρ δ : Type) := Files (FileName δ) (Node ρ δ)

/-- `CollectionEvidence`: the validated durable state of a backward collection. -/
structure CollectionEvidence (δ : Type) where
  sourceUrl : String
  market : String
  candleUnitMinutes : ℕ
  pageSize : ℕ
  years : ℕ
  startUtc : UtcText
  endUtc : UtcText
  configSha256 : δ
  pages : List (RawPageEvidence δ)
  nextToUtc : UtcText
  previousOldestUtc : Option UtcText
  complete : Bool
  collectionSnapshotPath : Option (FileName δ)
  collectionSnapshotSha256 : Option δ
  deriving DecidableEq, Repr

/-- What the platform does with documents: `hashlib.sha256` of their bytes, and the
exception that `json.dumps` or the encoding raises on a row without a canonical form. -/
structure Platform (ρ δ : Type) where
  sha256 : Contents ρ δ → δ
  encode : Row ρ → Except Failure Unit

/-- `_format_utc`: the text of an instant, cut to whole seconds. -/
def formatUtc (instant : ℤ) : UtcText := .stamp (instant / 1000000)

/-- `_parse_utc_boundary`. -/
def parseUtcBoundary (label : String) : UtcText → Except Failure ℤ
  | .stamp seconds => .ok (seconds * 1000000)
  | .malformed _ => .error (.value (label ++ " has an invalid UTC pagination timestamp"))

/-- `_oldest_timestamp`: the least timestamp of the rows that have one. -/
def oldestTimestamp {ρ : Type} (rows : List (Row ρ)) : Except Failure (Option UtcText) := do
  let instants ← (rows.filterMap Row.candleDateTimeUtc).mapM CandleText.parsed
  return instants.min?.map formatUtc

section Reading

variable {ρ δ : Type} [DecidableEq δ]

/-- The value of a regular file. -/
def contents? (files : Root ρ δ) (path : FileName δ) : Option (Contents ρ δ) :=
  match files.lookup path with
  | some (.file contents) => some contents
  | _ => none

variable (py : Platform ρ δ)

/-- `_read_hashed_json`: the document of a file whose bytes have the expected hash. -/
def readHashedJson (files : Root ρ δ) (path : FileName δ) (expectedHash : δ)
    (label : String) : Except Failure (Contents ρ δ) := do
  let contents ← require (contents? files path) (.value (label ++ " is missing"))
  reject (py.sha256 contents ≠ expectedHash)
    (.value (label ++ " hash does not match its checkpoint"))
  match contents with
  | .fragment _ => .error (.value (label ++ " is malformed"))
  | _ => return contents

/-- One page of `load_raw_pages`: its rows, after its hash and metadata are checked. -/
def loadRawPage (files : Root ρ δ) (page : RawPageEvidence δ) :
    Except Failure (List (Row ρ)) := do
  match ← readHashedJson py files page.path page.sha256 "raw page evidence" with
  | .page rows =>
    reject (rows.length ≠ page.rowCount)
      (.value "raw page evidence does not match its checkpoint metadata")
    let oldest ← oldestTimestamp rows
    reject (oldest ≠ page.oldestTimestampUtc)
      (.value "raw page evidence does not match its checkpoint metadata")
    return rows
  | _ => .error (.value "raw page evidence is not a list of objects")

/-- `load_raw_pages`: the exact stored pages. -/
def loadRawPages (files : Root ρ δ) (evidence : CollectionEvidence δ) :
    Except Failure (List (List (Row ρ))) :=
  evidence.pages.mapM (loadRawPage py files)

/-- `_collection_identity`. -/
def collectionIdentity (sourceUrl : String) (startUtc endUtc : UtcText)
    (config : DataConfig) : Identity δ where
  sourceUrl := sourceUrl
  market := config.market
  candleUnitMinutes := config.candleUnitMinutes
  pageSize := config.pageSize
  startUtc := startUtc
  endUtc := endUtc
  config := config
  configSha256 := py.sha256 (.config config)

end Reading

section Validation

variable {δ : Type} [DecidableEq δ]

/-- The loop of `_validate_pagination_state`: each page answers the boundary that the page
before it left. The result is the boundary after the last page. -/
def validateBoundaries (label : String) (complete : Bool) (startBoundary : ℤ) :
    ℤ → List (RawPageEvidence δ) → Except Failure ℤ
  | expectedRequestTo, [] => .ok expectedRequestTo
  | expectedRequestTo, page :: rest => do
    let requestTo ← parseUtcBoundary label page.requestToUtc
    reject (requestTo ≠ expectedRequestTo)
      (.value (label ++ " has invalid pagination boundaries"))
    if page.rowCount = 0 then
      reject (page.oldestTimestampUtc ≠ none ∨ rest ≠ [] ∨ complete = false)
        (.value (label ++ " has invalid pagination boundaries"))
      validateBoundaries label complete startBoundary requestTo rest
    else
      let oldestText ← require page.oldestTimestampUtc
        (.value (label ++ " has invalid pagination boundaries"))
      let oldest ← parseUtcBoundary label oldestText
      reject (requestTo ≤ oldest) (.value (label ++ " has invalid pagination boundaries"))
      reject (rest ≠ [] ∧ oldest < startBoundary)
        (.value (label ++ " crossed requested start before its terminal response"))
      reject (complete = false ∧ oldest < startBoundary)
        (.value (label ++ " incomplete evidence already crossed requested start"))
      validateBoundaries label complete startBoundary oldest rest

/-- The oldest timestamp that the last page states. -/
def lastOldest (pages : List (RawPageEvidence δ)) : Option UtcText :=
  pages.getLast?.bind RawPageEvidence.oldestTimestampUtc

/-- The end of `_validate_pagination_state`: completion needs a page past the start. -/
def validateTerminal (label : String) (startBoundary : ℤ) (page : RawPageEvidence δ) :
    Except Failure Unit := do
  if 0 < page.rowCount then
    let claims := Failure.value (label ++ " claims completion before the requested start")
    let oldestText ← require page.oldestTimestampUtc claims
    let oldest ← parseUtcBoundary label oldestText
    reject (startBoundary ≤ oldest) claims

/-- `_validate_pagination_state`: the pages and boundaries describe one backward walk. -/
def validatePaginationState (label : String) (identity : Identity δ)
    (state : StatePayload δ) : Except Failure Unit := do
  reject (state.complete = true ∧ state.pages = [])
    (.value (label ++ " has no terminal response"))
  let startBoundary ← parseUtcBoundary label identity.startUtc
  let endBoundary ← parseUtcBoundary label identity.endUtc
  let expectedRequestTo ←
    validateBoundaries label state.complete startBoundary endBoundary state.pages
  let next ← parseUtcBoundary label state.nextToUtc
  reject (next ≠ expectedRequestTo) (.value (label ++ " has invalid pagination boundaries"))
  reject (state.previousOldestUtc ≠ lastOldest state.pages)
    (.value (label ++ " has invalid pagination boundaries"))
  if let some previousText := state.previousOldestUtc then
    let previous ← parseUtcBoundary label previousText
    reject (previous ≠ expectedRequestTo)
      (.value (label ++ " has invalid pagination boundaries"))
  if state.complete then
    if let some page := state.pages.getLast? then
      validateTerminal label startBoundary page

/-- `_parse_page_evidence`: every page is named by its hash. -/
def parsePageEvidence (pages : List (RawPageEvidence δ)) : Except Failure Unit :=
  forM pages fun page =>
    reject (page.path ≠ .page page.sha256)
      (.value "collection evidence checkpoint page metadata is invalid")

/-- `_is_snapshot_prefix`: the candidate is a state the walk to the tip went through. -/
def isSnapshotPrefix (candidate tip : CollectionEvidence δ) : Bool :=
  if tip.pages.length < candidate.pages.length then false
  else if candidate.pages ≠ tip.pages.take candidate.pages.length then false
  else if candidate.pages.length = tip.pages.length then
    candidate.nextToUtc = tip.nextToUtc
      ∧ candidate.previousOldestUtc = tip.previousOldestUtc
      ∧ candidate.complete = tip.complete
  else if candidate.complete then false
  else
    some candidate.nextToUtc =
      tip.pages[candidate.pages.length]?.map RawPageEvidence.requestToUtc

end Validation

section Loading

variable {ρ δ : Type} [DecidableEq δ] (py : Platform ρ δ)

/-- The evidence that a state document describes, with the snapshot it was read from. -/
def evidenceOf (identity : Identity δ) (state : StatePayload δ)
    (snapshot : Option (FileName δ × δ)) : CollectionEvidence δ where
  sourceUrl := identity.sourceUrl
  market := identity.market
  candleUnitMinutes := identity.candleUnitMinutes
  pageSize := identity.pageSize
  years := identity.config.years
  startUtc := identity.startUtc
  endUtc := identity.endUtc
  configSha256 := identity.configSha256
  pages := state.pages
  nextToUtc := state.nextToUtc
  previousOldestUtc := state.previousOldestUtc
  complete := state.complete
  collectionSnapshotPath := snapshot.map Prod.fst
  collectionSnapshotSha256 := snapshot.map Prod.snd

/-- `_collection_state_payload_from_evidence`. -/
def statePayloadFromEvidence (evidence : CollectionEvidence δ) : StatePayload δ where
  identity :=
    { sourceUrl := evidence.sourceUrl
      market := evidence.market
      candleUnitMinutes := evidence.candleUnitMinutes
      pageSize := evidence.pageSize
      startUtc := evidence.startUtc
      endUtc := evidence.endUtc
      config :=
        { market := evidence.market
          candleUnitMinutes := evidence.candleUnitMinutes
          pageSize := evidence.pageSize
          years := evidence.years }
      configSha256 := evidence.configSha256 }
  pages := evidence.pages
  nextToUtc := evidence.nextToUtc
  previousOldestUtc := evidence.previousOldestUtc
  complete := evidence.complete

/-- `_evidence_from_state_payload`. -/
def evidenceFromStatePayload (files : Root ρ δ) (state : StatePayload δ)
    (identity : Identity δ) (snapshotPath : FileName δ) (snapshotHash : δ)
    (label : String) : Except Failure (CollectionEvidence δ) := do
  reject (state.identity ≠ identity)
    (.value (label ++ " does not match requested collection"))
  parsePageEvidence state.pages
  validatePaginationState label identity state
  let evidence := evidenceOf identity state (some (snapshotPath, snapshotHash))
  let _ ← loadRawPages py files evidence
  return evidence

/-- `_new_collection_evidence`. -/
def newCollectionEvidence (identity : Identity δ) : CollectionEvidence δ :=
  evidenceOf identity
    { identity := identity, pages := [], nextToUtc := identity.endUtc,
      previousOldestUtc := none, complete := false } none

/-- `_snapshot_hash_from_name`. -/
def snapshotHashFromName : FileName δ → Option δ
  | .snapshot hash => some hash
  | _ => none

/-- The evidence of one orphan snapshot, read back. -/
def orphanEvidence (files : Root ρ δ) (identity : Identity δ) (hash : δ)
    (label : String) : Except Failure (CollectionEvidence δ) := do
  match ← readHashedJson py files (.snapshot hash) hash label with
  | .state payload =>
    evidenceFromStatePayload py files payload identity (.snapshot hash) hash label
  | _ => .error (.value (label ++ " is malformed"))

/-- The orphan snapshots of a root that can be read back. The others are skipped: every
exception on the way is a `ValueError`. -/
def recoveryCandidates (files : Root ρ δ) (identity : Identity δ) :
    List (CollectionEvidence δ) :=
  (files.keys.filterMap snapshotHashFromName).filterMap fun hash =>
    (orphanEvidence py files identity hash "orphan collection snapshot evidence").toOption

/-- `_recover_uncheckpointed_evidence`: the tip of one non-conflicting snapshot chain. -/
def recoverUncheckpointedEvidence (files : Root ρ δ) (identity : Identity δ) :
    Except Failure (CollectionEvidence δ) :=
  let candidates := recoveryCandidates py files identity
  match candidates.argmax fun evidence => evidence.pages.length with
  | none => .ok (newCollectionEvidence identity)
  | some tip => do
    reject (¬candidates.all (isSnapshotPrefix · tip))
      (.value "collection evidence has ambiguous snapshot chains")
    return tip

/-- `load_collection_evidence` after the root and the identity are prepared. -/
def loadCollectionEvidence (files : Root ρ δ) (identity : Identity δ) :
    Except Failure (CollectionEvidence δ) :=
  match files.lookup .checkpoint with
  | none => recoverUncheckpointedEvidence py files identity
  | some (.file (.checkpoint checkpoint)) => do
    reject (checkpoint.state.identity ≠ identity)
      (.value "collection evidence checkpoint does not match requested collection")
    let hash := checkpoint.collectionSnapshotSha256
    reject (checkpoint.collectionSnapshot ≠ .snapshot hash)
      (.value "collection evidence checkpoint snapshot name does not match its hash")
    match ← readHashedJson py files (.snapshot hash) hash "collection snapshot evidence" with
    | .state snapshot =>
      reject (snapshot ≠ checkpoint.state)
        (.value "collection snapshot evidence does not match its checkpoint")
      evidenceFromStatePayload py files snapshot identity (.snapshot hash) hash
        "collection evidence checkpoint"
    | _ => .error (.value "collection snapshot evidence is malformed")
  | some (.file (.fragment _)) | some .irregular =>
    .error (.value "collection evidence checkpoint is missing or malformed")
  | some (.file _) => .error (.value "collection evidence checkpoint is malformed")

end Loading

section Writing

variable {ρ δ : Type} [DecidableEq ρ] [DecidableEq δ] (py : Platform ρ δ)

/-- The atomic write of a document, through a scratch file under a fresh `uuid4`. -/
def atomicWrite (uuids : FileName δ → ℕ) (destination : FileName δ)
    (contents : Contents ρ δ) : AtomicWrite (FileName δ) (Node ρ δ) where
  temporary := .temporary destination (uuids destination)
  destination := destination
  contents := .file contents

/-- `_write_content_addressed`: the writes it performs, none when the file is there. -/
def writeContentAddressed (uuids : FileName δ → ℕ) (files : Root ρ δ)
    (destination : FileName δ) (contents : Contents ρ δ) :
    Except Failure (List (AtomicWrite (FileName δ) (Node ρ δ))) :=
  match files.lookup destination with
  | none => .ok [atomicWrite uuids destination contents]
  | some (.file existing) => do
    reject (existing ≠ contents)
      (.value "content-addressed evidence path already contains different bytes")
    return []
  | some .irregular => .error (.value "content-addressed evidence cannot be read")

/-- The evidence with one more page, before its snapshot is written. -/
def advanceEvidence (evidence : CollectionEvidence δ) (page : List (Row ρ))
    (requestToUtc : UtcText) (oldestTimestampUtc : Option UtcText) (nextToUtc : UtcText)
    (complete : Bool) : CollectionEvidence δ :=
  let pageHash := py.sha256 (.page page)
  { evidence with
    pages := evidence.pages ++
      [{ path := .page pageHash, sha256 := pageHash, requestToUtc := requestToUtc,
         oldestTimestampUtc := oldestTimestampUtc, rowCount := page.length }]
    nextToUtc := nextToUtc
    previousOldestUtc := oldestTimestampUtc
    complete := complete }

/-- `persist_raw_page`: the atomic writes it performs in order, and the evidence it
returns or the exception it raises after them. -/
def persistRawPage (uuids : FileName δ → ℕ) (files : Root ρ δ)
    (evidence : CollectionEvidence δ) (page : List (Row ρ)) (requestToUtc : UtcText)
    (oldestTimestampUtc : Option UtcText) (nextToUtc : UtcText) (complete : Bool) :
    List (AtomicWrite (FileName δ) (Node ρ δ)) × Except Failure (CollectionEvidence δ) :=
  if evidence.complete then
    ([], .error (.value "cannot add a raw page to completed collection evidence"))
  else
    match forM page py.encode with
    | .error e => ([], .error e)
    | .ok () =>
      match writeContentAddressed uuids files (.page (py.sha256 (.page page))) (.page page) with
      | .error e => ([], .error e)
      | .ok pageWrites =>
        let advanced := advanceEvidence py evidence page requestToUtc oldestTimestampUtc
          nextToUtc complete
        let state := statePayloadFromEvidence advanced
        let hash := py.sha256 (.state state)
        let files' := commit .blank pageWrites files
        match writeContentAddressed uuids files' (.snapshot hash) (.state state) with
        | .error e => (pageWrites, .error e)
        | .ok snapshotWrites =>
          let checkpoint := atomicWrite uuids .checkpoint
            (.checkpoint ⟨state, .snapshot hash, hash⟩)
          (pageWrites ++ snapshotWrites ++ [checkpoint],
            .ok { advanced with
                  collectionSnapshotPath := some (.snapshot hash)
                  collectionSnapshotSha256 := some hash })

end Writing

end AutoBit.Data
