import AutoBit.Data.Walk

/-!
# What an evidence root holds

A root holds a state of a walk when its checkpoint names that state, or, before the first
checkpoint, when its snapshots are those of the state and of earlier ones. Loading a root
gives back the state it holds, and a crash of a round leaves a root that holds the state
before the round or the one after it.
-/

namespace AutoBit.Data

open AutoBit.Library

section Holding

variable {ρ δ : Type} (py : Platform ρ δ) (c : Collection)

/-- The hash of the snapshot of an evidence. -/
def stateHash (evidence : CollectionEvidence δ) : δ :=
  py.sha256 (.state (statePayloadFromEvidence evidence))

/-- The checkpoint document of an evidence. -/
def checkpointOf (evidence : CollectionEvidence δ) : Checkpoint δ :=
  ⟨statePayloadFromEvidence evidence, .snapshot (stateHash py evidence),
    stateHash py evidence⟩

variable [DecidableEq δ]

/-- A regular file with these contents stands under the name. -/
def Stored (files : Root ρ δ) (name : FileName δ) (contents : Contents ρ δ) : Prop :=
  files.lookup name = some (.file contents)

/-- Content-addressed names tell what their files hold. -/
structure Addressed (files : Root ρ δ) : Prop where
  page : ∀ hash node, files.lookup (.page hash) = some node →
    ∃ rows, node = .file (.page rows) ∧ py.sha256 (.page rows) = hash
  snapshot : ∀ hash node, files.lookup (.snapshot hash) = some node →
    ∃ payload, node = .file (.state payload) ∧ py.sha256 (.state payload) = hash

/-- Every page of an evidence is stored under the name of its record. -/
def PagesStored (files : Root ρ δ) (evidence : CollectionEvidence δ) : Prop :=
  ∀ record ∈ evidence.pages, ∃ rows, Records py record rows ∧
    Stored files (.page record.sha256) (.page rows)

/-- Every snapshot of a root is one of a state on the walk to an evidence. -/
def SnapshotsBefore (answers : UtcText → List (Row ρ) → Prop) (files : Root ρ δ)
    (evidence : CollectionEvidence δ) : Prop :=
  ∀ hash, files.lookup (.snapshot hash) ≠ none →
    ∃ earlier, Walked py c answers earlier ∧ Later py c answers earlier evidence ∧
      earlier.pages ≠ [] ∧ stateHash py earlier = hash

/-- A root holds a state of a walk. -/
structure Holds (answers : UtcText → List (Row ρ) → Prop) (files : Root ρ δ)
    (evidence : CollectionEvidence δ) : Prop where
  addressed : Addressed py files
  walked : Walked py c answers evidence
  pages : PagesStored py files evidence
  snapshot : evidence.pages ≠ [] → Stored files (.snapshot (stateHash py evidence))
    (.state (statePayloadFromEvidence evidence))
  latest : files.lookup .checkpoint = none ∧ SnapshotsBefore py c answers files evidence ∨
    evidence.pages ≠ [] ∧ Stored files .checkpoint (.checkpoint (checkpointOf py evidence))

end Holding

section Loading

variable {ρ δ : Type} [DecidableEq δ] {py : Platform ρ δ} {c : Collection}
  {answers : UtcText → List (Row ρ) → Prop} {files files' : Root ρ δ}
  {evidence : CollectionEvidence δ}

/-- An empty root holds the beginning of every walk. -/
theorem Holds.empty :
    Holds py c answers ∅ (newCollectionEvidence (c.identity py)) where
  addressed := ⟨fun _ _ h => by simp at h, fun _ _ h => by simp at h⟩
  walked := Relation.ReflTransGen.refl
  pages := fun _ h => absurd h List.not_mem_nil
  snapshot := fun h => absurd rfl h
  latest := Or.inl ⟨AList.lookup_empty _, fun _ h => absurd (AList.lookup_empty _) h⟩

/-- Scratch files and the order of the listing do not matter to what a root holds. -/
theorem Holds.congr (h : Holds py c answers files evidence)
    (hagree : Agree FileName.IsTemporary files files') :
    Holds py c answers files' evidence := by
  have hpage : ∀ hash, files.lookup (.page hash) = files'.lookup (.page hash) :=
    fun hash => hagree _ id
  have hsnapshot : ∀ hash, files.lookup (.snapshot hash) = files'.lookup (.snapshot hash) :=
    fun hash => hagree _ id
  have hcheckpoint : files.lookup .checkpoint = files'.lookup .checkpoint := hagree _ id
  refine ⟨⟨?_, ?_⟩, h.walked, ?_, ?_, ?_⟩
  · intro hash node hnode
    exact h.addressed.page hash node ((hpage hash).trans hnode)
  · intro hash node hnode
    exact h.addressed.snapshot hash node ((hsnapshot hash).trans hnode)
  · intro record hrecord
    obtain ⟨rows, hrows, hstored⟩ := h.pages record hrecord
    exact ⟨rows, hrows, (hpage _).symm.trans hstored⟩
  · intro hpages
    exact (hsnapshot _).symm.trans (h.snapshot hpages)
  · rcases h.latest with ⟨hnone, hbefore⟩ | ⟨hpages, hstored⟩
    · refine Or.inl ⟨hcheckpoint.symm.trans hnone, fun hash hne => hbefore hash ?_⟩
      rwa [hsnapshot]
    · exact Or.inr ⟨hpages, hcheckpoint.symm.trans hstored⟩

variable (py) in
/-- A stored document is read back under the name of its hash. -/
theorem readHashedJson_stored {path : FileName δ} {contents : Contents ρ δ} {hash : δ}
    (label : String) (hstored : Stored files path contents)
    (hhash : py.sha256 contents = hash) (hdocument : ∀ bytes, contents ≠ .fragment bytes) :
    readHashedJson py files path hash label = .ok contents := by
  have hcontents : contents? files path = some contents := by
    unfold contents?
    rw [hstored]
  simp only [readHashedJson, hcontents, require, hhash, reject, ne_eq, not_true_eq_false,
    if_false, Bind.bind, Except.bind]
  cases contents with
  | fragment bytes => exact absurd rfl (hdocument bytes)
  | page | state | checkpoint | config => rfl

/-- The stored page of a record is loaded. -/
theorem loadRawPage_stored {record : RawPageEvidence δ} {rows : List (Row ρ)}
    (hrecord : Records py record rows)
    (hstored : Stored files (.page record.sha256) (.page rows)) :
    loadRawPage py files record = .ok rows := by
  have hread := readHashedJson_stored py "raw page evidence" hstored hrecord.hash
    (by simp)
  simp [loadRawPage, hrecord.path, hread, hrecord.count, hrecord.oldest, reject, Bind.bind,
    Except.bind, Pure.pure, Except.pure]

/-- The pages of an evidence are loaded when they are stored. -/
theorem loadRawPages_stored (h : PagesStored py files evidence) :
    ∃ pages, loadRawPages py files evidence = .ok pages ∧
      List.Forall₂ (Records py) evidence.pages pages := by
  unfold loadRawPages
  unfold PagesStored at h
  generalize evidence.pages = records at h ⊢
  induction records with
  | nil => exact ⟨[], rfl, List.Forall₂.nil⟩
  | cons record records ih =>
    obtain ⟨rows, hrecord, hstored⟩ := h record List.mem_cons_self
    obtain ⟨pages, hpages, hall⟩ := ih fun r hr => h r (List.mem_cons_of_mem _ hr)
    refine ⟨rows :: pages, ?_, List.Forall₂.cons hrecord hall⟩
    rw [List.mapM_cons, loadRawPage_stored hrecord hstored, hpages]
    rfl

/-- The document of a state on a walk is validated and gives that state back. -/
theorem evidenceFromStatePayload_walked (hwhole : c.start % 1000000 = 0)
    (hwalked : Walked py c answers evidence) (hpages : evidence.pages ≠ [])
    (hstored : PagesStored py files evidence) (label : String) :
    evidenceFromStatePayload py files (statePayloadFromEvidence evidence) (c.identity py)
      (.snapshot (stateHash py evidence)) (stateHash py evidence) label = .ok evidence := by
  obtain ⟨hidentity, hevidence⟩ := hwalked.restores
  have hparse : parsePageEvidence (statePayloadFromEvidence evidence).pages = .ok () := by
    refine Except.forM_eq_ok.mpr fun record hrecord => ?_
    obtain ⟨rows, hrows⟩ := hwalked.records record hrecord
    exact reject_eq_ok.mpr (not_not.mpr hrows.path)
  have hstart : c.start / 1000000 * 1000000 = c.start := by omega
  have hvalid : validatePaginationState label (c.identity py)
      (statePayloadFromEvidence evidence) = .ok () :=
    Bounded.validatePaginationState label
      (by rw [hstart]; exact hwalked.bounded hwhole) rfl rfl
  have hsnapshot : evidenceOf (c.identity py) (statePayloadFromEvidence evidence)
      (some (.snapshot (stateHash py evidence), stateHash py evidence)) = evidence := by
    rw [snapshotOf, if_neg hpages] at hevidence
    exact hevidence
  obtain ⟨pages, hload, -⟩ := loadRawPages_stored hstored
  simp [evidenceFromStatePayload, hidentity, hparse, hvalid, hsnapshot, hload, reject,
    Bind.bind, Except.bind, Pure.pure, Except.pure]

end Loading

section Recovery

variable {ρ δ : Type} [DecidableEq δ] {py : Platform ρ δ} {c : Collection}
  {answers : UtcText → List (Row ρ) → Prop} {files : Root ρ δ}
  {evidence earlier : CollectionEvidence δ}

/-- The pages of earlier evidence are stored when those of later evidence are. -/
theorem PagesStored.of_later (h : PagesStored py files evidence)
    (hlater : Later py c answers earlier evidence) : PagesStored py files earlier := by
  intro record hrecord
  rcases hlater.prefix with rfl | ⟨next, rest, hpages, -, -⟩
  · exact h record hrecord
  · exact h record (hpages ▸ List.mem_append_left _ hrecord)

/-- A snapshot of a state on the walk is read back as that state. -/
theorem orphanEvidence_earlier (hwhole : c.start % 1000000 = 0)
    (hinjective : Function.Injective py.sha256) (h : Holds py c answers files evidence)
    (hwalked : Walked py c answers earlier) (hlater : Later py c answers earlier evidence)
    (hpages : earlier.pages ≠ [])
    (hpresent : files.lookup (.snapshot (stateHash py earlier)) ≠ none) (label : String) :
    orphanEvidence py files (c.identity py) (stateHash py earlier) label = .ok earlier := by
  obtain ⟨node, hnode⟩ := Option.ne_none_iff_exists'.mp hpresent
  obtain ⟨payload, rfl, hhash⟩ := h.addressed.snapshot _ node hnode
  obtain rfl : payload = statePayloadFromEvidence earlier := by
    have := hinjective hhash
    exact Contents.state.inj this
  have hread := readHashedJson_stored py label hnode rfl (by simp)
  have hevidence := evidenceFromStatePayload_walked hwhole hwalked hpages
    (h.pages.of_later hlater) label
  unfold orphanEvidence
  change readHashedJson py files (.snapshot (stateHash py earlier)) (stateHash py earlier) label
    = _ at hread
  rw [hread]
  exact hevidence

/-- Recovery considers exactly earlier states of the walk, and the state itself. -/
theorem mem_recoveryCandidates (hwhole : c.start % 1000000 = 0)
    (hinjective : Function.Injective py.sha256) (h : Holds py c answers files evidence)
    (hbefore : SnapshotsBefore py c answers files evidence) :
    (∀ candidate ∈ recoveryCandidates py files (c.identity py),
      Later py c answers candidate evidence ∧ candidate.pages ≠ []) ∧
    (evidence.pages ≠ [] → evidence ∈ recoveryCandidates py files (c.identity py)) := by
  constructor
  · intro candidate hcandidate
    simp only [recoveryCandidates, List.mem_filterMap] at hcandidate
    obtain ⟨hash, ⟨name, hname, hhash⟩, hread⟩ := hcandidate
    cases name with
    | snapshot found =>
      obtain rfl : found = hash := Option.some.inj hhash
      have hpresent : files.lookup (.snapshot found) ≠ none := by
        rw [Ne, AList.lookup_eq_none, not_not]
        exact hname
      obtain ⟨state, hwalked, hlater, hpages, rfl⟩ := hbefore found hpresent
      rw [orphanEvidence_earlier hwhole hinjective h hwalked hlater hpages hpresent] at hread
      obtain rfl : state = candidate := Option.some.inj hread
      exact ⟨hlater, hpages⟩
    | checkpoint | page | temporary | other => cases hhash
  · intro hpages
    have hsnapshot := h.snapshot hpages
    have hpresent : files.lookup (.snapshot (stateHash py evidence)) ≠ none := by
      rw [show files.lookup (.snapshot (stateHash py evidence)) = _ from hsnapshot]
      exact Option.some_ne_none _
    simp only [recoveryCandidates, List.mem_filterMap]
    refine ⟨stateHash py evidence, ⟨.snapshot (stateHash py evidence), ?_, rfl⟩, ?_⟩
    · rw [Ne, AList.lookup_eq_none, not_not] at hpresent
      exact hpresent
    · rw [orphanEvidence_earlier hwhole hinjective h h.walked Relation.ReflTransGen.refl hpages
        hpresent]
      rfl

/-- Without a checkpoint, recovery finds the state that a root holds. -/
theorem recoverUncheckpointedEvidence_holds (hwhole : c.start % 1000000 = 0)
    (hinjective : Function.Injective py.sha256) (h : Holds py c answers files evidence)
    (hbefore : SnapshotsBefore py c answers files evidence) :
    recoverUncheckpointedEvidence py files (c.identity py) = .ok evidence := by
  obtain ⟨hearlier, hown⟩ := mem_recoveryCandidates hwhole hinjective h hbefore
  unfold recoverUncheckpointedEvidence
  cases htip : (recoveryCandidates py files (c.identity py)).argmax
      fun candidate => candidate.pages.length with
  | none =>
    have hnone := List.argmax_eq_none.mp htip
    have hnil : evidence.pages = [] := by
      by_contra hpages
      have := hown hpages
      rw [hnone] at this
      exact List.not_mem_nil this
    simp only [htip]
    rw [h.walked.eq_new_of_nil hnil]
  | some tip =>
    have hmem := List.argmax_mem htip
    obtain ⟨hlater, htipPages⟩ := hearlier tip hmem
    have hpages : evidence.pages ≠ [] := by
      rcases hlater.prefix with rfl | ⟨record, rest, hrest, -, -⟩
      · exact htipPages
      · simp [hrest]
    have hlength : evidence.pages.length ≤ tip.pages.length :=
      List.le_of_mem_argmax (f := fun candidate => candidate.pages.length) (hown hpages) htip
    obtain rfl := hlater.eq_of_length hlength
    have hprefix : (recoveryCandidates py files (c.identity py)).all
        (isSnapshotPrefix · tip) = true :=
      List.all_eq_true.mpr fun candidate hcandidate =>
        (hearlier candidate hcandidate).1.isSnapshotPrefix
    simp [htip, hprefix, reject, Bind.bind, Except.bind, Pure.pure, Except.pure]

/-- Loading a root gives back the state that it holds. -/
theorem loadCollectionEvidence_holds (hwhole : c.start % 1000000 = 0)
    (hinjective : Function.Injective py.sha256) (h : Holds py c answers files evidence) :
    loadCollectionEvidence py files (c.identity py) = .ok evidence := by
  unfold loadCollectionEvidence
  rcases h.latest with ⟨hnone, hbefore⟩ | ⟨hpages, hstored⟩
  · rw [hnone]
    exact recoverUncheckpointedEvidence_holds hwhole hinjective h hbefore
  · unfold Stored at hstored
    have hread := readHashedJson_stored py "collection snapshot evidence"
      (h.snapshot hpages) rfl (by simp)
    have hevidence := evidenceFromStatePayload_walked hwhole h.walked hpages h.pages
      "collection evidence checkpoint"
    have hidentity := h.walked.restores.1
    change readHashedJson py files (.snapshot (stateHash py evidence)) (stateHash py evidence) _
      = _ at hread
    simp [hstored, checkpointOf, hidentity, hread, hevidence, reject, Bind.bind, Except.bind]

end Recovery

section Writing

variable {ρ δ : Type} [DecidableEq ρ] [DecidableEq δ] {py : Platform ρ δ} {c : Collection}
  {answers : UtcText → List (Row ρ) → Prop} {files files' : Root ρ δ}
  {evidence evidence' : CollectionEvidence δ} {uuids : FileName δ → ℕ}

/-- The writes that make a document stand under its name: none when it already does. -/
def Establishes (uuids : FileName δ → ℕ) (files : Root ρ δ) (name : FileName δ)
    (contents : Contents ρ δ) (writes : List (AtomicWrite (FileName δ) (Node ρ δ))) : Prop :=
  writes = [] ∧ Stored files name contents ∨
    files.lookup name = none ∧ writes = [atomicWrite uuids name contents]

variable (uuids) in
/-- A write under a digest establishes its contents, when nothing else has the name. -/
theorem writeContentAddressed_establishes {name : FileName δ} {contents : Contents ρ δ}
    (h : ∀ node, files.lookup name = some node → node = .file contents) :
    ∃ writes, writeContentAddressed uuids files name contents = .ok writes ∧
      Establishes uuids files name contents writes := by
  unfold writeContentAddressed
  cases hlookup : files.lookup name with
  | none => exact ⟨_, rfl, Or.inr ⟨hlookup, rfl⟩⟩
  | some node =>
    obtain rfl := h node hlookup
    refine ⟨[], ?_, Or.inl ⟨rfl, hlookup⟩⟩
    simp [reject, Bind.bind, Except.bind, Pure.pure, Except.pure]

omit [DecidableEq ρ] in
/-- Every write goes through a scratch file to a name that is not one. -/
theorem Establishes.scratch {name : FileName δ} {contents : Contents ρ δ}
    {writes : List (AtomicWrite (FileName δ) (Node ρ δ))}
    (h : Establishes uuids files name contents writes) (hname : ¬name.IsTemporary) :
    (∀ w ∈ writes, w.temporary.IsTemporary) ∧ ∀ w ∈ writes, ¬w.destination.IsTemporary := by
  rcases h with ⟨rfl, -⟩ | ⟨-, rfl⟩
  · simp
  · simp only [List.mem_singleton, forall_eq]
    exact ⟨trivial, hname⟩

/-- What a round that returns an evidence writes, in order: the page and the snapshot where
they are missing, and the checkpoint. -/
def RoundWrites (py : Platform ρ δ) (uuids : FileName δ → ℕ) (files : Root ρ δ)
    (page : List (Row ρ)) (evidence' : CollectionEvidence δ)
    (writes : List (AtomicWrite (FileName δ) (Node ρ δ))) : Prop :=
  ∃ pageWrites snapshotWrites,
    Establishes uuids files (.page (py.sha256 (.page page))) (.page page) pageWrites ∧
    Establishes uuids files (.snapshot (stateHash py evidence'))
      (.state (statePayloadFromEvidence evidence')) snapshotWrites ∧
    writes = pageWrites ++ (snapshotWrites ++
      [atomicWrite uuids .checkpoint (.checkpoint (checkpointOf py evidence'))])

variable {page : List (Row ρ)} {requestToUtc nextToUtc : UtcText}
  {oldestTimestampUtc : Option UtcText} {complete : Bool}

/-- A page that is refused is not written. -/
theorem persistRawPage_error {e : Failure}
    (h : persistOutcome py evidence page requestToUtc oldestTimestampUtc nextToUtc complete =
      .error e) :
    persistRawPage py uuids files evidence page requestToUtc oldestTimestampUtc nextToUtc
      complete = ([], .error e) := by
  unfold persistOutcome reject at h
  unfold persistRawPage
  by_cases hcomplete : evidence.complete = true
  · rw [if_pos hcomplete] at h ⊢
    obtain rfl : Failure.value _ = e := Except.error.inj h
    rfl
  · rw [if_neg hcomplete] at h ⊢
    cases hencode : forM page py.encode with
    | error found =>
      rw [hencode] at h
      obtain rfl : found = e := Except.error.inj h
      rfl
    | ok =>
      rw [hencode] at h
      cases h

/-- What `persist_raw_page` does once both content-addressed writes are decided. -/
theorem persistRawPage_of_writes {pageWrites snapshotWrites}
    (hopen : evidence.complete = false) (hencode : forM page py.encode = .ok ())
    (hpage : writeContentAddressed uuids files (.page (py.sha256 (.page page))) (.page page) =
      .ok pageWrites)
    (hnew : persisted py evidence page requestToUtc oldestTimestampUtc nextToUtc complete =
      evidence')
    (hsnapshot : writeContentAddressed uuids (commit .blank pageWrites files)
        (.snapshot (stateHash py evidence')) (.state (statePayloadFromEvidence evidence')) =
      .ok snapshotWrites) :
    persistRawPage py uuids files evidence page requestToUtc oldestTimestampUtc nextToUtc
        complete =
      (pageWrites ++ (snapshotWrites ++
        [atomicWrite uuids .checkpoint (.checkpoint (checkpointOf py evidence'))]),
        .ok evidence') := by
  have hclosed : ¬evidence.complete = true := by simp [hopen]
  have hstate : statePayloadFromEvidence (advanceEvidence py evidence page requestToUtc
      oldestTimestampUtc nextToUtc complete) = statePayloadFromEvidence evidence' := by
    rw [← hnew]
    rfl
  have hevidence : { advanceEvidence py evidence page requestToUtc oldestTimestampUtc nextToUtc
      complete with
        collectionSnapshotPath := some (.snapshot (stateHash py evidence'))
        collectionSnapshotSha256 := some (stateHash py evidence') } = evidence' := by
    subst hnew
    rfl
  rw [persistRawPage, if_neg hclosed, hencode]
  simp only [hpage, hstate]
  rw [← stateHash, hsnapshot]
  simp only [List.append_assoc]
  exact Prod.ext rfl (congrArg Except.ok hevidence)

omit [DecidableEq ρ] in
/-- The page write of a round does not touch its snapshot. -/
theorem Establishes.lookup_snapshot {hash : δ} {contents : Contents ρ δ} {pageHash : δ}
    {writes : List (AtomicWrite (FileName δ) (Node ρ δ))}
    (h : Establishes uuids files (.page pageHash) contents writes) :
    (commit .blank writes files).lookup (.snapshot hash) = files.lookup (.snapshot hash) := by
  obtain ⟨htemporary, hdestination⟩ := h.scratch id
  have hcommit : Agree FileName.IsTemporary (commit .blank writes files)
      (replaceAll writes files) := by
    apply commit_agree
    · exact htemporary
    · exact hdestination
    · exact Agree.refl files
  rw [hcommit _ id]
  rcases h with ⟨rfl, -⟩ | ⟨-, rfl⟩
  · rfl
  · exact AList.lookup_insert_ne (by simp [atomicWrite])

/-- Over a content-addressed root a page that is accepted is written without an error. -/
theorem persistRawPage_ok (haddressed : Addressed py files)
    (hinjective : Function.Injective py.sha256)
    (h : persistOutcome py evidence page requestToUtc oldestTimestampUtc nextToUtc complete =
      .ok evidence') :
    ∃ writes, RoundWrites py uuids files page evidence' writes ∧
      persistRawPage py uuids files evidence page requestToUtc oldestTimestampUtc nextToUtc
        complete = (writes, .ok evidence') := by
  obtain ⟨hopen, hencode, hnew⟩ := persistOutcome_eq_ok.mp h
  have hpageNode : ∀ node, files.lookup (.page (py.sha256 (.page page))) = some node →
      node = .file (.page page) := by
    intro node hnode
    obtain ⟨rows, rfl, hrows⟩ := haddressed.page _ node hnode
    exact congrArg Node.file (hinjective hrows)
  obtain ⟨pageWrites, hpageWrites, hpage⟩ :=
    writeContentAddressed_establishes uuids hpageNode
  have hsnapshotNode : ∀ node, (commit .blank pageWrites files).lookup
      (.snapshot (stateHash py evidence')) = some node →
        node = .file (.state (statePayloadFromEvidence evidence')) := by
    intro node hnode
    rw [hpage.lookup_snapshot] at hnode
    obtain ⟨payload, rfl, hpayload⟩ := haddressed.snapshot _ node hnode
    exact congrArg Node.file (hinjective hpayload)
  obtain ⟨snapshotWrites, hsnapshotWrites, hsnapshot⟩ :=
    writeContentAddressed_establishes uuids hsnapshotNode
  rw [Establishes, Stored, hpage.lookup_snapshot] at hsnapshot
  exact ⟨_, ⟨pageWrites, snapshotWrites, hpage, hsnapshot, rfl⟩,
    persistRawPage_of_writes hopen hencode hpageWrites hnew hsnapshotWrites⟩

/-- Whatever stands in the root, a page that is persisted gives the evidence it should. -/
theorem persistOutcome_of_persistRawPage {writes}
    (h : persistRawPage py uuids files evidence page requestToUtc oldestTimestampUtc nextToUtc
      complete = (writes, .ok evidence')) :
    persistOutcome py evidence page requestToUtc oldestTimestampUtc nextToUtc complete =
      .ok evidence' := by
  unfold persistRawPage at h
  split at h
  · cases h
  · rename_i hopen
    split at h
    · cases h
    · rename_i hencode
      split at h
      · cases h
      · dsimp only at h
        split at h
        · cases h
        · obtain ⟨-, hok⟩ := Prod.mk.inj h
          exact persistOutcome_eq_ok.mpr
            ⟨Bool.eq_false_iff.mpr hopen, hencode, Except.ok.inj hok⟩

end Writing

section Rounds

variable {ρ δ : Type} [DecidableEq ρ] [DecidableEq δ] {py : Platform ρ δ} {c : Collection}
  {answers : UtcText → List (Row ρ) → Prop} {files files' : Root ρ δ}
  {evidence evidence' : CollectionEvidence δ} {uuids : FileName δ → ℕ}
  {answer : Except Failure (List (Row ρ))} {page : List (Row ρ)}

/-- A round that raises writes nothing. -/
theorem collectRound_error {e : Failure} (h : roundOutcome py c evidence answer = .error e) :
    collectRound py c uuids files evidence answer = ([], .error e) := by
  unfold roundOutcome at h
  unfold collectRound
  cases hboundary : parseUtc evidence.nextToUtc with
  | error found =>
    rw [hboundary] at h
    obtain rfl : found = e := Except.error.inj h
    simp [hboundary]
  | ok boundary =>
    rw [hboundary] at h
    simp only [hboundary]
    cases answer with
    | error found =>
      obtain rfl : found = e := Except.error.inj h
      rfl
    | ok page =>
      cases page with
      | nil => exact persistRawPage_error h
      | cons row rows =>
        dsimp only at h ⊢
        cases holdest : oldestBefore boundary (row :: rows) with
        | error found =>
          rw [holdest] at h
          obtain rfl : found = e := Except.error.inj h
          rfl
        | ok oldest =>
          rw [holdest] at h
          exact persistRawPage_error h

variable (uuids) in
/-- A round that returns an evidence has done the writes of that round. -/
theorem collectRound_ok (haddressed : Addressed py files)
    (hinjective : Function.Injective py.sha256)
    (h : roundOutcome py c evidence (.ok page) = .ok evidence') :
    ∃ writes, RoundWrites py uuids files page evidence' writes ∧
      collectRound py c uuids files evidence (.ok page) = (writes, .ok evidence') := by
  unfold roundOutcome at h
  unfold collectRound
  cases hboundary : parseUtc evidence.nextToUtc with
  | error found =>
    rw [hboundary] at h
    cases h
  | ok boundary =>
    rw [hboundary] at h
    simp only [hboundary]
    cases page with
    | nil => exact persistRawPage_ok haddressed hinjective h
    | cons row rows =>
      dsimp only at h ⊢
      obtain ⟨oldest, holdest, hpersist⟩ := Except.bind_eq_ok.mp h
      simp only [holdest]
      exact persistRawPage_ok haddressed hinjective hpersist

/-- Whatever stands in the root, a round that returns gives the evidence it should. -/
theorem roundOutcome_of_collectRound {writes}
    (h : collectRound py c uuids files evidence answer = (writes, .ok evidence')) :
    roundOutcome py c evidence answer = .ok evidence' := by
  unfold collectRound at h
  unfold roundOutcome
  cases hboundary : parseUtc evidence.nextToUtc with
  | error found =>
    simp only [hboundary] at h
    cases h
  | ok boundary =>
    simp only [hboundary] at h
    cases answer with
    | error found => cases h
    | ok page =>
      cases page with
      | nil => exact persistOutcome_of_persistRawPage h
      | cons row rows =>
        dsimp only at h ⊢
        cases holdest : oldestBefore boundary (row :: rows) with
        | error found =>
          rw [holdest] at h
          cases h
        | ok oldest =>
          rw [holdest] at h
          exact persistOutcome_of_persistRawPage h

omit [DecidableEq ρ]

/-- A document was placed under a name, and every other name kept its node. -/
def Placed (files files' : Root ρ δ) (name : FileName δ) (contents : Contents ρ δ) : Prop :=
  Stored files' name contents ∧
    ∀ other, other ≠ name → files'.lookup other = files.lookup other

/-- Writes that establish contents place them. -/
theorem Establishes.placed {name : FileName δ} {contents : Contents ρ δ}
    {writes : List (AtomicWrite (FileName δ) (Node ρ δ))}
    (h : Establishes uuids files' name contents writes)
    (hname : files'.lookup name = files.lookup name) :
    Placed files (replaceAll writes files) name contents := by
  rcases h with ⟨rfl, hstored⟩ | ⟨-, rfl⟩
  · exact ⟨hname.symm.trans hstored, fun _ _ => rfl⟩
  · exact ⟨AList.lookup_insert _, fun _ hother => AList.lookup_insert_ne hother⟩

/-- A prefix of the writes that establish a document is none of them or all. -/
theorem Establishes.prefix {name : FileName δ} {contents : Contents ρ δ}
    {writes done : List (AtomicWrite (FileName δ) (Node ρ δ))}
    (h : Establishes uuids files name contents writes) (hdone : done <+: writes) :
    done = [] ∨ done = writes := by
  rcases h with ⟨rfl, -⟩ | ⟨-, rfl⟩
  · exact Or.inl (List.prefix_nil.mp hdone)
  · rcases List.prefix_cons_iff.mp hdone with rfl | ⟨rest, rfl, hrest⟩
    · exact Or.inl rfl
    · rw [List.prefix_nil.mp hrest]
      exact Or.inr rfl

/-- A page that is placed under its digest keeps the files addressed. -/
theorem Placed.addressed_page {rows : List (Row ρ)} (h : Addressed py files)
    (hplaced : Placed files files' (.page (py.sha256 (.page rows))) (.page rows)) :
    Addressed py files' := by
  obtain ⟨hstored, hother⟩ := hplaced
  constructor
  · intro hash node hnode
    by_cases heq : hash = py.sha256 (.page rows)
    · subst heq
      exact ⟨rows, Option.some.inj (hnode.symm.trans hstored), rfl⟩
    · rw [hother _ (by simpa using heq)] at hnode
      exact h.page hash node hnode
  · intro hash node hnode
    rw [hother _ (by simp)] at hnode
    exact h.snapshot hash node hnode

/-- A snapshot that is placed under its digest keeps the files addressed. -/
theorem Placed.addressed_snapshot {payload : StatePayload δ} (h : Addressed py files)
    (hplaced : Placed files files' (.snapshot (py.sha256 (.state payload))) (.state payload)) :
    Addressed py files' := by
  obtain ⟨hstored, hother⟩ := hplaced
  constructor
  · intro hash node hnode
    rw [hother _ (by simp)] at hnode
    exact h.page hash node hnode
  · intro hash node hnode
    by_cases heq : hash = py.sha256 (.state payload)
    · subst heq
      exact ⟨payload, Option.some.inj (hnode.symm.trans hstored), rfl⟩
    · rw [hother _ (by simpa using heq)] at hnode
      exact h.snapshot hash node hnode

/-- A checkpoint that is placed keeps the files addressed. -/
theorem Placed.addressed_checkpoint {contents : Contents ρ δ} (h : Addressed py files)
    (hplaced : Placed files files' .checkpoint contents) : Addressed py files' := by
  obtain ⟨-, hother⟩ := hplaced
  constructor
  · intro hash node hnode
    rw [hother _ (by simp)] at hnode
    exact h.page hash node hnode
  · intro hash node hnode
    rw [hother _ (by simp)] at hnode
    exact h.snapshot hash node hnode

/-- Placing a page keeps every page record's file. -/
theorem Placed.pagesStored (hinjective : Function.Injective py.sha256)
    (h : PagesStored py files evidence)
    (hplaced : Placed files files' (.page (py.sha256 (.page page))) (.page page)) :
    PagesStored py files' evidence := by
  obtain ⟨hstored, hother⟩ := hplaced
  intro record hrecord
  obtain ⟨rows, hrows, hold⟩ := h record hrecord
  by_cases heq : record.sha256 = py.sha256 (.page page)
  · obtain rfl : rows = page := Contents.page.inj (hinjective (hrows.hash.trans heq))
    exact ⟨rows, hrows, heq ▸ hstored⟩
  · exact ⟨rows, hrows, (hother _ (by simpa using heq)).trans hold⟩

/-- Placing anything but a page keeps every page record's file. -/
theorem Placed.pagesStored_of_ne {name : FileName δ} {contents : Contents ρ δ}
    (h : PagesStored py files evidence) (hplaced : Placed files files' name contents)
    (hname : ∀ hash, name ≠ .page hash) : PagesStored py files' evidence := by
  intro record hrecord
  obtain ⟨rows, hrows, hold⟩ := h record hrecord
  exact ⟨rows, hrows, (hplaced.2 _ (hname _).symm).trans hold⟩

/-- Once its page is there, a root still holds the state before the round. -/
theorem Holds.page_placed (hinjective : Function.Injective py.sha256)
    (h : Holds py c answers files evidence)
    (hplaced : Placed files files' (.page (py.sha256 (.page page))) (.page page)) :
    Holds py c answers files' evidence := by
  have hsnapshot : ∀ hash, files'.lookup (.snapshot hash) = files.lookup (.snapshot hash) :=
    fun hash => hplaced.2 _ (by simp)
  have hcheckpoint : files'.lookup .checkpoint = files.lookup .checkpoint :=
    hplaced.2 _ (by simp)
  refine ⟨hplaced.addressed_page h.addressed, h.walked,
    hplaced.pagesStored hinjective h.pages, ?_, ?_⟩
  · intro hpages
    exact (hsnapshot _).trans (h.snapshot hpages)
  · rcases h.latest with ⟨hnone, hbefore⟩ | ⟨hpages, hlatest⟩
    · exact Or.inl ⟨hcheckpoint.trans hnone, fun hash hne => hbefore hash (hsnapshot hash ▸ hne)⟩
    · exact Or.inr ⟨hpages, hcheckpoint.trans hlatest⟩

/-- A root that has the pages and the snapshot of a state, but not its checkpoint. -/
structure Prepared (py : Platform ρ δ) (files : Root ρ δ) (evidence : CollectionEvidence δ) :
    Prop where
  addressed : Addressed py files
  pages : PagesStored py files evidence
  snapshot : Stored files (.snapshot (stateHash py evidence))
    (.state (statePayloadFromEvidence evidence))

/-- Once page and snapshot are there, a root is prepared for the state after the round. -/
theorem Holds.prepared (h : Holds py c answers files evidence)
    (hround : roundOutcome py c evidence (.ok page) = .ok evidence')
    (hpage : Stored files (.page (py.sha256 (.page page))) (.page page))
    (hplaced : Placed files files' (.snapshot (stateHash py evidence'))
      (.state (statePayloadFromEvidence evidence'))) : Prepared py files' evidence' := by
  refine ⟨hplaced.addressed_snapshot h.addressed, ?_, hplaced.1⟩
  refine hplaced.pagesStored_of_ne ?_ (by simp)
  obtain ⟨record, hpages, -, hrecord⟩ := roundOutcome_pages hround
  intro other hother
  rw [hpages, List.mem_append, List.mem_singleton] at hother
  rcases hother with hold | rfl
  · exact h.pages other hold
  · exact ⟨page, hrecord, hrecord.hash ▸ hpage⟩

/-- Once its snapshot is there, a root without a checkpoint holds the state after the
round, and a root with a checkpoint still the state before it. -/
theorem Holds.snapshot_placed (hinjective : Function.Injective py.sha256)
    (h : Holds py c answers files evidence) (hanswers : answers evidence.nextToUtc page)
    (hround : roundOutcome py c evidence (.ok page) = .ok evidence')
    (hpage : Stored files (.page (py.sha256 (.page page))) (.page page))
    (hplaced : Placed files files' (.snapshot (stateHash py evidence'))
      (.state (statePayloadFromEvidence evidence'))) :
    Holds py c answers files' evidence ∨ Holds py c answers files' evidence' := by
  have hprepared := h.prepared hround hpage hplaced
  have hstep : Advances py c answers evidence evidence' := ⟨page, hanswers, hround⟩
  have hwalked : Walked py c answers evidence' := h.walked.tail hstep
  obtain ⟨record, hpages, -, -⟩ := roundOutcome_pages hround
  have hnonempty : evidence'.pages ≠ [] := by simp [hpages]
  have hcheckpoint : files'.lookup .checkpoint = files.lookup .checkpoint :=
    hplaced.2 _ (by simp)
  rcases h.latest with ⟨hnone, hbefore⟩ | ⟨hold, hlatest⟩
  · right
    refine ⟨hprepared.addressed, hwalked, hprepared.pages, fun _ => hprepared.snapshot,
      Or.inl ⟨hcheckpoint.trans hnone, fun hash hne => ?_⟩⟩
    by_cases heq : hash = stateHash py evidence'
    · exact ⟨evidence', hwalked, Relation.ReflTransGen.refl, hnonempty, heq.symm⟩
    · rw [hplaced.2 _ (by simpa using heq)] at hne
      obtain ⟨earlier, hearlier, hlater, hsome, hhash⟩ := hbefore hash hne
      exact ⟨earlier, hearlier, hlater.tail hstep, hsome, hhash⟩
  · left
    refine ⟨hprepared.addressed, h.walked, hplaced.pagesStored_of_ne h.pages (by simp),
      fun _ => ?_, Or.inr ⟨hold, hcheckpoint.trans hlatest⟩⟩
    by_cases heq : stateHash py evidence = stateHash py evidence'
    · have hsame := hinjective heq
      rw [heq, hsame]
      exact hplaced.1
    · exact (hplaced.2 _ (by simpa using heq)).trans (h.snapshot hold)

/-- Once its checkpoint is there, a root holds the state after the round. -/
theorem Prepared.checkpoint_placed (h : Prepared py files evidence')
    (hwalked : Walked py c answers evidence') (hpages : evidence'.pages ≠ [])
    (hplaced : Placed files files' .checkpoint (.checkpoint (checkpointOf py evidence'))) :
    Holds py c answers files' evidence' where
  addressed := hplaced.addressed_checkpoint h.addressed
  walked := hwalked
  pages := hplaced.pagesStored_of_ne h.pages (by simp)
  snapshot := fun _ => (hplaced.2 _ (by simp)).trans h.snapshot
  latest := Or.inr ⟨hpages, hplaced.1⟩

/-- What any prefix of the writes of a round leaves holds the state before or after it, and
what all of them leave holds the state after it. -/
theorem Holds.replaced (hinjective : Function.Injective py.sha256)
    (h : Holds py c answers files evidence) (hanswers : answers evidence.nextToUtc page)
    (hround : roundOutcome py c evidence (.ok page) = .ok evidence')
    {writes : List (AtomicWrite (FileName δ) (Node ρ δ))}
    (hwrites : RoundWrites py uuids files page evidence' writes) :
    Holds py c answers (replaceAll writes files) evidence' ∧
    ∀ done, done <+: writes → Holds py c answers (replaceAll done files) evidence ∨
      Holds py c answers (replaceAll done files) evidence' := by
  obtain ⟨pageWrites, snapshotWrites, hpage, hsnapshot, rfl⟩ := hwrites
  have hplaced : Placed files (replaceAll pageWrites files) _ _ := hpage.placed rfl
  have hheld := h.page_placed hinjective hplaced
  have hsame : files.lookup (.snapshot (stateHash py evidence')) =
      (replaceAll pageWrites files).lookup (.snapshot (stateHash py evidence')) :=
    (hplaced.2 _ (by simp)).symm
  have hplaced' : Placed (replaceAll pageWrites files)
      (replaceAll snapshotWrites (replaceAll pageWrites files)) _ _ :=
    hsnapshot.placed hsame
  have hprepared := hheld.prepared hround hplaced.1 hplaced'
  have hheld' := hheld.snapshot_placed hinjective hanswers hround hplaced.1 hplaced'
  have hwalked : Walked py c answers evidence' := h.walked.tail ⟨page, hanswers, hround⟩
  have hpages : evidence'.pages ≠ [] := by
    obtain ⟨record, hrecord, -⟩ := roundOutcome_pages hround
    simp [hrecord]
  have hall : Holds py c answers (replaceAll (pageWrites ++ (snapshotWrites ++
      [atomicWrite uuids .checkpoint (.checkpoint (checkpointOf py evidence'))])) files)
        evidence' := by
    rw [replaceAll_append, replaceAll_append]
    exact hprepared.checkpoint_placed hwalked hpages
      ⟨AList.lookup_insert _, fun _ hother => AList.lookup_insert_ne hother⟩
  refine ⟨hall, fun done hdone => ?_⟩
  -- a cut before, in or after the page, the snapshot and the checkpoint
  rcases prefix_append_cases hdone with hin | ⟨rest, rfl, hrest⟩
  · rcases hpage.prefix hin with rfl | rfl
    · exact Or.inl h
    · exact Or.inl hheld
  · rw [replaceAll_append]
    rcases prefix_append_cases hrest with hin | ⟨last, rfl, hlast⟩
    · rcases hsnapshot.prefix hin with rfl | rfl
      · exact Or.inl hheld
      · exact hheld'
    · rw [replaceAll_append, replaceAll_append] at hall
      rw [replaceAll_append]
      rcases List.prefix_cons_iff.mp hlast with rfl | ⟨none', rfl, hnone⟩
      · exact hheld'
      · rw [List.prefix_nil.mp hnone]
        exact Or.inr hall

end Rounds

section Runs

variable {ρ δ : Type} [DecidableEq ρ] [DecidableEq δ] {py : Platform ρ δ} {c : Collection}
  {answers : UtcText → List (Row ρ) → Prop} {files : Root ρ δ}
  {evidence evidence' : CollectionEvidence δ} {uuids : FileName δ → ℕ} {page : List (Row ρ)}
  {writes : List (AtomicWrite (FileName δ) (Node ρ δ))}

omit [DecidableEq ρ] in
/-- Every write of a round goes through a scratch file. -/
theorem RoundWrites.scratch (h : RoundWrites py uuids files page evidence' writes) :
    (∀ w ∈ writes, w.temporary.IsTemporary) ∧ ∀ w ∈ writes, ¬w.destination.IsTemporary := by
  obtain ⟨pageWrites, snapshotWrites, hpage, hsnapshot, rfl⟩ := h
  obtain ⟨hpageTemporary, hpageDestination⟩ := hpage.scratch id
  obtain ⟨hsnapshotTemporary, hsnapshotDestination⟩ := hsnapshot.scratch id
  constructor
  · intro w hw
    simp only [List.mem_append, List.mem_singleton] at hw
    rcases hw with hw | hw | rfl
    · exact hpageTemporary w hw
    · exact hsnapshotTemporary w hw
    · exact trivial
  · intro w hw
    simp only [List.mem_append, List.mem_singleton] at hw
    rcases hw with hw | hw | rfl
    · exact hpageDestination w hw
    · exact hsnapshotDestination w hw
    · exact id

variable (uuids) in
/-- A finished round leaves a root that holds the state it returns. -/
theorem Holds.round (hinjective : Function.Injective py.sha256)
    (h : Holds py c answers files evidence) (hanswers : answers evidence.nextToUtc page)
    (hround : roundOutcome py c evidence (.ok page) = .ok evidence') :
    Holds py c answers
      (commit .blank (collectRound py c uuids files evidence (.ok page)).1 files) evidence' := by
  obtain ⟨writes, hwrites, hcollect⟩ := collectRound_ok uuids h.addressed hinjective hround
  obtain ⟨htemporary, hdestination⟩ := hwrites.scratch
  rw [hcollect]
  have hagree : Agree FileName.IsTemporary (commit .blank writes files)
      (replaceAll writes files) := by
    apply commit_agree
    · exact htemporary
    · exact hdestination
    · exact Agree.refl files
  exact (h.replaced hinjective hanswers hround hwrites).1.congr hagree.symm

variable (uuids) in
/-- A crash of a round leaves a root that holds the state before it, or the state that it
would have returned. -/
theorem Holds.crash (hinjective : Function.Injective py.sha256)
    (h : Holds py c answers files evidence) (hanswers : answers evidence.nextToUtc page)
    (crash : Crash (Node ρ δ)) :
    let round := collectRound py c uuids files evidence (.ok page)
    Holds py c answers (crash.cut .blank round.1 files) evidence ∨
      ∃ evidence', round.2 = .ok evidence' ∧
        Holds py c answers (crash.cut .blank round.1 files) evidence' := by
  intro round
  cases hround : roundOutcome py c evidence (.ok page) with
  | error e =>
    have hnothing : round = ([], .error e) := collectRound_error hround
    left
    rw [hnothing]
    have hcut : crash.cut .blank [] files = files := by simp [Crash.cut]
    rw [hcut]
    exact h
  | ok evidence' =>
    obtain ⟨writes, hwrites, hcollect⟩ := collectRound_ok uuids h.addressed hinjective hround
    have hround' : round = (writes, .ok evidence') := hcollect
    obtain ⟨htemporary, hdestination⟩ := hwrites.scratch
    obtain ⟨done, hdone, hagree⟩ := Crash.cut_agree .blank crash htemporary
      hdestination
    rw [hround']
    rcases (h.replaced hinjective hanswers hround hwrites).2 done hdone with hbefore | hafter
    · exact Or.inl (hbefore.congr hagree.symm)
    · exact Or.inr ⟨evidence', rfl, hafter.congr hagree.symm⟩

/-- What attempts leave holds a state of the walk, the one that a running call goes on
from. -/
def Attempt.Sound (py : Platform ρ δ) (c : Collection)
    (answers : UtcText → List (Row ρ) → Prop) (attempt : Attempt ρ δ) : Prop :=
  ∃ evidence, Holds py c answers attempt.files evidence ∧
    ∀ running, attempt.process = some running → running = evidence

/-- One action keeps an evidence root sound. -/
theorem Attempt.Sound.step (hwhole : c.start % 1000000 = 0)
    (hinjective : Function.Injective py.sha256) {check : Root ρ δ → Except Failure Unit}
    {attempt attempt' : Attempt ρ δ} {action : Action ρ δ} (h : attempt.Sound py c answers)
    (hanswered : action.Answered answers attempt)
    (htaken : attempt.step py c check action = some attempt') :
    attempt'.Sound py c answers := by
  obtain ⟨evidence, hholds, hrunning⟩ := h
  cases action with
  | relist listing =>
    simp only [Attempt.step] at htaken
    split at htaken
    · rename_i hperm
      obtain rfl := Option.some.inj htaken
      exact ⟨evidence, hholds.congr (Agree.of_perm hperm).symm, hrunning⟩
    · cases htaken
  | begin =>
    simp only [Attempt.step] at htaken
    split at htaken
    · cases htaken
    · obtain rfl := Option.some.inj htaken
      refine ⟨evidence, hholds, fun running hload => ?_⟩
      dsimp only at hload
      cases hcheck : check attempt.files with
      | error e =>
        rw [hcheck] at hload
        cases hload
      | ok =>
        rw [hcheck] at hload
        cases hopen : openCollection py c attempt.files with
        | error e =>
          rw [show (Except.ok () >>= fun _ => openCollection py c attempt.files) = _ from hopen]
            at hload
          cases hload
        | ok loaded =>
          rw [show (Except.ok () >>= fun _ => openCollection py c attempt.files) = _ from hopen]
            at hload
          obtain rfl : loaded = running := Option.some.inj hload
          simp only [openCollection, Except.bind_eq_ok] at hopen
          obtain ⟨-, -, -, -, hloaded⟩ := hopen
          rw [loadCollectionEvidence_holds hwhole hinjective hholds] at hloaded
          exact (Except.ok.inj hloaded).symm
  | round uuids answer =>
    simp only [Attempt.step] at htaken
    split at htaken
    · cases htaken
    · rename_i running hprocess
      obtain rfl := hrunning running hprocess
      split at htaken
      · cases htaken
      · obtain rfl := Option.some.inj htaken
        cases hround : roundOutcome py c running answer with
        | error e =>
          rw [collectRound_error hround]
          exact ⟨running, hholds, fun _ hnone => by cases hnone⟩
        | ok evidence' =>
          obtain ⟨-, page, -, rfl, -, -⟩ := roundOutcome_cases hround
          have hanswers := hanswered running page hprocess rfl
          have hholds' := hholds.round uuids hinjective hanswers hround
          obtain ⟨writes, -, hcollect⟩ :=
            collectRound_ok uuids hholds.addressed hinjective hround
          rw [hcollect] at hholds' ⊢
          exact ⟨evidence', hholds', fun _ hsome => (Option.some.inj hsome).symm⟩
  | crash uuids page crash =>
    simp only [Attempt.step] at htaken
    split at htaken
    · cases htaken
    · rename_i running hprocess
      obtain rfl := hrunning running hprocess
      split at htaken
      · cases htaken
      · obtain rfl := Option.some.inj htaken
        have hanswers := hanswered running hprocess
        rcases hholds.crash uuids hinjective hanswers crash with
          hbefore | ⟨evidence', -, hafter⟩
        · exact ⟨running, hbefore, fun _ hnone => by cases hnone⟩
        · exact ⟨evidence', hafter, fun _ hnone => by cases hnone⟩
  | stop =>
    obtain rfl := Option.some.inj htaken
    exact ⟨evidence, hholds, fun _ hnone => by cases hnone⟩

/-- What attempts leave of a fresh root is sound, however they were crashed. -/
theorem Attempted.sound (hwhole : c.start % 1000000 = 0)
    (hinjective : Function.Injective py.sha256) {check : Root ρ δ → Except Failure Unit}
    {attempt : Attempt ρ δ} (h : Attempted py c check answers attempt) :
    attempt.Sound py c answers := by
  induction h with
  | fresh => exact ⟨_, Holds.empty, fun _ hnone => by cases hnone⟩
  | step action _ answered taken ih => exact ih.step hwhole hinjective answered taken

end Runs

end AutoBit.Data
