import AutoBit.Data.Collection
import Mathlib.Data.List.ReduceOption

/-!
# The evidence of a paper candle cache before its first checkpoint

Before it collects, the paper source refuses a root without a checkpoint that holds anything
but readable pages and snapshots of one chain. What the collector itself leaves is refused in
one case: a process was killed while a write of the first round had its scratch file open. The
scratch file stays, and every later attempt on the root is refused.
-/

namespace AutoBit.Data

open AutoBit.Library

section Checking

variable {ρ δ : Type} [DecidableEq δ] (py : Platform ρ δ)

/-- One round of the loop of `_validate_checkpointless_paper_evidence`: a snapshot is read back,
a page is only checked. -/
def paperEntry (files : Root ρ δ) (identity : Identity δ) (name : FileName δ) :
    Node ρ δ → Except Failure (Option (CollectionEvidence δ))
  | .irregular => .error (.value "paper evidence namespace contains an invalid artifact")
  | .file _ =>
    match name with
    | .snapshot hash => do
      let evidence ← orphanEvidence py files identity hash
        "paper orphan collection snapshot evidence"
      return some evidence
    | .page hash => do
      match ← readHashedJson py files (.page hash) hash "paper orphan page evidence" with
      | .page _ => return none
      | _ => .error (.value "paper orphan page evidence is malformed")
    | _ => .error (.value "paper evidence namespace contains unknown evidence")

/-- `_validate_checkpointless_paper_evidence`. -/
def validateCheckpointlessPaperEvidence (identity : Identity δ) (files : Root ρ δ) :
    Except Failure Unit := do
  if (files.lookup .checkpoint).isSome then return ()
  else
    let found ← files.entries.mapM fun entry => paperEntry py files identity entry.1 entry.2
    let snapshots := found.reduceOption
    match snapshots.argmax fun evidence => evidence.pages.length with
    | none => return ()
    | some tip =>
      reject (¬snapshots.all (isSnapshotPrefix · tip))
        (.value "paper collection evidence has ambiguous snapshot chains")

end Checking

section Loading

variable {ρ δ : Type} [DecidableEq ρ] [DecidableEq δ] (py : Platform ρ δ) (c : Collection)

/-- `_PublicPaperCandleSource._load_range`, up to the columns of its frame. -/
def loadRange (fetch : ℕ → UtcText → Except Failure (List (Row ρ)))
    (uuids : ℕ → FileName δ → ℕ) (fuel : ℕ) (files : Root ρ δ) :
    Root ρ δ × Option (Except Failure (CandleFrame ρ × CollectionEvidence δ)) :=
  match validateCheckpointlessPaperEvidence py (c.identity py) files with
  | .error e => (files, some (.error e))
  | .ok () => collectEvidenceRange py c fetch uuids fuel files

end Loading

/-! ## What is accepted -/

/-- A name that the collector gives to no file. -/
def FileName.IsForeign {δ : Type} : FileName δ → Prop
  | .other _ => True
  | _ => False

/-- A root that has a checkpoint, or no scratch file. -/
def Unspoiled {ρ δ : Type} [DecidableEq δ] (files : Root ρ δ) : Prop :=
  FileName.checkpoint ∈ files ∨ Clean FileName.IsTemporary files

section Accepting

variable {ρ δ : Type} [DecidableEq δ] {py : Platform ρ δ} {c : Collection}
  {answers : UtcText → List (Row ρ) → Prop} {files : Root ρ δ} {evidence : CollectionEvidence δ}

/-- An entry of the files is found under its name. -/
theorem mem_of_entry {name : FileName δ} {node : Node ρ δ} (h : ⟨name, node⟩ ∈ files.entries) :
    name ∈ files ∧ files.lookup name = some node := by
  have hlookup : files.lookup name = some node := AList.mem_lookup_iff.mpr h
  refine ⟨?_, hlookup⟩
  by_contra hnone
  rw [AList.lookup_eq_none.mpr hnone] at hlookup
  cases hlookup

/-- Without a checkpoint every snapshot is one of a state on the way. -/
theorem Holds.before (h : Holds py c answers files evidence)
    (hcheckpoint : FileName.checkpoint ∉ files) : SnapshotsBefore py c answers files evidence := by
  rcases h.latest with ⟨-, hbefore⟩ | ⟨-, hstored⟩
  · exact hbefore
  · rw [Stored, AList.lookup_eq_none.mpr hcheckpoint] at hstored
    cases hstored

variable (py files) in
/-- A scratch file is refused, whatever it holds. -/
theorem paperEntry_scratch (identity : Identity δ) {name : FileName δ} (h : name.IsTemporary)
    (node : Node ρ δ) : ∃ text, paperEntry py files identity name node = .error (.value text) := by
  cases name with
  | temporary destination uuid => cases node <;> exact ⟨_, rfl⟩
  | checkpoint | snapshot | page | other => cases h

/-- A name of the collector that is no scratch name is accepted, and a snapshot is read back as
a state on the way. -/
theorem paperEntry_own (hwhole : c.start % 1000000 = 0)
    (hinjective : Function.Injective py.sha256) (h : Holds py c answers files evidence)
    (hown : Clean FileName.IsForeign files) (hcheckpoint : FileName.checkpoint ∉ files)
    {entry : Sigma fun _ : FileName δ => Node ρ δ} (hentry : entry ∈ files.entries)
    (hname : ¬entry.1.IsTemporary) :
    paperEntry py files (c.identity py) entry.1 entry.2 =
      .ok ((snapshotHashFromName entry.1).bind fun hash =>
        (orphanEvidence py files (c.identity py) hash
          "orphan collection snapshot evidence").toOption) := by
  obtain ⟨name, node⟩ := entry
  obtain ⟨hmem, hnode⟩ := mem_of_entry hentry
  cases name with
  | snapshot hash =>
    have hpresent : files.lookup (.snapshot hash) ≠ none := by simp [hnode]
    obtain ⟨payload, rfl, -⟩ := h.addressed.snapshot hash node hnode
    obtain ⟨earlier, hwalked, hlater, hpages, rfl⟩ := h.before hcheckpoint hash hpresent
    have horphan := orphanEvidence_earlier hwhole hinjective h hwalked hlater hpages hpresent
    simp [paperEntry, horphan, snapshotHashFromName, Except.toOption, Bind.bind, Except.bind,
      Pure.pure, Except.pure]
  | page hash =>
    obtain ⟨rows, rfl, hhash⟩ := h.addressed.page hash node hnode
    have hread := readHashedJson_stored py "paper orphan page evidence" hnode hhash (by simp)
    simp [paperEntry, hread, snapshotHashFromName, Bind.bind, Except.bind, Pure.pure, Except.pure]
  | checkpoint => exact absurd hmem hcheckpoint
  | temporary destination uuid => exact absurd trivial hname
  | other name => exact absurd trivial (hown _ hmem)

/-- What the collector leaves is accepted when it has a checkpoint or no scratch file. -/
theorem validateCheckpointlessPaperEvidence_accepts (hwhole : c.start % 1000000 = 0)
    (hinjective : Function.Injective py.sha256) (h : Holds py c answers files evidence)
    (hown : Clean FileName.IsForeign files) (hunspoiled : Unspoiled files) :
    validateCheckpointlessPaperEvidence py (c.identity py) files = .ok () := by
  by_cases hcheckpoint : FileName.checkpoint ∈ files
  · have hsome : (files.lookup .checkpoint).isSome = true := AList.lookup_isSome.mpr hcheckpoint
    simp only [validateCheckpointlessPaperEvidence, hsome, if_true]
    rfl
  have hclean := hunspoiled.resolve_left hcheckpoint
  have hnone : files.lookup .checkpoint = none := AList.lookup_eq_none.mpr hcheckpoint
  have hread : (files.entries.mapM fun entry => paperEntry py files (c.identity py) entry.1 entry.2)
      = .ok (files.entries.map fun entry => (snapshotHashFromName entry.1).bind fun hash =>
        (orphanEvidence py files (c.identity py) hash
          "orphan collection snapshot evidence").toOption) := by
    refine mapM_eq_ok.mpr (List.forall₂_map_right_iff.mpr (List.forall₂_same.mpr ?_))
    intro entry hentry
    apply paperEntry_own hwhole hinjective h hown hcheckpoint hentry
    exact hclean _ (mem_of_entry hentry).1
  -- the snapshots are the candidates of the recovery, which finds one chain
  have hsnapshots : (files.entries.map fun entry => (snapshotHashFromName entry.1).bind fun hash =>
      (orphanEvidence py files (c.identity py) hash
        "orphan collection snapshot evidence").toOption).reduceOption =
      recoveryCandidates py files (c.identity py) := by
    simp [recoveryCandidates, List.reduceOption, List.filterMap_map, List.filterMap_filterMap,
      AList.keys, List.keys]
  have hrecovered :=
    recoverUncheckpointedEvidence_holds hwhole hinjective h (h.before hcheckpoint)
  simp only [validateCheckpointlessPaperEvidence, hnone, Option.isSome_none, Bool.false_eq_true,
    if_false, Except.bind_eq_ok]
  refine ⟨_, hread, ?_⟩
  rw [hsnapshots]
  unfold recoverUncheckpointedEvidence at hrecovered
  cases htip : (recoveryCandidates py files (c.identity py)).argmax
      fun candidate => candidate.pages.length with
  | none => rfl
  | some tip =>
    simp only [htip, Except.bind_eq_ok, reject_eq_ok] at hrecovered
    obtain ⟨_, hprefix, -⟩ := hrecovered
    exact reject_eq_ok.mpr hprefix

/-- What the collector leaves is refused with a `ValueError` when it has a scratch file and no
checkpoint. -/
theorem validateCheckpointlessPaperEvidence_refuses (hwhole : c.start % 1000000 = 0)
    (hinjective : Function.Injective py.sha256) (h : Holds py c answers files evidence)
    (hown : Clean FileName.IsForeign files) (hspoiled : ¬Unspoiled files) :
    ∃ text, validateCheckpointlessPaperEvidence py (c.identity py) files =
      .error (.value text) := by
  obtain ⟨hcheckpoint, hscratch⟩ := not_or.mp hspoiled
  have hnone : files.lookup .checkpoint = none := AList.lookup_eq_none.mpr hcheckpoint
  simp only [validateCheckpointlessPaperEvidence, hnone, Option.isSome_none, Bool.false_eq_true,
    if_false]
  cases hread : files.entries.mapM
    (fun entry => paperEntry py files (c.identity py) entry.1 entry.2) with
  | error e =>
    obtain ⟨entry, hentry, herror⟩ := mapM_eq_error hread
    by_cases hname : entry.1.IsTemporary
    · obtain ⟨text, hrefused⟩ := paperEntry_scratch py files (c.identity py) hname entry.2
      obtain rfl : Failure.value text = e := Except.error.inj (hrefused.symm.trans herror)
      exact ⟨text, rfl⟩
    · rw [paperEntry_own hwhole hinjective h hown hcheckpoint hentry hname] at herror
      cases herror
  | ok found =>
    simp only [Clean, not_forall, not_not] at hscratch
    obtain ⟨name, hname, htemporary⟩ := hscratch
    obtain ⟨node, hnode⟩ := Option.isSome_iff_exists.mp (AList.lookup_isSome.mpr hname)
    obtain ⟨read, -, haccepted⟩ := forall₂_exists_right (mapM_eq_ok.mp hread)
      (AList.mem_lookup_iff.mp hnode)
    obtain ⟨text, hrefused⟩ := paperEntry_scratch py files (c.identity py) htemporary node
    rw [hrefused] at haccepted
    cases haccepted

/-- Exactly the spoiled roots are refused. -/
theorem validateCheckpointlessPaperEvidence_iff (hwhole : c.start % 1000000 = 0)
    (hinjective : Function.Injective py.sha256) (h : Holds py c answers files evidence)
    (hown : Clean FileName.IsForeign files) :
    validateCheckpointlessPaperEvidence py (c.identity py) files = .ok () ↔ Unspoiled files := by
  constructor
  · intro haccepted
    by_contra hspoiled
    obtain ⟨text, hrefused⟩ :=
      validateCheckpointlessPaperEvidence_refuses hwhole hinjective h hown hspoiled
    rw [hrefused] at haccepted
    cases haccepted
  · exact validateCheckpointlessPaperEvidence_accepts hwhole hinjective h hown

end Accepting

/-! ## What rounds and crashes leave -/

section Leaving

variable {ρ δ : Type} [DecidableEq ρ] [DecidableEq δ] {py : Platform ρ δ} {c : Collection}
  {answers : UtcText → List (Row ρ) → Prop} {files listing : Root ρ δ}
  {evidence evidence' : CollectionEvidence δ} {uuids : FileName δ → ℕ} {page : List (Row ρ)}
  {writes : List (AtomicWrite (FileName δ) (Node ρ δ))}

omit [DecidableEq ρ] in
/-- The writes of a round: the page and the snapshot, then the checkpoint. -/
theorem RoundWrites.snoc (h : RoundWrites py uuids files page evidence' writes) :
    ∃ before, writes = before ++
        [atomicWrite uuids .checkpoint (.checkpoint (checkpointOf py evidence'))] ∧
      ∀ w ∈ before, w = atomicWrite uuids (.page (py.sha256 (.page page))) (.page page) ∨
        w = atomicWrite uuids (.snapshot (stateHash py evidence'))
          (.state (statePayloadFromEvidence evidence')) := by
  obtain ⟨pageWrites, snapshotWrites, hpage, hsnapshot, rfl⟩ := h
  refine ⟨pageWrites ++ snapshotWrites, (List.append_assoc _ _ _).symm, fun w hw => ?_⟩
  rcases List.mem_append.mp hw with hin | hin
  · rcases hpage with ⟨rfl, -⟩ | ⟨-, rfl⟩
    · cases hin
    · exact Or.inl (List.mem_singleton.mp hin)
  · rcases hsnapshot with ⟨rfl, -⟩ | ⟨-, rfl⟩
    · cases hin
    · exact Or.inr (List.mem_singleton.mp hin)

omit [DecidableEq ρ] in
/-- In an empty root a round makes all of its writes. -/
theorem RoundWrites.length_of_empty (h : RoundWrites py uuids ∅ page evidence' writes) :
    writes.length = 3 := by
  obtain ⟨pageWrites, snapshotWrites, hpage, hsnapshot, rfl⟩ := h
  rcases hpage with ⟨-, hfound⟩ | ⟨-, rfl⟩
  · cases hfound
  · rcases hsnapshot with ⟨-, hfound⟩ | ⟨-, rfl⟩
    · cases hfound
    · rfl

omit [DecidableEq ρ] in
/-- Only a whole round writes the checkpoint. -/
theorem RoundWrites.checkpoint_last (h : RoundWrites py uuids files page evidence' writes) :
    (∃ w ∈ writes, w.destination = .checkpoint) ∧
      ∀ count < writes.length, ∀ w ∈ writes.take count, w.destination ≠ .checkpoint := by
  obtain ⟨before, rfl, hbefore⟩ := h.snoc
  constructor
  · exact ⟨_, List.mem_append_right before (List.mem_singleton_self _), rfl⟩
  intro count hcount w hw
  have hwithin : count ≤ before.length := by
    rw [List.length_append, List.length_singleton] at hcount
    omega
  rw [List.take_append_of_le_length hwithin] at hw
  rcases hbefore w (List.mem_of_mem_take hw) with rfl | rfl <;> rintro ⟨⟩

omit [DecidableEq ρ] in
/-- No write of a round uses a foreign name. -/
theorem RoundWrites.own (h : RoundWrites py uuids files page evidence' writes) :
    (∀ w ∈ writes, ¬w.temporary.IsForeign) ∧ ∀ w ∈ writes, ¬w.destination.IsForeign := by
  obtain ⟨before, rfl, hbefore⟩ := h.snoc
  constructor <;>
  · intro w hw
    rcases List.mem_append.mp hw with hin | hlast
    · rcases hbefore w hin with rfl | rfl <;> exact id
    · obtain rfl := List.mem_singleton.mp hlast
      exact id

omit [DecidableEq ρ] in
/-- A cut round keeps a checkpoint. -/
theorem checkpoint_mem_cut (htemporary : ∀ w ∈ writes, w.temporary.IsTemporary)
    (hdestination : ∀ w ∈ writes, ¬w.destination.IsTemporary) (crash : Crash (Node ρ δ))
    (h : FileName.checkpoint ∈ files) : FileName.checkpoint ∈ crash.cut .blank writes files := by
  obtain ⟨done, -, hagree⟩ := @Crash.cut_agree _ _ _ FileName.IsTemporary files Node.blank crash
    writes htemporary hdestination
  apply (hagree.mem_iff id).mpr
  exact mem_replaceAll.mpr (Or.inl h)

omit [DecidableEq ρ] in
/-- A finished round leaves a checkpoint. -/
theorem RoundWrites.checkpoint_mem (h : RoundWrites py uuids files page evidence' writes)
    (root : Root ρ δ) : FileName.checkpoint ∈ commit .blank writes root := by
  obtain ⟨htemporary, hdestination⟩ := h.scratch
  have hagree := @commit_agree _ _ _ FileName.IsTemporary root root Node.blank writes htemporary
    hdestination (Agree.refl root)
  apply (hagree.mem_iff id).mpr
  exact mem_replaceAll.mpr (Or.inr h.checkpoint_last.1)

omit [DecidableEq ρ] in
/-- A crash of a round spoils a root exactly when it kills a write of the first round in
between the creation of its scratch file and the renaming. -/
theorem Crash.cut_unspoiled (crash : Crash (Node ρ δ))
    (hwrites : writes = [] ∨ ∃ evidence', RoundWrites py uuids files page evidence' writes)
    (h : Unspoiled files) :
    Unspoiled (crash.cut .blank writes files) ↔
      FileName.checkpoint ∈ files ∨ ¬(crash.writes < writes.length ∧ crash.InWindow) := by
  rcases hwrites with rfl | ⟨evidence', hwrites⟩
  · have hcut : crash.cut .blank [] files = files := by simp [Crash.cut]
    simp [hcut, h]
  obtain ⟨htemporary, hdestination⟩ := hwrites.scratch
  by_cases hcheckpoint : FileName.checkpoint ∈ files
  · have hkept := checkpoint_mem_cut htemporary hdestination crash hcheckpoint
    simp [Unspoiled, hcheckpoint, hkept]
  have hclean := crash.cut_clean .blank htemporary hdestination
    (h.resolve_left hcheckpoint)
  rw [Unspoiled, hclean]
  constructor
  · rintro (hmade | houtside)
    · refine Or.inr fun hinside => ?_
      -- the checkpoint is the last write, and a killed write has not been renamed
      have hagree := Crash.cut_window files .blank hinside.2 htemporary hdestination
      rcases mem_replaceAll.mp ((hagree.mem_iff id).mp hmade) with hold | ⟨w, hw, hnamed⟩
      · exact hcheckpoint hold
      · exact hwrites.checkpoint_last.2 crash.writes hinside.1 w hw hnamed
    · exact Or.inr houtside
  · rintro (hpresent | houtside)
    · exact absurd hpresent hcheckpoint
    · exact Or.inr houtside

end Leaving

/-! ## Attempts that check first -/

section Checked

variable {ρ δ : Type} [DecidableEq ρ] [DecidableEq δ] {py : Platform ρ δ} {c : Collection}
  {answers : UtcText → List (Row ρ) → Prop} {attempt attempt' : Attempt ρ δ}

/-- A root that the paper source collects into: no foreign name, and a call runs only where
nothing is spoiled. -/
structure Attempt.Settled (attempt : Attempt ρ δ) : Prop where
  own : Clean FileName.IsForeign attempt.files
  unspoiled : ∀ running, attempt.process = some running → Unspoiled attempt.files

omit [DecidableEq ρ] in
/-- Another listing shows the same names. -/
theorem unspoiled_perm {files listing : Root ρ δ} (h : listing.entries.Perm files.entries) :
    Unspoiled listing ↔ Unspoiled files := by
  have hnames : ∀ name, name ∈ listing ↔ name ∈ files := fun name => by
    rw [← AList.lookup_isSome, ← AList.lookup_isSome, AList.perm_lookup h]
  simp only [Unspoiled, Clean, hnames]

/-- A round makes its writes or, when it raises, none. -/
theorem collectRound_writes {files : Root ρ δ} {evidence : CollectionEvidence δ}
    (hinjective : Function.Injective py.sha256) (h : Holds py c answers files evidence)
    (uuids : FileName δ → ℕ) (page : List (Row ρ)) :
    (collectRound py c uuids files evidence (.ok page)).1 = [] ∨
      ∃ evidence', RoundWrites py uuids files page evidence'
        (collectRound py c uuids files evidence (.ok page)).1 := by
  cases hround : roundOutcome py c evidence (.ok page) with
  | error e => exact Or.inl (congrArg Prod.fst (collectRound_error hround))
  | ok evidence' =>
    obtain ⟨writes, hwrites, hcollect⟩ := collectRound_ok uuids h.addressed hinjective hround
    rw [hcollect]
    exact Or.inr ⟨evidence', hwrites⟩

/-- One action keeps a root settled. -/
theorem Attempt.Settled.step (hwhole : c.start % 1000000 = 0)
    (hinjective : Function.Injective py.sha256) {action : Action ρ δ}
    (hsound : attempt.Sound py c answers) (h : attempt.Settled)
    (htaken : attempt.step py c (validateCheckpointlessPaperEvidence py (c.identity py)) action =
      some attempt') : attempt'.Settled := by
  obtain ⟨evidence, hholds, hrunning⟩ := hsound
  cases action with
  | relist listing =>
    simp only [Attempt.step] at htaken
    split at htaken
    · rename_i hperm
      obtain rfl := Option.some.inj htaken
      constructor
      · intro name hname
        rw [← AList.lookup_isSome, AList.perm_lookup hperm, AList.lookup_isSome] at hname
        exact h.own name hname
      · exact fun running hprocess => (unspoiled_perm hperm).mpr (h.unspoiled running hprocess)
    · cases htaken
  | begin =>
    simp only [Attempt.step] at htaken
    split at htaken
    · cases htaken
    · obtain rfl := Option.some.inj htaken
      refine ⟨h.own, fun running hload => ?_⟩
      have hopened := Except.toOption_eq_some.mp hload
      simp only [Except.bind_eq_ok] at hopened
      obtain ⟨_, haccepted, -⟩ := hopened
      exact (validateCheckpointlessPaperEvidence_iff hwhole hinjective hholds h.own).mp haccepted
  | round uuids answer =>
    simp only [Attempt.step] at htaken
    split at htaken
    · cases htaken
    · rename_i running hprocess
      obtain rfl := hrunning running hprocess
      split at htaken
      · cases htaken
      · obtain rfl := Option.some.inj htaken
        cases hround : roundOutcome py c running answer with
        | error e =>
          rw [collectRound_error hround]
          exact ⟨h.own, fun _ hnone => by cases hnone⟩
        | ok evidence' =>
          obtain ⟨-, page, -, rfl, -, -⟩ := roundOutcome_cases hround
          obtain ⟨writes, hwrites, hcollect⟩ :=
            collectRound_ok uuids hholds.addressed hinjective hround
          have hown := @commit_clean_of _ _ _ FileName.IsForeign attempt.files .blank writes
            hwrites.own.1 hwrites.own.2 h.own
          rw [hcollect]
          -- the last write of the round is a checkpoint
          exact ⟨hown, fun _ _ => Or.inl (hwrites.checkpoint_mem attempt.files)⟩
  | crash uuids page crash =>
    simp only [Attempt.step] at htaken
    split at htaken
    · cases htaken
    · rename_i running hprocess
      obtain rfl := hrunning running hprocess
      split at htaken
      · cases htaken
      · obtain rfl := Option.some.inj htaken
        refine ⟨?_, fun _ hnone => by cases hnone⟩
        rcases collectRound_writes hinjective hholds uuids page with hnone | ⟨evidence', hwrites⟩
        · rw [hnone]
          simpa [Crash.cut] using h.own
        · exact @Crash.cut_clean_of _ _ _ FileName.IsForeign attempt.files .blank crash
            _ hwrites.own.1 hwrites.own.2 h.own
  | stop =>
    obtain rfl := Option.some.inj htaken
    exact ⟨h.own, fun _ hnone => by cases hnone⟩

/-- What attempts of the paper source leave is settled. -/
theorem Attempted.settled (hwhole : c.start % 1000000 = 0)
    (hinjective : Function.Injective py.sha256)
    (h : Attempted py c (validateCheckpointlessPaperEvidence py (c.identity py)) answers
      attempt) : attempt.Settled := by
  induction h with
  | fresh => exact ⟨fun name hname => absurd hname (AList.notMem_empty name),
      fun _ hnone => by cases hnone⟩
  | step action before _ taken ih =>
    exact ih.step hwhole hinjective (before.sound hwhole hinjective) taken

/-- A spoiled root without a call stays one. -/
theorem Attempt.spoiled_step (hwhole : c.start % 1000000 = 0)
    (hinjective : Function.Injective py.sha256) {action : Action ρ δ}
    (hsound : attempt.Sound py c answers) (hsettled : attempt.Settled)
    (hspoiled : ¬Unspoiled attempt.files)
    (htaken : attempt.step py c (validateCheckpointlessPaperEvidence py (c.identity py)) action =
      some attempt') : attempt'.process = none ∧ ¬Unspoiled attempt'.files := by
  have hidle : attempt.process = none := by
    cases hprocess : attempt.process with
    | none => rfl
    | some running => exact absurd (hsettled.unspoiled running hprocess) hspoiled
  cases action with
  | relist listing =>
    simp only [Attempt.step] at htaken
    split at htaken
    · rename_i hperm
      obtain rfl := Option.some.inj htaken
      exact ⟨hidle, fun h => hspoiled ((unspoiled_perm hperm).mp h)⟩
    · cases htaken
  | begin =>
    obtain ⟨evidence, hholds, -⟩ := hsound
    obtain ⟨text, hrefused⟩ := validateCheckpointlessPaperEvidence_refuses hwhole hinjective
      hholds hsettled.own hspoiled
    simp only [Attempt.step, hidle, hrefused] at htaken
    obtain rfl := Option.some.inj htaken
    exact ⟨rfl, hspoiled⟩
  | round uuids answer => simp [Attempt.step, hidle] at htaken
  | crash uuids page crash => simp [Attempt.step, hidle] at htaken
  | stop =>
    obtain rfl := Option.some.inj htaken
    exact ⟨rfl, hspoiled⟩

omit [DecidableEq ρ] [DecidableEq δ] in
/-- Every answer is one of any kind. -/
theorem Action.answered_any {action : Action ρ δ} :
    action.Answered (fun _ _ => True) attempt := by
  cases action with
  | round uuids answer => exact fun _ _ _ _ => trivial
  | crash uuids page crash => exact fun _ _ => trivial
  | relist | begin | stop => trivial

/-- More actions only lead to another result of attempts. -/
theorem Attempted.run {check : Root ρ δ → Except Failure Unit} {actions : List (Action ρ δ)}
    (h : Attempted py c check (fun _ _ => True) attempt)
    (hrun : actions.foldlM (Attempt.step py c check) attempt = some attempt') :
    Attempted py c check (fun _ _ => True) attempt' := by
  induction actions generalizing attempt with
  | nil =>
    obtain rfl := Option.some.inj hrun
    exact h
  | cons action actions ih =>
    rw [List.foldlM_cons] at hrun
    obtain ⟨next, htaken, hrest⟩ := Option.bind_eq_some_iff.mp hrun
    exact ih (Attempted.step action h Action.answered_any htaken) hrest

/-- Whatever is tried on a spoiled root, nothing is collected into it any more. -/
theorem Attempted.spoiled_run (hwhole : c.start % 1000000 = 0)
    (hinjective : Function.Injective py.sha256) {actions : List (Action ρ δ)}
    (h : Attempted py c (validateCheckpointlessPaperEvidence py (c.identity py))
      (fun _ _ => True) attempt)
    (hspoiled : ¬Unspoiled attempt.files)
    (hrun : actions.foldlM (Attempt.step py c
      (validateCheckpointlessPaperEvidence py (c.identity py))) attempt = some attempt') :
    ¬Unspoiled attempt'.files ∧ (actions ≠ [] → attempt'.process = none) := by
  induction actions generalizing attempt with
  | nil =>
    obtain rfl := Option.some.inj hrun
    exact ⟨hspoiled, fun hnone => absurd rfl hnone⟩
  | cons action actions ih =>
    rw [List.foldlM_cons] at hrun
    obtain ⟨next, htaken, hrest⟩ := Option.bind_eq_some_iff.mp hrun
    obtain ⟨hidle, hstays⟩ := Attempt.spoiled_step hwhole hinjective
      (h.sound hwhole hinjective) (h.settled hwhole hinjective) hspoiled htaken
    have hnext := Attempted.step action h Action.answered_any htaken
    obtain ⟨hleft, hprocess⟩ := ih hnext hstays hrest
    refine ⟨hleft, fun _ => ?_⟩
    cases actions with
    | nil =>
      obtain rfl := Option.some.inj hrest
      exact hidle
    | cons => exact hprocess (List.cons_ne_nil _ _)

/-- The paper candle cache is spoiled by one kind of crash only, and then for good. Of what
attempts on a fresh root leave, the check refuses exactly the roots with a scratch file and no
checkpoint. A crash leaves one exactly when it kills a write of the first round in between the
creation of its scratch file and the renaming. From then on whatever is tried fails the check.
Every other root loads as a fresh one does from the same server, and a spoiled one raises and
stays as it is. -/
theorem paper_cache_spoiled_exactly (py : Platform ρ δ) (c : Collection)
    (hinjective : Function.Injective py.sha256) (hstart : c.start % 1000000 = 0) :
    let check : Root ρ δ → Except Failure Unit :=
      validateCheckpointlessPaperEvidence py (c.identity py)
    (∀ attempt, Attempted py c check (fun _ _ => True) attempt →
      (check attempt.files = .ok () ↔ Unspoiled attempt.files)) ∧
    (∀ attempt evidence uuids page (crash : Crash (Node ρ δ)),
      Attempted py c check (fun _ _ => True) attempt →
      attempt.process = some evidence → evidence.complete = false →
      let writes := (collectRound py c uuids attempt.files evidence (.ok page)).1
      (check (crash.cut .blank writes attempt.files) = .ok () ↔
        FileName.checkpoint ∈ attempt.files ∨
          ¬(crash.writes < writes.length ∧ crash.InWindow))) ∧
    (∀ attempt (actions : List (Action ρ δ)) attempt',
      Attempted py c check (fun _ _ => True) attempt →
      check attempt.files ≠ .ok () →
      actions.foldlM (Attempt.step py c check) attempt = some attempt' →
      check attempt'.files ≠ .ok () ∧ (actions ≠ [] → attempt'.process = none)) ∧
    (∀ (server : UtcText → List (Row ρ)) attempt uuids uuids' fuel,
      Attempted py c check (fun boundary page => page = server boundary) attempt →
      enoughRounds c ≤ fuel →
      let load := loadRange py c (fun _ boundary => .ok (server boundary))
      (Unspoiled attempt.files →
        (load uuids fuel attempt.files).2 = (load uuids' fuel ∅).2) ∧
      (¬Unspoiled attempt.files →
        ∃ text, load uuids fuel attempt.files =
          (attempt.files, some (.error (.value text))))) := by
  intro check
  have hexact : ∀ {answers : UtcText → List (Row ρ) → Prop} {attempt : Attempt ρ δ},
      Attempted py c check answers attempt →
        (check attempt.files = .ok () ↔ Unspoiled attempt.files) := by
    intro answers attempt hattempted
    obtain ⟨_, hholds, -⟩ := hattempted.sound hstart hinjective
    exact validateCheckpointlessPaperEvidence_iff hstart hinjective hholds
      (hattempted.settled hstart hinjective).own
  refine ⟨fun attempt hattempted => hexact hattempted, ?_, ?_, ?_⟩
  · intro attempt evidence uuids page crash hattempted hprocess hopen writes
    have hcrashed := Attempted.step (.crash uuids page crash) hattempted Action.answered_any
      (Attempt.step_crash uuids page crash hprocess hopen)
    rw [hexact hcrashed]
    obtain ⟨held, hholds, hrunning⟩ := hattempted.sound hstart hinjective
    obtain rfl := hrunning evidence hprocess
    have hunspoiled := (hattempted.settled hstart hinjective).unspoiled evidence hprocess
    exact Crash.cut_unspoiled crash (collectRound_writes hinjective hholds uuids page) hunspoiled
  · intro attempt actions attempt' hattempted hrefused hrun
    have hspoiled : ¬Unspoiled attempt.files := fun h => hrefused ((hexact hattempted).mpr h)
    obtain ⟨hleft, hidle⟩ := hattempted.spoiled_run hstart hinjective hspoiled hrun
    exact ⟨fun h => hleft ((hexact (hattempted.run hrun)).mp h), hidle⟩
  · intro server attempt uuids uuids' fuel hattempted hfuel load
    obtain ⟨held, hholds, -⟩ := hattempted.sound hstart hinjective
    have hown := (hattempted.settled hstart hinjective).own
    constructor
    · intro hunspoiled
      have haccepted : check attempt.files = .ok () := (hexact hattempted).mpr hunspoiled
      have hfresh : check ∅ = .ok () := rfl
      simp only [load, loadRange, check] at haccepted hfresh ⊢
      rw [haccepted, hfresh]
      exact collectEvidenceRange_resumed hstart hinjective server uuids uuids' hfuel hholds
    · intro hspoiled
      obtain ⟨text, hrefused⟩ :=
        validateCheckpointlessPaperEvidence_refuses hstart hinjective hholds hown hspoiled
      refine ⟨text, ?_⟩
      simp only [load, loadRange, hrefused]

end Checked

/-- The killed call has left the scratch file of its checkpoint. -/
theorem paper_cache_spoiled_exactly_killed :
    let check : Root Unit ℕ → Except Failure Unit :=
      validateCheckpointlessPaperEvidence numbering (firstHours.identity numbering)
    let load := loadRange numbering firstHours (fun _ _ => .ok firstPage)
    check killed.files ≠ .ok () ∧
      (∀ (actions : List (Action Unit ℕ)) attempt',
        actions.foldlM (Attempt.step numbering firstHours check) killed = some attempt' →
        check attempt'.files ≠ .ok ()) ∧
      ∃ text, load (fun _ _ => 0) 14401 killed.files =
        (killed.files, some (.error (.value text))) := by
  intro check load
  have hspoils := paper_cache_spoiled_exactly numbering firstHours numbering_injective (by decide)
  have hbegun : Attempted numbering firstHours check (fun _ _ => True)
      ⟨∅, some (newCollectionEvidence (firstHours.identity numbering))⟩ :=
    attempted_begun check (fun _ _ => True) rfl
  have hkilled : Attempted numbering firstHours check (fun _ _ => True) killed :=
    Attempted.step (.crash (fun _ => 0) firstPage ⟨2, 1, none, false⟩) hbegun
      (fun _ _ => trivial) (Attempt.step_crash _ _ _ rfl rfl)
  have hlength : (collectRound numbering firstHours (fun _ => 0) ∅
      (newCollectionEvidence (firstHours.identity numbering)) (.ok firstPage)).1.length = 3 := by
    have haccepted : (roundOutcome numbering firstHours
        (newCollectionEvidence (firstHours.identity numbering)) (.ok firstPage)).isOk = true := by
      decide +kernel
    obtain ⟨_, hholds, -⟩ := hbegun.sound (by decide) numbering_injective
    cases hround : roundOutcome numbering firstHours
        (newCollectionEvidence (firstHours.identity numbering)) (.ok firstPage) with
    | error e =>
      rw [hround] at haccepted
      cases haccepted
    | ok evidence' =>
      obtain ⟨writes, hwrites, hcollect⟩ :=
        collectRound_ok (fun _ => 0) hholds.addressed numbering_injective hround
      rw [hcollect]
      exact hwrites.length_of_empty
  have hrefused : check killed.files ≠ .ok () := by
    intro haccepted
    dsimp only [killed] at haccepted
    have hcut := hspoils.2.1 _ _ (fun _ => 0) firstPage ⟨2, 1, none, false⟩ hbegun rfl rfl
    dsimp only at hcut
    have hwindow := hcut.mp haccepted
    rw [hlength] at hwindow
    rcases hwindow with hpresent | houtside
    · exact absurd hpresent (AList.notMem_empty _)
    · exact houtside ⟨by decide, by decide⟩
  have hserved : Attempted numbering firstHours check (fun _ page => page = firstPage) killed :=
    Attempted.step (.crash (fun _ => 0) firstPage ⟨2, 1, none, false⟩)
      (attempted_begun check _ rfl) (fun _ _ => rfl) (Attempt.step_crash _ _ _ rfl rfl)
  refine ⟨hrefused, ?_, ?_⟩
  · intro actions attempt' hrun
    exact (hspoils.2.2.1 killed actions attempt' hkilled hrefused hrun).1
  · refine (hspoils.2.2.2 (fun _ => firstPage) killed (fun _ _ => 0) (fun _ _ => 0) 14401 hserved
      (by decide)).2 ?_
    exact fun h => hrefused ((hspoils.1 killed hkilled).mpr h)

end AutoBit.Data
