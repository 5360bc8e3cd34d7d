import AutoBit.Data.Durability
import Mathlib.Logic.Equiv.List
import Mathlib.Tactic.DeriveEncodable

/-!
# A collection survives crashes, terminates and resumes

After a crash a root is loaded as the state before the page or the state after it. A call
that does not raise terminates, since the request boundary moves back by whole seconds.
Against a server with fixed pages, a collection that was interrupted and resumed ends as an
uninterrupted one does.
-/

namespace AutoBit.Data

open AutoBit.Library

section Termination

variable {ρ δ : Type} [DecidableEq ρ] [DecidableEq δ] {py : Platform ρ δ} {c : Collection}
  {files : Root ρ δ} {evidence evidence' : CollectionEvidence δ}
  {answer : Except Failure (List (Row ρ))}

omit [DecidableEq ρ] [DecidableEq δ] in
/-- A round ends the collection on an empty page or moves the boundary back, and then ends
it exactly when the boundary has passed the start. -/
theorem roundOutcome_boundary (hwhole : c.start % 1000000 = 0)
    (h : roundOutcome py c evidence answer = .ok evidence') :
    answer = .ok [] ∧ evidence'.complete = true ∨
      ∃ boundary boundary', evidence.nextToUtc = .stamp boundary ∧
        evidence'.nextToUtc = .stamp boundary' ∧ boundary' < boundary ∧
        (evidence'.complete = true ↔ boundary' * 1000000 < c.start) := by
  obtain ⟨boundary, page, hnext, rfl, -, ⟨rfl, rfl⟩ | ⟨oldest, -, -, hless, rfl⟩⟩ :=
    roundOutcome_cases h
  · exact Or.inl ⟨rfl, rfl⟩
  · refine Or.inr ⟨boundary, oldest / 1000000, hnext, rfl, by omega, ?_⟩
    rw [persisted_complete, decide_eq_true_iff]
    omega

/-- Rounds that suffice from a boundary: one for each second down to the start. -/
def roundsFrom (c : Collection) (boundary : ℤ) : ℕ := (boundary - c.start / 1000000).toNat + 1

/-- The loop does not run out of rounds, whatever the client answers. -/
theorem collectLoop_terminates (hwhole : c.start % 1000000 = 0)
    (fetch : ℕ → UtcText → Except Failure (List (Row ρ))) (uuids : ℕ → FileName δ → ℕ)
    {fuel : ℕ} (round : ℕ) (hpositive : 0 < fuel)
    (hfuel : ∀ boundary, evidence.nextToUtc = .stamp boundary → roundsFrom c boundary ≤ fuel) :
    (collectLoop py c fetch uuids fuel round files evidence).2 ≠ none := by
  induction fuel generalizing round files evidence with
  | zero => omega
  | succ fuel ih =>
    rw [collectLoop]
    cases hround : collectRound py c (uuids round) files evidence
      (fetch round evidence.nextToUtc) with
    | mk writes result =>
      cases result with
      | error e => simp
      | ok advanced =>
        have houtcome := roundOutcome_of_collectRound hround
        dsimp only
        split
        · simp
        · rename_i hopen
          rcases roundOutcome_boundary hwhole houtcome with ⟨-, hcomplete⟩ |
            ⟨boundary, boundary', hnext, hnext', hless, hpast⟩
          · exact absurd hcomplete hopen
          · have hinside : c.start ≤ boundary' * 1000000 := by
              by_contra hpassed
              exact hopen (hpast.mpr (by omega))
            have hrounds := hfuel boundary hnext
            simp only [roundsFrom] at hrounds ih
            apply ih
            · omega
            · intro other hother
              obtain rfl := UtcText.stamp.inj (hnext'.symm.trans hother)
              omega

omit [DecidableEq ρ] [DecidableEq δ] in
/-- A state that the validator accepts does not ask beyond the end of the range. -/
theorem validateBoundaries_le {label : String} {complete : Bool} {start boundary final : ℤ}
    {pages : List (RawPageEvidence δ)}
    (h : validateBoundaries label complete start boundary pages = .ok final) :
    final ≤ boundary := by
  induction pages generalizing boundary with
  | nil => exact le_of_eq (Except.ok.inj h).symm
  | cons page pages ih =>
    simp only [validateBoundaries, Except.bind_eq_ok, reject_eq_ok] at h
    obtain ⟨requestTo, -, -, hsame, hrest⟩ := h
    obtain rfl := not_not.mp hsame
    split at hrest
    · simp only [Except.bind_eq_ok, reject_eq_ok] at hrest
      obtain ⟨-, -, hpages⟩ := hrest
      exact ih hpages
    · simp only [Except.bind_eq_ok, reject_eq_ok] at hrest
      obtain ⟨-, -, oldest, -, -, hless, -, -, -, -, hpages⟩ := hrest
      have := ih hpages
      omega

omit [DecidableEq ρ] in
/-- An accepted state document asks for nothing beyond the end of the range. -/
theorem evidenceFromStatePayload_boundary {state : StatePayload δ} {path : FileName δ}
    {hash : δ} {label : String} {boundary : ℤ}
    (h : evidenceFromStatePayload py files state (c.identity py) path hash label =
      .ok evidence) (hnext : evidence.nextToUtc = .stamp boundary) :
    boundary ≤ c.finish / 1000000 := by
  simp only [evidenceFromStatePayload, Except.bind_eq_ok, Except.pure_eq_ok] at h
  obtain ⟨_, -, _, -, _, hvalid, pages, -, rfl⟩ := h
  have hstate : state.nextToUtc = .stamp boundary := hnext
  simp only [validatePaginationState, Except.bind_eq_ok, reject_eq_ok] at hvalid
  obtain ⟨-, -, start, -, final, hfinal, expected, hexpected, next, hparse, -, hsame, -⟩ := hvalid
  obtain rfl : c.finish / 1000000 * 1000000 = final := Except.ok.inj hfinal
  rw [hstate] at hparse
  obtain rfl : boundary * 1000000 = next := Except.ok.inj hparse
  have hle := validateBoundaries_le hexpected
  have heq := not_not.mp hsame
  omega

omit [DecidableEq ρ] in
/-- Whatever a root holds, a load that succeeds asks for nothing beyond the range. -/
theorem loadCollectionEvidence_boundary {boundary : ℤ}
    (h : loadCollectionEvidence py files (c.identity py) = .ok evidence)
    (hnext : evidence.nextToUtc = .stamp boundary) : boundary ≤ c.finish / 1000000 := by
  unfold loadCollectionEvidence at h
  split at h
  · unfold recoverUncheckpointedEvidence at h
    dsimp only at h
    split at h
    · obtain rfl := Except.ok.inj h
      obtain rfl : c.finish / 1000000 = boundary := UtcText.stamp.inj hnext
      exact le_rfl
    · rename_i tip htip
      simp only [Except.bind_eq_ok, Except.pure_eq_ok] at h
      obtain ⟨-, -, rfl⟩ := h
      have hmem := List.argmax_mem htip
      simp only [recoveryCandidates, List.mem_filterMap] at hmem
      obtain ⟨hash, -, hread⟩ := hmem
      cases horphan : orphanEvidence py files (c.identity py) hash
        "orphan collection snapshot evidence" with
      | error e =>
        rw [horphan] at hread
        cases hread
      | ok found =>
        rw [horphan] at hread
        obtain rfl : found = tip := Option.some.inj hread
        unfold orphanEvidence at horphan
        obtain ⟨contents, -, hcontents⟩ := Except.bind_eq_ok.mp horphan
        cases contents with
        | state payload => exact evidenceFromStatePayload_boundary hcontents hnext
        | page | checkpoint | config | fragment => cases hcontents
  · simp only [Except.bind_eq_ok] at h
    obtain ⟨-, -, -, -, contents, -, hcontents⟩ := h
    cases contents with
    | state payload =>
      obtain ⟨-, -, hevidence⟩ := Except.bind_eq_ok.mp hcontents
      exact evidenceFromStatePayload_boundary hevidence hnext
    | page | checkpoint | config | fragment => cases hcontents
  · cases h
  · cases h
  · cases h

/-- Rounds that suffice for every call on the range: one for each second of it. -/
def enoughRounds (c : Collection) : ℕ := ((c.finish - c.start) / 1000000).toNat + 1

/-- The rounds from a boundary are no more than enough. -/
theorem roundsFrom_le {boundary : ℤ} (hwhole : c.start % 1000000 = 0)
    (h : boundary ≤ c.finish / 1000000) : roundsFrom c boundary ≤ enoughRounds c := by
  unfold roundsFrom enoughRounds
  omega

/-- A call does not run out of rounds, whatever its root holds and the client answers. -/
theorem collectEvidenceRange_terminates (hwhole : c.start % 1000000 = 0)
    (fetch : ℕ → UtcText → Except Failure (List (Row ρ))) (uuids : ℕ → FileName δ → ℕ)
    {fuel : ℕ} (hfuel : enoughRounds c ≤ fuel) :
    (collectEvidenceRange py c fetch uuids fuel files).2 ≠ none := by
  unfold collectEvidenceRange
  cases hopen : openCollection py c files with
  | error e => simp
  | ok evidence =>
    simp only [openCollection, Except.bind_eq_ok] at hopen
    obtain ⟨-, -, -, -, hload⟩ := hopen
    dsimp only
    split
    · simp
    · have hpositive : 0 < fuel := by
        unfold enoughRounds at hfuel
        omega
      have hloop : (collectLoop py c fetch uuids fuel 0 files evidence).2 ≠ none :=
        collectLoop_terminates hwhole fetch uuids 0 hpositive fun boundary hnext =>
          (roundsFrom_le hwhole (loadCollectionEvidence_boundary hload hnext)).trans hfuel
      intro hnone
      exact hloop (Option.map_eq_none_iff.mp hnone)

end Termination

section Resumption

variable {ρ δ : Type} [DecidableEq ρ] [DecidableEq δ] {py : Platform ρ δ} {c : Collection}
  {answers : UtcText → List (Row ρ) → Prop} {files files' : Root ρ δ}
  {evidence evidence' : CollectionEvidence δ}

/-- The loop of a collection is the walk from the state that its root holds, and it leaves
a root that holds the state it returns. -/
theorem collectLoop_walk (hinjective : Function.Injective py.sha256)
    {fetch : ℕ → UtcText → Except Failure (List (Row ρ))}
    (hfetch : ∀ round boundary page, fetch round boundary = .ok page → answers boundary page)
    (uuids : ℕ → FileName δ → ℕ) (fuel round : ℕ) (h : Holds py c answers files evidence) :
    (collectLoop py c fetch uuids fuel round files evidence).2 =
        walk py c fetch fuel round evidence ∧
      ∀ final, walk py c fetch fuel round evidence = some (.ok final) →
        Holds py c answers (collectLoop py c fetch uuids fuel round files evidence).1 final := by
  induction fuel generalizing round files evidence with
  | zero => exact ⟨rfl, fun _ hnone => by cases hnone⟩
  | succ fuel ih =>
    rw [collectLoop, walk]
    cases houtcome : roundOutcome py c evidence (fetch round evidence.nextToUtc) with
    | error e =>
      rw [collectRound_error houtcome]
      refine ⟨rfl, fun _ hfinal => ?_⟩
      cases hfinal
    | ok advanced =>
      obtain ⟨-, page, -, hpage, -, -⟩ := roundOutcome_cases houtcome
      have hanswers := hfetch round evidence.nextToUtc page hpage
      rw [hpage] at houtcome ⊢
      have hholds := h.round (uuids round) hinjective hanswers houtcome
      obtain ⟨writes, -, hcollect⟩ :=
        collectRound_ok (uuids round) h.addressed hinjective houtcome
      rw [hcollect] at hholds ⊢
      dsimp only at hholds ⊢
      split
      · refine ⟨rfl, fun final hfinal => ?_⟩
        obtain rfl : advanced = final := Except.ok.inj (Option.some.inj hfinal)
        exact hholds
      · exact ih (round + 1) hholds

omit [DecidableEq ρ] [DecidableEq δ] in
/-- A walk that has ended takes no notice of more rounds. -/
theorem walk_mono {fetch : ℕ → UtcText → Except Failure (List (Row ρ))} {fuel fuel' round : ℕ}
    {result : Except Failure (CollectionEvidence δ)} (hfuel : fuel ≤ fuel')
    (h : walk py c fetch fuel round evidence = some result) :
    walk py c fetch fuel' round evidence = some result := by
  induction fuel generalizing fuel' round evidence with
  | zero => cases h
  | succ fuel ih =>
    obtain ⟨fuel', rfl⟩ := Nat.exists_eq_add_of_le' hfuel
    rw [Nat.add_comm fuel' (fuel + 1), Nat.add_right_comm] at *
    rw [walk] at h ⊢
    cases houtcome : roundOutcome py c evidence (fetch round evidence.nextToUtc) with
    | error e =>
      rw [houtcome] at h
      exact h
    | ok advanced =>
      rw [houtcome] at h
      dsimp only at h ⊢
      split
      · rename_i hcomplete
        rwa [if_pos hcomplete] at h
      · rename_i hopen
        rw [if_neg hopen] at h
        exact ih (by omega) h

omit [DecidableEq ρ] [DecidableEq δ] in
/-- Against a fixed server the number of the round does not matter. -/
theorem walk_fixed (server : UtcText → List (Row ρ)) (fuel round round' : ℕ) :
    walk py c (fun _ boundary => .ok (server boundary)) fuel round evidence =
      walk py c (fun _ boundary => .ok (server boundary)) fuel round' evidence := by
  induction fuel generalizing round round' evidence with
  | zero => rfl
  | succ fuel ih =>
    rw [walk, walk]
    cases roundOutcome py c evidence (.ok (server evidence.nextToUtc)) with
    | error e => rfl
    | ok advanced =>
      dsimp only
      rw [ih (round + 1) (round' + 1)]

/-- Where the walk from a state ends: at the state itself when it is complete. -/
def settle (py : Platform ρ δ) (c : Collection) (server : UtcText → List (Row ρ)) (fuel : ℕ)
    (evidence : CollectionEvidence δ) : Option (Except Failure (CollectionEvidence δ)) :=
  if evidence.complete then some (.ok evidence)
  else walk py c (fun _ boundary => .ok (server boundary)) fuel 0 evidence

omit [DecidableEq ρ] [DecidableEq δ] in
/-- The answers of a fixed server lead from the beginning to where a later state leads. -/
theorem settle_of_later (server : UtcText → List (Row ρ)) (fuel : ℕ)
    (h : Later py c (fun boundary page => page = server boundary) evidence evidence') :
    ∃ rounds, settle py c server (fuel + rounds) evidence = settle py c server fuel evidence' := by
  induction h using Relation.ReflTransGen.head_induction_on with
  | refl => exact ⟨0, rfl⟩
  | @head evidence next hstep _ ih =>
    obtain ⟨rounds, hrounds⟩ := ih
    obtain ⟨page, rfl, hround⟩ := hstep
    obtain ⟨-, -, -, -, hopen, -⟩ := roundOutcome_cases hround
    refine ⟨rounds + 1, ?_⟩
    rw [← hrounds, settle, if_neg (by simp [hopen]), ← Nat.add_assoc, walk, hround]
    dsimp only
    rw [settle, walk_fixed server _ (0 + 1) 0]

omit [DecidableEq ρ] [DecidableEq δ] in
/-- Page records tell their rows in one way only. -/
theorem records_unique (hinjective : Function.Injective py.sha256)
    {records : List (RawPageEvidence δ)} {pages pages' : List (List (Row ρ))}
    (h : List.Forall₂ (Records py) records pages)
    (h' : List.Forall₂ (Records py) records pages') : pages = pages' := by
  induction h generalizing pages' with
  | nil =>
    cases h'
    rfl
  | cons hrecord _ ih =>
    cases h' with
    | cons hrecord' hrest' =>
      have hhash := hrecord.hash.trans hrecord'.hash.symm
      obtain rfl := Contents.page.inj (hinjective hhash)
      rw [ih hrest']

/-- Roots that hold the same state give the same frame of it. -/
theorem collectionResult_congr (hinjective : Function.Injective py.sha256)
    (h : Holds py c answers files evidence) (h' : Holds py c answers files' evidence) :
    collectionResult py c files evidence = collectionResult py c files' evidence := by
  obtain ⟨pages, hpages, hrecords⟩ := loadRawPages_stored h.pages
  obtain ⟨pages', hpages', hrecords'⟩ := loadRawPages_stored h'.pages
  have hsame := records_unique hinjective hrecords hrecords'
  rw [collectionResult, collectionResult, hpages, hpages', hsame]

/-- A call on a root that holds a state ends as the walk from that state does. -/
theorem collectEvidenceRange_settle (hwhole : c.start % 1000000 = 0)
    (hinjective : Function.Injective py.sha256) (server : UtcText → List (Row ρ))
    (uuids : ℕ → FileName δ → ℕ) (fuel : ℕ) {loaded : CollectionEvidence δ}
    (h : Holds py c (fun boundary page => page = server boundary) files evidence)
    (hopen : openCollection py c files = .ok loaded) :
    ∃ root, (∀ final, settle py c server fuel evidence = some (.ok final) →
        Holds py c (fun boundary page => page = server boundary) root final) ∧
      (collectEvidenceRange py c (fun _ boundary => .ok (server boundary)) uuids fuel files).2 =
        (settle py c server fuel evidence).map fun result =>
          result.bind (collectionResult py c root) := by
  have hload := loadCollectionEvidence_holds hwhole hinjective h
  have hsame : loaded = evidence := by
    simp only [openCollection, Except.bind_eq_ok] at hopen
    obtain ⟨-, -, -, -, hloaded⟩ := hopen
    exact Except.ok.inj (hloaded.symm.trans hload)
  subst hsame
  rw [collectEvidenceRange, hopen]
  dsimp only
  by_cases hcomplete : loaded.complete = true
  · rw [settle, if_pos hcomplete, if_pos hcomplete]
    refine ⟨files, fun final hfinal => ?_, rfl⟩
    obtain rfl := Except.ok.inj (Option.some.inj hfinal)
    exact h
  · rw [settle, if_neg hcomplete, if_neg hcomplete]
    have hfetch : ∀ (round : ℕ) boundary page,
        (Except.ok (server boundary) : Except Failure (List (Row ρ))) = .ok page →
          page = server boundary := fun _ _ _ heq => (Except.ok.inj heq).symm
    obtain ⟨houtcome, hfinal⟩ := collectLoop_walk hinjective hfetch uuids fuel 0 h
    exact ⟨_, hfinal, by rw [houtcome]⟩

omit [DecidableEq ρ] in
/-- On a sound root only the arguments of a call decide whether it can begin. -/
theorem openCollection_holds (hwhole : c.start % 1000000 = 0)
    (hinjective : Function.Injective py.sha256) (h : Holds py c answers files evidence)
    (h' : Holds py c answers files' evidence') :
    openCollection py c files = .ok evidence ∧ openCollection py c files' = .ok evidence' ∨
      ∃ e, openCollection py c files = .error e ∧ openCollection py c files' = .error e := by
  unfold openCollection
  rw [loadCollectionEvidence_holds hwhole hinjective h,
    loadCollectionEvidence_holds hwhole hinjective h']
  unfold reject
  by_cases hconfig : c.config ≠ none ∧ c.config ≠ some c.clientConfig
  · rw [if_pos hconfig]
    exact Or.inr ⟨_, rfl, rfl⟩
  · rw [if_neg hconfig]
    by_cases hrange : c.finish < c.start
    · rw [if_pos hrange]
      exact Or.inr ⟨_, rfl, rfl⟩
    · rw [if_neg hrange]
      exact Or.inl ⟨rfl, rfl⟩

/-- A collection that was interrupted and resumed ends as an uninterrupted one. -/
theorem collectEvidenceRange_resumed (hwhole : c.start % 1000000 = 0)
    (hinjective : Function.Injective py.sha256) (server : UtcText → List (Row ρ))
    (uuids uuids' : ℕ → FileName δ → ℕ) {fuel : ℕ} (hfuel : enoughRounds c ≤ fuel)
    (h : Holds py c (fun boundary page => page = server boundary) files evidence) :
    (collectEvidenceRange py c (fun _ boundary => .ok (server boundary)) uuids fuel files).2 =
      (collectEvidenceRange py c (fun _ boundary => .ok (server boundary)) uuids' fuel ∅).2 := by
  have hempty : Holds py c (fun boundary page => page = server boundary) ∅
      (newCollectionEvidence (c.identity py)) := Holds.empty
  rcases openCollection_holds hwhole hinjective h hempty with
    ⟨hopen, hopenNew⟩ | ⟨e, herror, herrorNew⟩
  · obtain ⟨root, hroot, hresult⟩ :=
      collectEvidenceRange_settle hwhole hinjective server uuids fuel h hopen
    obtain ⟨rootNew, hrootNew, hresultNew⟩ :=
      collectEvidenceRange_settle hwhole hinjective server uuids' fuel hempty hopenNew
    have hterminates : (collectEvidenceRange py c (fun _ boundary => .ok (server boundary)) uuids'
        fuel ∅).2 ≠ none := collectEvidenceRange_terminates hwhole
      (fun _ boundary => .ok (server boundary)) uuids' hfuel
    obtain ⟨rounds, hrounds⟩ := settle_of_later server fuel h.walked
    have hsame : settle py c server fuel evidence =
        settle py c server fuel (newCollectionEvidence (c.identity py)) := by
      rw [← hrounds]
      cases hended : settle py c server fuel (newCollectionEvidence (c.identity py)) with
      | none =>
        rw [hresultNew, hended] at hterminates
        exact absurd rfl hterminates
      | some result =>
        have hopenNew' : (newCollectionEvidence (c.identity py)).complete = false := rfl
        rw [settle, if_neg (by simp [hopenNew'])] at hended ⊢
        exact walk_mono (Nat.le_add_right fuel rounds) hended
    rw [hresult, hresultNew, hsame]
    cases hended : settle py c server fuel (newCollectionEvidence (c.identity py)) with
    | none => rfl
    | some result =>
      cases result with
      | error e => rfl
      | ok final =>
        have hcongr := collectionResult_congr hinjective (hroot final (hsame.trans hended))
          (hrootNew final hended)
        exact congrArg some hcongr
  · rw [collectEvidenceRange, herror, collectEvidenceRange, herrorNew]

/-- Collection evidence survives crashes. After any attempts and a crash of a round at any
point, the next load gives the state before the page or the one after it, in whatever order
the directory is listed. A round ends the collection or moves the boundary back, so that a
call ends whatever the client answers. And against a server with a fixed page for every
boundary, a call on what interrupted attempts left ends as one on an empty root. -/
theorem collection_evidence_survives_crashes (py : Platform ρ δ) (c : Collection)
    (hinjective : Function.Injective py.sha256) (hstart : c.start % 1000000 = 0) :
    (∀ attempt evidence uuids page (crash : Crash (Node ρ δ)) (listing : Root ρ δ),
      Attempted py c (fun _ => .ok ()) (fun _ _ => True) attempt →
      attempt.process = some evidence → evidence.complete = false →
      let round := collectRound py c uuids attempt.files evidence (.ok page)
      listing.entries.Perm (crash.cut .blank round.1 attempt.files).entries →
      loadCollectionEvidence py listing (c.identity py) = .ok evidence ∨
        ∃ evidence', round.2 = .ok evidence' ∧
          loadCollectionEvidence py listing (c.identity py) = .ok evidence') ∧
    (∀ uuids files evidence answer evidence',
      (collectRound py c uuids files evidence answer).2 = .ok evidence' →
      answer = .ok [] ∧ evidence'.complete = true ∨
        ∃ boundary boundary', evidence.nextToUtc = .stamp boundary ∧
          evidence'.nextToUtc = .stamp boundary' ∧ boundary' < boundary ∧
          (evidence'.complete = true ↔ boundary' * 1000000 < c.start)) ∧
    (∀ fetch uuids fuel files, enoughRounds c ≤ fuel →
      (collectEvidenceRange py c fetch uuids fuel files).2 ≠ none) ∧
    (∀ (server : UtcText → List (Row ρ)) attempt uuids uuids' fuel,
      Attempted py c (fun _ => .ok ()) (fun boundary page => page = server boundary) attempt →
      enoughRounds c ≤ fuel →
      (collectEvidenceRange py c (fun _ boundary => .ok (server boundary)) uuids fuel
          attempt.files).2 =
        (collectEvidenceRange py c (fun _ boundary => .ok (server boundary)) uuids' fuel
          ∅).2) := by
  refine ⟨?_, ?_, ?_, ?_⟩
  · intro attempt evidence uuids page crash listing hattempted hprocess _ round hperm
    obtain ⟨held, hholds, hrunning⟩ := hattempted.sound hstart hinjective
    obtain rfl := hrunning evidence hprocess
    have hlisted : Agree FileName.IsTemporary listing (crash.cut .blank round.1 attempt.files) :=
      Agree.of_perm hperm
    rcases hholds.crash uuids hinjective trivial crash with
      hbefore | ⟨evidence', hround, hafter⟩
    · exact Or.inl (loadCollectionEvidence_holds hstart hinjective (hbefore.congr hlisted.symm))
    · exact Or.inr ⟨evidence', hround,
        loadCollectionEvidence_holds hstart hinjective (hafter.congr hlisted.symm)⟩
  · intro uuids files evidence answer evidence' hround
    have houtcome : roundOutcome py c evidence answer = .ok evidence' :=
      roundOutcome_of_collectRound (Prod.ext rfl hround)
    exact roundOutcome_boundary hstart houtcome
  · intro fetch uuids fuel files hfuel
    exact collectEvidenceRange_terminates hstart fetch uuids hfuel
  · intro server attempt uuids uuids' fuel hattempted hfuel
    obtain ⟨held, hholds, -⟩ := hattempted.sound hstart hinjective
    exact collectEvidenceRange_resumed hstart hinjective server uuids uuids' hfuel hholds

end Resumption

section Numbering

instance encodableChar : Encodable Char :=
  Encodable.ofLeftInverse Char.toNat Char.ofNat Char.ofNat_toNat

instance encodableString : Encodable String :=
  Encodable.ofLeftInverse String.toList String.ofList fun _ => String.ofList_toList

instance encodableExcept {ε α : Type} [Encodable ε] [Encodable α] : Encodable (Except ε α) :=
  Encodable.ofLeftInverse (fun | .error e => Sum.inl e | .ok a => Sum.inr a)
    (fun | .inl e => .error e | .inr a => .ok a) (by rintro (_ | _) <;> rfl)

deriving instance Encodable for Failure, UtcText, CandleText, Row, DataConfig, FileName,
  RawPageEvidence, Identity, StatePayload, Checkpoint, Contents

/-- A platform that numbers the documents and accepts every row. -/
def numbering : Platform Unit ℕ := ⟨Encodable.encode, fun _ => .ok ()⟩

/-- The numbering gives different contents different digests. -/
theorem numbering_injective : Function.Injective numbering.sha256 :=
  Encodable.encode_injective

/-- The first four hours of the epoch. -/
def firstHours : Collection where
  sourceUrl := "https://api.upbit.com/v1/candles/minutes/240"
  clientConfig := ⟨"KRW-BTC", 240, 200, 7⟩
  config := none
  start := 0
  finish := hours 4

/-- A page with the one candle of the first hours. -/
def firstPage : List (Row Unit) := [⟨some ⟨"1970-01-01T00:00:00", .ok 0⟩, ()⟩]

/-- A call whose first round was killed while the checkpoint's scratch file was filled. -/
def killed : Attempt Unit ℕ where
  files := (⟨2, 1, none, false⟩ : Crash (Node Unit ℕ)).cut .blank
    (collectRound numbering firstHours (fun _ => 0) ∅
      (newCollectionEvidence (firstHours.identity numbering)) (.ok firstPage)).1 ∅
  process := none

/-- A call that has just begun on an empty root. -/
theorem attempted_begun (check : Root Unit ℕ → Except Failure Unit)
    (answers : UtcText → List (Row Unit) → Prop) (hcheck : check ∅ = .ok ()) :
    Attempted numbering firstHours check answers
      ⟨∅, some (newCollectionEvidence (firstHours.identity numbering))⟩ := by
  refine Attempted.step .begin Attempted.fresh trivial ?_
  simp only [Attempt.step, Attempt.fresh, hcheck]
  rfl

/-- After a crash in the first round, the evidence is either new or that of the round. -/
theorem collection_evidence_survives_crashes_first_page :
    (loadCollectionEvidence numbering killed.files (firstHours.identity numbering) =
        .ok (newCollectionEvidence (firstHours.identity numbering)) ∨
      ∃ evidence', (collectRound numbering firstHours (fun _ => 0) ∅
          (newCollectionEvidence (firstHours.identity numbering)) (.ok firstPage)).2 =
            .ok evidence' ∧
        loadCollectionEvidence numbering killed.files (firstHours.identity numbering) =
          .ok evidence') ∧
    (collectEvidenceRange numbering firstHours (fun _ _ => .ok firstPage) (fun _ _ => 0)
      14401 killed.files).2 ≠ none ∧
    (collectEvidenceRange numbering firstHours (fun _ _ => .ok firstPage) (fun _ _ => 0)
        14401 killed.files).2 =
      (collectEvidenceRange numbering firstHours (fun _ _ => .ok firstPage) (fun _ _ => 0)
        14401 ∅).2 := by
  have hsurvives := collection_evidence_survives_crashes numbering firstHours
    numbering_injective (by decide)
  have hrounds : enoughRounds firstHours ≤ 14401 := by decide
  refine ⟨?_, ?_, ?_⟩
  · exact hsurvives.1 ⟨∅, some (newCollectionEvidence (firstHours.identity numbering))⟩
      (newCollectionEvidence (firstHours.identity numbering)) (fun _ => 0) firstPage
      ⟨2, 1, none, false⟩ killed.files (attempted_begun _ _ rfl) rfl rfl (List.Perm.refl _)
  · exact hsurvives.2.2.1 (fun _ _ => .ok firstPage) (fun _ _ => 0) 14401 killed.files hrounds
  · have hkilled : Attempted numbering firstHours (fun _ => .ok ())
        (fun _ page => page = firstPage) killed :=
      Attempted.step (.crash (fun _ => 0) firstPage ⟨2, 1, none, false⟩)
        (attempted_begun _ _ rfl) (fun _ _ => rfl) (Attempt.step_crash _ _ _ rfl rfl)
    exact hsurvives.2.2.2 (fun _ => firstPage) killed (fun _ _ => 0) (fun _ _ => 0) 14401
      hkilled hrounds

end Numbering

end AutoBit.Data
