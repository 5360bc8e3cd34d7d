import Mathlib.Data.List.AList
import Mathlib.Tactic.Common

/-!
# Directories, atomic replacement and crashes

A directory maps names to contents and lists them in some order. A file is replaced
atomically by writing a scratch file beside it and renaming that over it. A crash cuts a
list of such writes at any system call. Up to scratch files it leaves what a prefix of the
list leaves, and a scratch file of its own only when it falls between the creation and
the renaming of one.
-/

namespace AutoBit.Library

universe u v

variable {κ : Type u} {ν : Type v}

/-- A directory: each name stands for one node, in the order of a listing. -/
abbrev Files (κ : Type u) (ν : Type v) := AList fun _ : κ => ν

/-- The system calls that change a directory. -/
inductive Call (κ : Type u) (ν : Type v) where
  | write (name : κ) (contents : ν)
  | rename (source target : κ)
  | unlink (name : κ)

/-- The name that a call puts contents under. -/
def Call.target : Call κ ν → Option κ
  | .write name _ => some name
  | .rename _ target => some target
  | .unlink _ => none

/-- One atomic replacement: the scratch file, the file it replaces and the new contents. -/
structure AtomicWrite (κ : Type u) (ν : Type v) where
  temporary : κ
  destination : κ
  contents : ν

/-- Where a list of atomic writes is cut short: the writes and the calls of the next one
that were finished, what a cut write has left, and whether an exception ended it, so that
the scratch file is unlinked, or a kill. -/
structure Crash (ν : Type v) where
  writes : ℕ
  calls : ℕ
  torn : Option ν
  raised : Bool

/-- A kill that finds the scratch file created and not yet renamed. -/
def Crash.InWindow (crash : Crash ν) : Prop :=
  crash.raised = false ∧ (crash.calls = 1 ∨ crash.calls = 2)

instance (crash : Crash ν) : Decidable crash.InWindow := inferInstanceAs (Decidable (_ ∧ _))

/-- The calls of one atomic write: create the scratch file, fill it, rename it over the
destination and unlink what is left of it. -/
def AtomicWrite.calls (blank : ν) (write : AtomicWrite κ ν) : List (Call κ ν) :=
  [.write write.temporary blank, .write write.temporary write.contents,
    .rename write.temporary write.destination, .unlink write.temporary]

/-- The calls of an atomic write that a crash lets happen. -/
def Crash.interrupt (blank : ν) (crash : Crash ν) (write : AtomicWrite κ ν) :
    List (Call κ ν) :=
  (write.calls blank).take crash.calls
    ++ (if crash.calls = 1 then crash.torn.toList.map (.write write.temporary) else [])
    ++ (if crash.raised then [.unlink write.temporary] else [])

variable [DecidableEq κ]

/-- What one call does to the directory. -/
def Call.apply (files : Files κ ν) : Call κ ν → Files κ ν
  | .write name contents => files.insert name contents
  | .rename source target =>
    match files.lookup source with
    | some contents => (files.erase source).insert target contents
    | none => files
  | .unlink name => files.erase name

/-- What a list of calls does to the directory. -/
def runCalls (calls : List (Call κ ν)) (files : Files κ ν) : Files κ ν :=
  calls.foldl Call.apply files

/-- What a list of atomic writes leaves when nothing interrupts it. -/
def commit (blank : ν) (writes : List (AtomicWrite κ ν)) (files : Files κ ν) : Files κ ν :=
  writes.foldl (fun files write => runCalls (write.calls blank) files) files

/-- What a list of atomic writes leaves when a crash cuts it. -/
def Crash.cut (blank : ν) (crash : Crash ν) (writes : List (AtomicWrite κ ν))
    (files : Files κ ν) : Files κ ν :=
  let done := commit blank (writes.take crash.writes) files
  match writes.drop crash.writes with
  | next :: _ => runCalls (crash.interrupt blank next) done
  | [] => done

/-- The purpose of a list of atomic writes: each destination gets its contents. -/
def replaceAll (writes : List (AtomicWrite κ ν)) (files : Files κ ν) : Files κ ν :=
  writes.foldl (fun files write => files.insert write.destination write.contents) files

/-- Two directories agree on every name that is not a scratch name. -/
def Agree (scratch : κ → Prop) (files files' : Files κ ν) : Prop :=
  ∀ name, ¬scratch name → files.lookup name = files'.lookup name

section Agreement

variable {scratch : κ → Prop} {files files' files'' : Files κ ν}

/-- Files agree with themselves. -/
theorem Agree.refl (files : Files κ ν) : Agree scratch files files := fun _ _ => rfl

/-- Agreement of files is symmetric. -/
theorem Agree.symm (h : Agree scratch files files') : Agree scratch files' files :=
  fun name hname => (h name hname).symm

/-- Agreement of files is transitive. -/
theorem Agree.trans (h : Agree scratch files files') (h' : Agree scratch files' files'') :
    Agree scratch files files'' :=
  fun name hname => (h name hname).trans (h' name hname)

/-- Another order of the listing shows the same files. -/
theorem Agree.of_perm (h : files.entries.Perm files'.entries) : Agree scratch files files' :=
  fun _ _ => AList.perm_lookup h

/-- Files that agree still do when both get the same file. -/
theorem Agree.insert (h : Agree scratch files files') (name : κ) (contents : ν) :
    Agree scratch (files.insert name contents) (files'.insert name contents) := by
  intro other hother
  by_cases heq : other = name
  · subst heq
    rw [AList.lookup_insert, AList.lookup_insert]
  · rw [AList.lookup_insert_ne heq, AList.lookup_insert_ne heq]
    exact h other hother

/-- Writing a scratch file changes nothing but scratch files. -/
theorem agree_insert_scratch {name : κ} (hname : scratch name) (contents : ν) :
    Agree scratch (files.insert name contents) files := by
  intro other hother
  have hne : other ≠ name := fun h => hother (h ▸ hname)
  exact AList.lookup_insert_ne hne

/-- Unlinking a scratch file changes nothing but scratch files. -/
theorem agree_erase_scratch {name : κ} (hname : scratch name) :
    Agree scratch (files.erase name) files := by
  intro other hother
  have hne : other ≠ name := fun h => hother (h ▸ hname)
  exact AList.lookup_erase_ne hne

end Agreement

omit [DecidableEq κ] in
/-- A prefix of two lists in a row ends in the first or covers it. -/
theorem prefix_append_cases {α : Type u} {xs ys zs : List α} (h : xs <+: ys ++ zs) :
    xs <+: ys ∨ ∃ rest, xs = ys ++ rest ∧ rest <+: zs := by
  rcases List.prefix_or_prefix_of_prefix h (List.prefix_append ys zs) with hys | ⟨rest, rfl⟩
  · exact Or.inl hys
  · exact Or.inr ⟨rest, rfl, (List.prefix_append_right_inj ys).mp h⟩

section Writes

variable {scratch : κ → Prop} {files files' : Files κ ν} {write : AtomicWrite κ ν}

/-- No calls leave the files alone. -/
@[simp] theorem runCalls_nil : runCalls [] files = files := rfl

/-- The first of the calls is made first. -/
@[simp] theorem runCalls_cons (call : Call κ ν) (calls : List (Call κ ν)) :
    runCalls (call :: calls) files = runCalls calls (call.apply files) := rfl

/-- No writes leave the files alone. -/
@[simp] theorem commit_nil (blank : ν) : commit blank [] files = files := rfl

/-- The first of the writes is made first. -/
@[simp] theorem commit_cons (blank : ν) (writes : List (AtomicWrite κ ν)) :
    commit blank (write :: writes) files =
      commit blank writes (runCalls (write.calls blank) files) := rfl

/-- No replacements leave the files alone. -/
@[simp] theorem replaceAll_nil : replaceAll [] files = files := rfl

/-- Replacements are made one stretch after the other. -/
theorem replaceAll_append (first second : List (AtomicWrite κ ν)) :
    replaceAll (first ++ second) files = replaceAll second (replaceAll first files) :=
  List.foldl_append

/-- The first of the replacements is made first. -/
@[simp] theorem replaceAll_cons (writes : List (AtomicWrite κ ν)) :
    replaceAll (write :: writes) files =
      replaceAll writes (files.insert write.destination write.contents) := rfl

variable (files) in
/-- A finished atomic write leaves the new contents under the destination's name. -/
theorem AtomicWrite.run_agree (blank : ν) (htemporary : scratch write.temporary)
    (hdestination : ¬scratch write.destination) :
    Agree scratch (runCalls (write.calls blank) files)
      (files.insert write.destination write.contents) := by
  have hne : write.temporary ≠ write.destination := fun h => hdestination (h ▸ htemporary)
  simp only [AtomicWrite.calls, runCalls_cons, runCalls_nil]
  have hfilled : Agree scratch
      ((Call.write write.temporary write.contents).apply
        ((Call.write write.temporary blank).apply files)) files :=
    (agree_insert_scratch htemporary _).trans (agree_insert_scratch htemporary _)
  refine (agree_erase_scratch htemporary).trans ?_
  simp only [Call.apply, AList.lookup_insert] at hfilled ⊢
  exact ((agree_erase_scratch htemporary).trans hfilled).insert _ _

variable (files) in
/-- An interrupted atomic write leaves, up to scratch files, the destination as it was
or with its new contents. -/
theorem Crash.interrupt_agree (blank : ν) (crash : Crash ν)
    (htemporary : scratch write.temporary) (hdestination : ¬scratch write.destination) :
    Agree scratch (runCalls (crash.interrupt blank write) files) files ∨
      Agree scratch (runCalls (crash.interrupt blank write) files)
        (files.insert write.destination write.contents) := by
  have hcleanup : ∀ files' : Files κ ν, Agree scratch
      (runCalls (if crash.raised then [.unlink write.temporary] else []) files') files' := by
    intro files'
    split
    · exact agree_erase_scratch htemporary
    · exact Agree.refl files'
  have hsplit : runCalls (crash.interrupt blank write) files =
      runCalls (if crash.raised then [.unlink write.temporary] else [])
        (runCalls ((write.calls blank).take crash.calls
          ++ if crash.calls = 1 then crash.torn.toList.map (.write write.temporary) else [])
          files) := by
    simp [runCalls, Crash.interrupt, List.foldl_append]
  rw [hsplit]
  rcases crash with ⟨writes, calls, torn, raised⟩
  match calls with
  | 0 => exact Or.inl (hcleanup _)
  | 1 =>
    left
    refine (hcleanup _).trans ?_
    cases torn with
    | none => exact agree_insert_scratch htemporary _
    | some contents =>
      exact (agree_insert_scratch htemporary _).trans (agree_insert_scratch htemporary _)
  | 2 =>
    left
    exact (hcleanup _).trans
      ((agree_insert_scratch htemporary _).trans (agree_insert_scratch htemporary _))
  | 3 =>
    right
    refine (hcleanup _).trans ((agree_erase_scratch htemporary).symm.trans ?_)
    exact AtomicWrite.run_agree files blank htemporary hdestination
  | n + 4 =>
    right
    refine (hcleanup _).trans ?_
    simpa [AtomicWrite.calls] using
      AtomicWrite.run_agree files blank htemporary hdestination

/-- Atomic writes through scratch files leave, up to these, every destination replaced. -/
theorem commit_agree (blank : ν) {writes : List (AtomicWrite κ ν)}
    (htemporary : ∀ w ∈ writes, scratch w.temporary)
    (hdestination : ∀ w ∈ writes, ¬scratch w.destination)
    (h : Agree scratch files files') :
    Agree scratch (commit blank writes files) (replaceAll writes files') := by
  induction writes generalizing files files' with
  | nil => exact h
  | cons w writes ih =>
    rw [commit_cons, replaceAll_cons]
    have hw := AtomicWrite.run_agree files blank
      (htemporary w List.mem_cons_self) (hdestination w List.mem_cons_self)
    exact ih (fun x hx => htemporary x (List.mem_cons_of_mem w hx))
      (fun x hx => hdestination x (List.mem_cons_of_mem w hx)) (hw.trans (h.insert _ _))

/-- A crash leaves, up to scratch files, what a prefix of the writes leaves. -/
theorem Crash.cut_agree (blank : ν) (crash : Crash ν) {writes : List (AtomicWrite κ ν)}
    (htemporary : ∀ w ∈ writes, scratch w.temporary)
    (hdestination : ∀ w ∈ writes, ¬scratch w.destination) :
    ∃ done, done <+: writes ∧
      Agree scratch (crash.cut blank writes files) (replaceAll done files) := by
  have htake : ∀ w ∈ writes.take crash.writes, w ∈ writes := fun w => List.mem_of_mem_take
  have hcommit := commit_agree blank
    (fun w hw => htemporary w (htake w hw)) (fun w hw => hdestination w (htake w hw))
    (Agree.refl files)
  unfold Crash.cut
  cases hrest : writes.drop crash.writes with
  | nil => exact ⟨_, List.take_prefix _ _, hcommit⟩
  | cons next rest =>
    have hnext : next ∈ writes := List.mem_of_mem_drop (hrest ▸ List.mem_cons_self)
    rcases crash.interrupt_agree (commit blank (writes.take crash.writes) files)
      blank (htemporary next hnext) (hdestination next hnext) with hbefore | hafter
    · exact ⟨_, List.take_prefix _ _, hbefore.trans hcommit⟩
    · refine ⟨writes.take crash.writes ++ [next], ?_, ?_⟩
      · refine ⟨rest, ?_⟩
        rw [List.append_assoc, List.singleton_append, ← hrest, List.take_append_drop]
      · have hsnoc : replaceAll (writes.take crash.writes ++ [next]) files =
            (replaceAll (writes.take crash.writes) files).insert next.destination
              next.contents :=
          replaceAll_append _ _
        rw [hsnoc]
        exact hafter.trans (hcommit.insert _ _)

/-- What stands under a name still stands there after replacing, or is replaced. -/
theorem mem_replaceAll {writes : List (AtomicWrite κ ν)} {name : κ} :
    name ∈ replaceAll writes files ↔ name ∈ files ∨ ∃ w ∈ writes, w.destination = name := by
  induction writes generalizing files with
  | nil => simp
  | cons w writes ih =>
    rw [replaceAll_cons, ih, AList.mem_insert]
    simp only [List.mem_cons, exists_eq_or_imp, eq_comm (a := name)]
    tauto

/-- Agreeing directories have the same names, up to scratch names. -/
theorem Agree.mem_iff {name : κ} (h : Agree scratch files files') (hname : ¬scratch name) :
    name ∈ files ↔ name ∈ files' := by
  have hlookup := h name hname
  constructor <;> intro hmem <;> by_contra hnone <;>
    rw [← AList.lookup_eq_none] at hnone
  · exact absurd hmem (AList.lookup_eq_none.mp (hlookup.trans hnone))
  · exact absurd hmem (AList.lookup_eq_none.mp (hlookup.symm.trans hnone))

/-! ### Scratch files that are left -/

/-- No scratch file is left in a directory. -/
def Clean (scratch : κ → Prop) (files : Files κ ν) : Prop := ∀ name ∈ files, ¬scratch name

/-- Clean files stay clean when a file that is not scratch is added. -/
theorem Clean.insert {name : κ} {contents : ν} (h : Clean scratch files) (hname : ¬scratch name) :
    Clean scratch (files.insert name contents) := by
  intro other hother
  rcases (AList.mem_insert _).mp hother with rfl | hold
  · exact hname
  · exact h other hold

/-- Files with a scratch file are not clean. -/
theorem not_clean_insert {name : κ} {contents : ν} (hname : scratch name) :
    ¬Clean scratch (files.insert name contents) :=
  fun h => h name ((AList.mem_insert _).mpr (Or.inl rfl)) hname

/-- A directory is clean once its only scratch file is gone. -/
theorem clean_erase_insert {name : κ} {contents : ν} (h : Clean scratch files) :
    Clean scratch ((files.insert name contents).erase name) := by
  intro other hother
  obtain ⟨hne, hmem⟩ := AList.mem_erase.mp hother
  exact h other (((AList.mem_insert _).mp hmem).resolve_left hne)

/-- Clean files stay clean when a file is removed. -/
theorem Clean.erase {name : κ} (h : Clean scratch files) : Clean scratch (files.erase name) :=
  fun other hother => h other (AList.mem_erase.mp hother).2

/-- Calls that put nothing under a scratch name leave a clean directory clean. -/
theorem runCalls_clean {calls : List (Call κ ν)}
    (hcalls : ∀ call ∈ calls, ∀ name, call.target = some name → ¬scratch name)
    (h : Clean scratch files) : Clean scratch (runCalls calls files) := by
  induction calls generalizing files with
  | nil => exact h
  | cons call calls ih =>
    have hcall := hcalls call List.mem_cons_self
    rw [runCalls_cons]
    apply ih fun other hother => hcalls other (List.mem_cons_of_mem call hother)
    cases call with
    | write name contents => exact h.insert (hcall name rfl)
    | rename source target =>
      simp only [Call.apply]
      split
      · exact h.erase.insert (hcall target rfl)
      · exact h
    | unlink name => exact h.erase

/-- A finished atomic write leaves no scratch file. -/
theorem AtomicWrite.run_clean (blank : ν) (hdestination : ¬scratch write.destination)
    (h : Clean scratch files) : Clean scratch (runCalls (write.calls blank) files) := by
  simp only [AtomicWrite.calls, runCalls_cons, runCalls_nil, Call.apply, AList.lookup_insert,
    AList.insert_insert]
  exact ((clean_erase_insert h).insert hdestination).erase

/-- An interrupted atomic write leaves a scratch file exactly when it was killed in between its
creation and its renaming. -/
theorem Crash.interrupt_clean (blank : ν) (crash : Crash ν) (htemporary : scratch write.temporary)
    (hdestination : ¬scratch write.destination) (h : Clean scratch files) :
    Clean scratch (runCalls (crash.interrupt blank write) files) ↔ ¬crash.InWindow := by
  have hne : write.destination ≠ write.temporary := fun heq => hdestination (heq ▸ htemporary)
  have hrenamed : Clean scratch (runCalls ((write.calls blank).take 3) files) := by
    simp only [AtomicWrite.calls, List.take_succ_cons, List.take_zero, runCalls_cons, runCalls_nil,
      Call.apply, AList.lookup_insert, AList.insert_insert]
    exact (clean_erase_insert h).insert hdestination
  rcases crash with ⟨writes, calls, torn, raised⟩
  simp only [Crash.interrupt, Crash.InWindow, runCalls, List.foldl_append]
  match calls with
  | 0 =>
    cases raised
    · simpa using h
    · simpa [Call.apply] using h.erase
  | 1 =>
    cases raised <;> cases torn <;>
      simp [AtomicWrite.calls, Call.apply, clean_erase_insert h, not_clean_insert htemporary]
  | 2 =>
    cases raised <;>
      simp [AtomicWrite.calls, Call.apply, clean_erase_insert h, not_clean_insert htemporary]
  | 3 =>
    cases raised
    · simpa [runCalls] using hrenamed
    · simpa [runCalls, Call.apply] using hrenamed.erase
  | n + 4 =>
    have hall := AtomicWrite.run_clean blank hdestination h
    cases raised
    · simpa [AtomicWrite.calls] using hall
    · simpa [AtomicWrite.calls, Call.apply] using hall.erase

/-- Finished atomic writes leave no scratch file. -/
theorem commit_clean (blank : ν) {writes : List (AtomicWrite κ ν)}
    (hdestination : ∀ w ∈ writes, ¬scratch w.destination) (h : Clean scratch files) :
    Clean scratch (commit blank writes files) := by
  induction writes generalizing files with
  | nil => exact h
  | cons w writes ih =>
    rw [commit_cons]
    exact ih (fun x hx => hdestination x (List.mem_cons_of_mem w hx))
      (AtomicWrite.run_clean blank (hdestination w List.mem_cons_self) h)

/-- A crash leaves a scratch file exactly when it kills a write in between the creation of its
scratch file and the renaming. -/
theorem Crash.cut_clean (blank : ν) (crash : Crash ν) {writes : List (AtomicWrite κ ν)}
    (htemporary : ∀ w ∈ writes, scratch w.temporary)
    (hdestination : ∀ w ∈ writes, ¬scratch w.destination) (h : Clean scratch files) :
    Clean scratch (crash.cut blank writes files) ↔
      ¬(crash.writes < writes.length ∧ crash.InWindow) := by
  have hdone : Clean scratch (commit blank (writes.take crash.writes) files) :=
    commit_clean blank (fun w hw => hdestination w (List.mem_of_mem_take hw)) h
  unfold Crash.cut
  cases hrest : writes.drop crash.writes with
  | nil =>
    have hlength : writes.length ≤ crash.writes := List.drop_eq_nil_iff.mp hrest
    simp [hdone, hlength.not_gt]
  | cons next rest =>
    have hnext : next ∈ writes := List.mem_of_mem_drop (hrest ▸ List.mem_cons_self)
    have hlength : crash.writes < writes.length := by
      by_contra hpast
      rw [List.drop_eq_nil_iff.mpr (not_lt.mp hpast)] at hrest
      cases hrest
    simp only [hlength, true_and]
    exact crash.interrupt_clean blank (htemporary next hnext) (hdestination next hnext) hdone

omit [DecidableEq κ] in
/-- An atomic write puts contents under its scratch name and its destination only. -/
theorem Crash.target_interrupt {blank : ν} {crash : Crash ν} {call : Call κ ν} {name : κ}
    (hcall : call ∈ crash.interrupt blank write) (hname : call.target = some name) :
    name = write.temporary ∨ name = write.destination := by
  simp only [Crash.interrupt, List.mem_append] at hcall
  rcases hcall with (htaken | htorn) | hunlinked
  · have hmem := List.mem_of_mem_take htaken
    simp only [AtomicWrite.calls, List.mem_cons, List.not_mem_nil, or_false] at hmem
    rcases hmem with rfl | rfl | rfl | rfl
    · exact Or.inl (Option.some.inj hname).symm
    · exact Or.inl (Option.some.inj hname).symm
    · exact Or.inr (Option.some.inj hname).symm
    · cases hname
  · split at htorn
    · obtain ⟨contents, -, rfl⟩ := List.mem_map.mp htorn
      exact Or.inl (Option.some.inj hname).symm
    · cases htorn
  · split at hunlinked
    · obtain rfl := List.mem_singleton.mp hunlinked
      cases hname
    · cases hunlinked

/-- Atomic writes put contents under their names only. -/
theorem commit_clean_of (blank : ν) {writes : List (AtomicWrite κ ν)}
    (htemporary : ∀ w ∈ writes, ¬scratch w.temporary)
    (hdestination : ∀ w ∈ writes, ¬scratch w.destination) (h : Clean scratch files) :
    Clean scratch (commit blank writes files) := by
  induction writes generalizing files with
  | nil => exact h
  | cons w writes ih =>
    rw [commit_cons]
    apply ih
    · exact fun x hx => htemporary x (List.mem_cons_of_mem w hx)
    · exact fun x hx => hdestination x (List.mem_cons_of_mem w hx)
    · refine runCalls_clean (fun call hcall name hname => ?_) h
      have hfull : call ∈ (⟨0, 4, none, false⟩ : Crash ν).interrupt blank w := by
        simpa [Crash.interrupt, AtomicWrite.calls] using hcall
      rcases Crash.target_interrupt hfull hname with rfl | rfl
      · exact htemporary w List.mem_cons_self
      · exact hdestination w List.mem_cons_self

/-- Whatever cuts a list of atomic writes, it puts contents under their names only. -/
theorem Crash.cut_clean_of (blank : ν) (crash : Crash ν) {writes : List (AtomicWrite κ ν)}
    (htemporary : ∀ w ∈ writes, ¬scratch w.temporary)
    (hdestination : ∀ w ∈ writes, ¬scratch w.destination) (h : Clean scratch files) :
    Clean scratch (crash.cut blank writes files) := by
  have htake : ∀ w ∈ writes.take crash.writes, w ∈ writes := fun w => List.mem_of_mem_take
  have hdone : Clean scratch (commit blank (writes.take crash.writes) files) :=
    commit_clean_of blank (fun w hw => htemporary w (htake w hw))
      (fun w hw => hdestination w (htake w hw)) h
  unfold Crash.cut
  cases hrest : writes.drop crash.writes with
  | nil => exact hdone
  | cons next rest =>
    have hnext : next ∈ writes := List.mem_of_mem_drop (hrest ▸ List.mem_cons_self)
    refine runCalls_clean (fun call hcall name hname => ?_) hdone
    rcases Crash.target_interrupt hcall hname with rfl | rfl
    · exact htemporary next hnext
    · exact hdestination next hnext

variable (files) in
/-- A write that is killed before its renaming has not replaced its destination. -/
theorem Crash.cut_window (blank : ν) {crash : Crash ν} (hwindow : crash.InWindow)
    {writes : List (AtomicWrite κ ν)} (htemporary : ∀ w ∈ writes, scratch w.temporary)
    (hdestination : ∀ w ∈ writes, ¬scratch w.destination) :
    Agree scratch (crash.cut blank writes files)
      (replaceAll (writes.take crash.writes) files) := by
  have htake : ∀ w ∈ writes.take crash.writes, w ∈ writes := fun w => List.mem_of_mem_take
  have hcommit := commit_agree blank
    (fun w hw => htemporary w (htake w hw)) (fun w hw => hdestination w (htake w hw))
    (Agree.refl files)
  unfold Crash.cut
  cases hrest : writes.drop crash.writes with
  | nil => exact hcommit
  | cons next rest =>
    have hnext : scratch next.temporary :=
      htemporary next (List.mem_of_mem_drop (hrest ▸ List.mem_cons_self))
    refine Agree.trans ?_ hcommit
    rcases crash with ⟨count, calls, torn, raised⟩
    obtain ⟨hraised, hcalls⟩ := hwindow
    obtain rfl : raised = false := hraised
    rcases hcalls with rfl | rfl
    · cases torn with
      | none =>
        simpa [Crash.interrupt, AtomicWrite.calls, Call.apply] using
          agree_insert_scratch hnext blank
      | some contents =>
        simpa [Crash.interrupt, AtomicWrite.calls, Call.apply] using
          agree_insert_scratch hnext contents
    · simpa [Crash.interrupt, AtomicWrite.calls, Call.apply] using
        agree_insert_scratch hnext next.contents

end Writes

end AutoBit.Library
