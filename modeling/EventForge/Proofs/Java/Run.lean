import EventForge.Java.Generator
import EventForge.Proofs.Java.Emissions
import EventForge.Proofs.Layout

/-!
# What a run saves

A run goes project by project. Its journal says what became of each: that it could not be prepared,
or which attempts to write its files succeeded; what the run reports is a record of the journal
(`generate_eq`). The log is the part of it that was saved. Along the run the place of a saved file
holds the text of the file that was last saved there (`Holds`), and everywhere else the files are
those that stood there before (`spares_generate`).
-/

namespace EventForge.Java.Generator

section Projects

variable {g : Generator} {p : Context × Layout}

theorem layout_of_mem_projects (h : p ∈ g.projects) :
    p.2 = Layout.ofContext p.1 g.ns g.options.mode := by
  obtain ⟨c, -, rfl⟩ := List.mem_map.1 h
  rfl

theorem mode_of_mem_projects (h : p ∈ g.projects) : p.2.mode = g.options.mode := by
  rw [layout_of_mem_projects h]
  rfl

/-- A new project has its sources in a directory of its own name. -/
theorem sourceRoot_of_new (h : p ∈ g.projects) (hnew : p.2.mode = .createNew) :
    p.2.sourceRoot = Path.join ⟨p.1.projectName⟩ ⟨"src"⟩ := by
  rw [mode_of_mem_projects h] at hnew
  rw [layout_of_mem_projects h, hnew]
  simp only [Layout.ofContext]

theorem sourceRoot_ne_of_new (h : p ∈ g.projects) (hnew : p.2.mode = .createNew) :
    p.2.sourceRoot.text ≠ "" := by
  rw [sourceRoot_of_new h hnew]
  exact Path.join_text_ne _ (by decide)

/-- The file of a declaration is named after it and lies in a package of its project. -/
theorem exists_path_eq {f : SourceFile} (hf : f ∈ (g.filesOf p).files) :
    ∃ kind, f.path = (p.2.packageDir kind).join ⟨f.declaration.name ++ ".java"⟩ := by
  obtain ⟨kind, hdir⟩ := ContextFiles.liesIn_ofContext _ _ f hf
  refine ⟨kind, ?_⟩
  rw [SourceFile.path_eq, hdir]

end Projects

/-- A project of a run and the files that were saved for it, in order. -/
structure SavedProject where
  project : Context × Layout
  files : List SourceFile

/-- The tree after an attempt to save a file. -/
def treeAfterFile (target : Path) (t : FileTree) (f : SourceFile) : FileTree :=
  (t.save (f.pathBelow target) f.text).1

/-- The attempt to save a file succeeds. -/
def IsSaved (target : Path) (t : FileTree) (f : SourceFile) : Prop :=
  (t.save (f.pathBelow target) f.text).2 = none

instance (target : Path) (t : FileTree) (f : SourceFile) : Decidable (IsSaved target t f) :=
  inferInstanceAs (Decidable (_ = none))

/-- The files that are saved when files are written in order. -/
def savedFiles (target : Path) : FileTree → List SourceFile → List SourceFile
  | _, [] => []
  | t, f :: rest =>
    if IsSaved target t f then f :: savedFiles target (treeAfterFile target t f) rest
    else savedFiles target (treeAfterFile target t f) rest

/-- The tree after one project. -/
def treeAfter (g : Generator) (target : Path) (t : FileTree) (project : Context × Layout) :
    FileTree :=
  match project.2.prepare t target with
  | (t, some _) => t
  | (t, none) => (g.filesOf project).files.foldl (treeAfterFile target) t

theorem treeAfter_of_prepared {g : Generator} {target : Path} {t : FileTree}
    {p : Context × Layout} (h : (p.2.prepare t target).2 = none) :
    g.treeAfter target t p =
      (g.filesOf p).files.foldl (treeAfterFile target) (p.2.prepare t target).1 := by
  rw [treeAfter]
  split
  · next heq =>
    rw [heq] at h
    cases h
  · next heq => rw [heq]

/-- The files that are saved for one project: none when it cannot be prepared. -/
def savedOf (g : Generator) (target : Path) (t : FileTree) (project : Context × Layout) :
    List SourceFile :=
  match project.2.prepare t target with
  | (_, some _) => []
  | (t, none) => savedFiles target t (g.filesOf project).files

theorem savedOf_eq_nil {g : Generator} {target : Path} {t : FileTree} {p : Context × Layout}
    (h : (p.2.prepare t target).2 ≠ none) : g.savedOf target t p = [] := by
  rw [savedOf]
  split
  · rfl
  · next heq =>
    rw [heq] at h
    exact absurd rfl h

/-- The log of generating projects in order. -/
def log (g : Generator) (target : Path) : FileTree → List (Context × Layout) → List SavedProject
  | _, [] => []
  | t, p :: rest => ⟨p, g.savedOf target t p⟩ :: log g target (g.treeAfter target t p) rest

/-- What a run saves below the target, project by project. -/
def saved (g : Generator) (t : FileTree) (target : Path) : List SavedProject :=
  g.log target t g.projects

/-- All files that a run saves, in order. -/
def savedInOrder (g : Generator) (t : FileTree) (target : Path) : List SourceFile :=
  (g.saved t target).flatMap SavedProject.files

/-- An attempt to write a file, and what went wrong if anything did. -/
structure Attempt where
  file : SourceFile
  fault : Option FileTree.SaveFault

namespace Attempt

def isSaved (a : Attempt) : Bool := a.fault.isNone

/-- What a run records of an attempt that fails. -/
def failure? (a : Attempt) : Option FailedFile :=
  a.fault.map fun fault => ⟨a.file.path.text, fault.message⟩

variable {f : SourceFile} {fault : FileTree.SaveFault}

@[simp]
theorem isSaved_none : isSaved ⟨f, none⟩ = true := rfl

@[simp]
theorem isSaved_some : isSaved ⟨f, some fault⟩ = false := rfl

@[simp]
theorem failure?_none : failure? ⟨f, none⟩ = none := rfl

@[simp]
theorem failure?_some : failure? ⟨f, some fault⟩ = some ⟨f.path.text, fault.message⟩ := rfl

end Attempt

/-- The attempts to write files in order. -/
def attempts (target : Path) : FileTree → List SourceFile → List Attempt
  | _, [] => []
  | t, f :: rest =>
    ⟨f, (t.save (f.pathBelow target) f.text).2⟩ :: attempts target (treeAfterFile target t f) rest

/-- What became of a project: why it could not be prepared, or the attempts to write its files. -/
structure ProjectRun where
  project : Context × Layout
  outcome : Except Layout.Fault (List Attempt)

namespace ProjectRun

def isPrepared (r : ProjectRun) : Bool := r.outcome.toBool

def attempts (r : ProjectRun) : List Attempt :=
  match r.outcome with
  | .ok attempts => attempts
  | .error _ => []

/-- The files of the project that were saved. -/
def savedFiles (r : ProjectRun) : List SourceFile :=
  (r.attempts.filter Attempt.isSaved).map Attempt.file

/-- The error for a project that could not be prepared. -/
def unprepared? (r : ProjectRun) : Option Diagnostic :=
  match r.outcome with
  | .ok _ => none
  | .error fault =>
    some ⟨.error, "generate", fault.message, some ("streams." ++ r.project.1.name)⟩

/-- What failed: classes that could not be resolved, then files that could not be written. -/
def failed (g : Generator) (r : ProjectRun) : List FailedFile :=
  (if r.isPrepared then (g.filesOf r.project).failed else []) ++
    r.attempts.filterMap Attempt.failure?

/-- What was noticed: either the files of the project were made, or it could not be prepared. -/
def diagnostics (g : Generator) (r : ProjectRun) : List Diagnostic :=
  (if r.isPrepared then (g.filesOf r.project).diagnostics else []) ++ r.unprepared?.toList

end ProjectRun

/-- What becomes of one project. -/
def runOf (g : Generator) (target : Path) (t : FileTree) (project : Context × Layout) :
    ProjectRun :=
  match project.2.prepare t target with
  | (_, some fault) => ⟨project, .error fault⟩
  | (t, none) => ⟨project, .ok (attempts target t (g.filesOf project).files)⟩

/-- What becomes of projects that are generated in order. -/
def journal (g : Generator) (target : Path) : FileTree → List (Context × Layout) → List ProjectRun
  | _, [] => []
  | t, p :: rest => g.runOf target t p :: journal g target (g.treeAfter target t p) rest

/-- A result with what became of projects recorded in it. -/
def Result.record (g : Generator) (r : Result) (runs : List ProjectRun) : Result where
  written := r.written ++ (runs.flatMap ProjectRun.savedFiles).map SourceFile.path
  failed := r.failed ++ runs.flatMap (ProjectRun.failed g)
  skipped := r.skipped
  diagnostics := r.diagnostics ++ runs.flatMap (ProjectRun.diagnostics g)

variable {g : Generator} {target : Path} {t : FileTree}

/-- The files that are saved are those of the attempts that do not fail. -/
theorem savedFiles_eq (target : Path) (files : List SourceFile) (t : FileTree) :
    savedFiles target t files =
      ((attempts target t files).filter Attempt.isSaved).map Attempt.file := by
  induction files generalizing t with
  | nil => rfl
  | cons f rest ih =>
    rw [savedFiles, attempts, ih]
    rcases hsave : t.save (f.pathBelow target) f.text with ⟨t', _ | fault⟩
    · simp [IsSaved, hsave, List.filter_cons]
    · simp [IsSaved, hsave]

theorem savedOf_eq (g : Generator) (target : Path) (t : FileTree) (project : Context × Layout) :
    g.savedOf target t project = (g.runOf target t project).savedFiles := by
  rcases hprepare : project.2.prepare t target with ⟨t', _ | fault⟩
  · simp only [savedOf, runOf, hprepare, savedFiles_eq]
    rfl
  · simp only [savedOf, runOf, hprepare]
    rfl

theorem log_eq (g : Generator) (target : Path) (projects : List (Context × Layout))
    (t : FileTree) :
    g.log target t projects =
      (g.journal target t projects).map fun r => ⟨r.project, r.savedFiles⟩ := by
  induction projects generalizing t with
  | nil => rfl
  | cons p rest ih =>
    have hproject : (g.runOf target t p).project = p := by
      rw [runOf]
      split <;> rfl
    rw [log, journal, List.map_cons, ih, savedOf_eq, hproject]

theorem writeFile_of_saved {t' : FileTree} {f : SourceFile}
    (h : t.save (f.pathBelow target) f.text = (t', none)) (r : Result) :
    writeFile target (t, r) f = (t', { r with written := r.written ++ [f.path] }) := by
  unfold writeFile
  rw [h]

theorem writeFile_of_failed {t' : FileTree} {f : SourceFile} {fault : FileTree.SaveFault}
    (h : t.save (f.pathBelow target) f.text = (t', some fault)) (r : Result) :
    writeFile target (t, r) f =
      (t', { r with failed := r.failed ++ [⟨f.path.text, fault.message⟩] }) := by
  unfold writeFile
  rw [h]

theorem foldl_writeFile (target : Path) (files : List SourceFile) (t : FileTree) (r : Result) :
    files.foldl (writeFile target) (t, r) =
      (files.foldl (treeAfterFile target) t,
        { r with
          written := r.written ++
            ((attempts target t files).filter Attempt.isSaved).map fun a => a.file.path
          failed := r.failed ++ (attempts target t files).filterMap Attempt.failure? }) := by
  induction files generalizing t r with
  | nil => simp [attempts]
  | cons f rest ih =>
    rcases hsave : t.save (f.pathBelow target) f.text with ⟨t', _ | fault⟩
    · simp [writeFile_of_saved hsave, attempts, treeAfterFile, hsave, ih, List.filter_cons,
        List.filterMap_cons]
    · simp [writeFile_of_failed hsave, attempts, treeAfterFile, hsave, ih]

theorem writeProject_eq (g : Generator) (target : Path) (t : FileTree) (r : Result)
    (project : Context × Layout) :
    g.writeProject target (t, r) project =
      (g.treeAfter target t project, r.record g [g.runOf target t project]) := by
  rcases hprepare : project.2.prepare t target with ⟨t', _ | fault⟩
  · simp [writeProject, treeAfter, runOf, hprepare, foldl_writeFile, Result.record,
      ProjectRun.savedFiles, ProjectRun.failed, ProjectRun.diagnostics, ProjectRun.unprepared?,
      ProjectRun.isPrepared, ProjectRun.attempts, Except.toBool]
  · simp [writeProject, treeAfter, runOf, hprepare, Result.record, ProjectRun.savedFiles,
      ProjectRun.failed, ProjectRun.diagnostics, ProjectRun.unprepared?, ProjectRun.isPrepared,
      ProjectRun.attempts, Except.toBool]

theorem foldl_writeProject (g : Generator) (target : Path) (projects : List (Context × Layout))
    (t : FileTree) (r : Result) :
    projects.foldl (g.writeProject target) (t, r) =
      (projects.foldl (g.treeAfter target) t, r.record g (g.journal target t projects)) := by
  induction projects generalizing t r with
  | nil => simp [journal, Result.record]
  | cons p rest ih =>
    rw [List.foldl_cons, writeProject_eq, ih, List.foldl_cons, journal]
    simp [Result.record]

theorem isPrepared_runOf (g : Generator) (target : Path) (t : FileTree) (p : Context × Layout) :
    (g.runOf target t p).isPrepared ↔ (p.2.prepare t target).2 = none := by
  rcases hprepare : p.2.prepare t target with ⟨t₁, _ | fault⟩
  · simp [runOf, hprepare, ProjectRun.isPrepared, Except.toBool]
  · simp [runOf, hprepare, ProjectRun.isPrepared, Except.toBool]

theorem outcome_runOf {p : Context × Layout} {fault : Layout.Fault}
    (h : (p.2.prepare t target).2 = some fault) :
    (g.runOf target t p).outcome = .error fault := by
  rcases hprepare : p.2.prepare t target with ⟨t₁, _ | fault'⟩
  · rw [hprepare] at h
    cases h
  · rw [hprepare] at h
    simp only [runOf, hprepare]
    rw [Option.some.inj h]

/-- A run is the record of its journal. -/
theorem generate_eq (g : Generator) (t : FileTree) (target : Path) :
    g.generate t target =
      (g.projects.foldl (g.treeAfter target) t,
        Result.record g ⟨[], [], (g.contexts.filter Context.isEmpty).map Context.name, []⟩
          (g.journal target t g.projects)) :=
  foldl_writeProject g target g.projects t _

theorem savedInOrder_eq (g : Generator) (t : FileTree) (target : Path) :
    g.savedInOrder t target =
      (g.journal target t g.projects).flatMap ProjectRun.savedFiles := by
  rw [savedInOrder, saved, log_eq, List.flatMap_map]

/-- The log lists what a run writes. -/
theorem written_eq (g : Generator) (t : FileTree) (target : Path) :
    (g.generate t target).2.written = (g.savedInOrder t target).map SourceFile.path := by
  rw [generate_eq, savedInOrder_eq]
  rfl

theorem tree_eq (g : Generator) (t : FileTree) (target : Path) :
    (g.generate t target).1 = g.projects.foldl (g.treeAfter target) t := by
  rw [generate_eq]

theorem savedFiles_sublist (target : Path) (files : List SourceFile) (t : FileTree) :
    (savedFiles target t files).Sublist files := by
  induction files generalizing t with
  | nil => exact .slnil
  | cons f rest ih =>
    rw [savedFiles]
    split
    · exact (ih _).cons_cons f
    · exact (ih _).cons f

theorem savedOf_sublist (g : Generator) (target : Path) (t : FileTree)
    (project : Context × Layout) :
    (g.savedOf target t project).Sublist (g.filesOf project).files := by
  rw [savedOf]
  split
  · exact List.nil_sublist _
  · exact savedFiles_sublist _ _ _

/-- What the log lists belongs to a project of the run and was made for it. -/
theorem mem_log {projects : List (Context × Layout)} {a : SavedProject}
    (h : a ∈ g.log target t projects) :
    a.project ∈ projects ∧ a.files.Sublist (g.filesOf a.project).files := by
  induction projects generalizing t with
  | nil => simp [log] at h
  | cons p rest ih =>
    rw [log] at h
    rcases List.mem_cons.1 h with rfl | h
    · exact ⟨by simp, savedOf_sublist g target t p⟩
    · obtain ⟨hmem, hsub⟩ := ih h
      exact ⟨by simp [hmem], hsub⟩

/-! ## What is found afterwards -/

/-- The file is found in the tree, at a place that holds the text of the last file saved there. -/
def Holds (target : Path) (t : FileTree) (fs : List SourceFile) (f : SourceFile) : Prop :=
  ∃ l, t.locate (f.pathBelow target) = .ok l ∧ (f.pathBelow target).asksDirectory = false ∧
    ∃ earlier last later, fs = earlier ++ last :: later ∧
      t.locate (last.pathBelow target) = .ok l ∧ t.entry? l = some (.file last.text) ∧
      ∀ k ∈ later, t.locate (k.pathBelow target) ≠ .ok l

/-- Every file of a list is found. -/
def HoldsAll (target : Path) (t : FileTree) (fs : List SourceFile) : Prop :=
  ∀ f ∈ fs, Holds target t fs f

variable {fs : List SourceFile} {f : SourceFile} {t' : FileTree}

theorem HoldsAll.nil (target : Path) (t : FileTree) : HoldsAll target t [] :=
  fun _ hf => absurd hf List.not_mem_nil

/-- A place where a file of the list does not lead is not led to by it in a tree that grew. -/
theorem HoldsAll.locate_ne (h : HoldsAll target t fs) {places : List Location}
    (hkeeps : FileTree.Keeps places t t') {l : Location} (hf : f ∈ fs)
    (hne : t.locate (f.pathBelow target) ≠ .ok l) : t'.locate (f.pathBelow target) ≠ .ok l := by
  obtain ⟨l', hl', -⟩ := h f hf
  rw [hkeeps.locate hl']
  rwa [hl'] at hne

theorem HoldsAll.keeps (h : HoldsAll target t fs) (hkeeps : FileTree.Keeps [] t t') :
    HoldsAll target t' fs := by
  intro f hf
  obtain ⟨l, hl, hask, earlier, last, later, rfl, hlast, hentry, hlater⟩ := h f hf
  refine ⟨l, hkeeps.locate hl, hask, earlier, last, later, rfl, hkeeps.locate hlast,
    hkeeps.file l _ hentry List.not_mem_nil, fun k hk => ?_⟩
  exact h.locate_ne hkeeps (by simp [hk]) (hlater k hk)

theorem HoldsAll.save (h : HoldsAll target t fs) (hsaved : IsSaved target t f) :
    HoldsAll target (treeAfterFile target t f) (fs ++ [f]) := by
  obtain ⟨place, hplace, hentry, hask, hkeeps⟩ := FileTree.save_eq_none hsaved
  -- Where the new file stands it is the last one.
  have hnew : ∀ k, (treeAfterFile target t f).locate (k.pathBelow target) = .ok place →
      (k.pathBelow target).asksDirectory = false →
      Holds target (treeAfterFile target t f) (fs ++ [f]) k := fun k hk hk' =>
    ⟨place, hk, hk', fs, f, [], rfl, hplace, hentry, fun _ hmem => absurd hmem List.not_mem_nil⟩
  intro k hk
  rcases List.mem_append.1 hk with hk | hk
  · obtain ⟨l, hl, hask', earlier, last, later, heq, hlast, hentry', hlater⟩ := h k hk
    by_cases hsame : l = place
    · exact hnew k (hsame ▸ hkeeps.locate hl) hask'
    · refine ⟨l, hkeeps.locate hl, hask', earlier, last, later ++ [f], ?_, hkeeps.locate hlast,
        hkeeps.file l _ hentry' (by simpa using hsame), fun j hj => ?_⟩
      · rw [heq, List.append_assoc, List.cons_append]
      · rcases List.mem_append.1 hj with hj | hj
        · exact h.locate_ne hkeeps (by simp [heq, hj]) (hlater j hj)
        · rw [List.mem_singleton.1 hj]
          intro hl'
          exact hsame (Except.ok.inj (hl'.symm.trans hplace))
  · rw [List.mem_singleton.1 hk]
    exact hnew f hplace hask

theorem HoldsAll.files (h : HoldsAll target t fs) (files : List SourceFile) :
    HoldsAll target (files.foldl (treeAfterFile target) t) (fs ++ savedFiles target t files) := by
  induction files generalizing t fs with
  | nil => simpa [savedFiles] using h
  | cons f rest ih =>
    rw [List.foldl_cons, savedFiles]
    split
    · next hsaved =>
      have hrest := ih (h.save hsaved)
      rwa [List.append_assoc, List.singleton_append] at hrest
    · next hfailed => exact ih (h.keeps (FileTree.keeps_save_ne_none hfailed))

theorem HoldsAll.project (h : HoldsAll target t fs) (g : Generator) (p : Context × Layout) :
    HoldsAll target (g.treeAfter target t p) (fs ++ g.savedOf target t p) := by
  have hprepare := h.keeps (p.2.keeps_prepare t target)
  rw [treeAfter, savedOf]
  split
  · next t' fault heq =>
    rw [heq] at hprepare
    simpa using hprepare
  · next t' heq =>
    rw [heq] at hprepare
    exact hprepare.files _

theorem HoldsAll.projects (h : HoldsAll target t fs) (g : Generator)
    (projects : List (Context × Layout)) :
    HoldsAll target (projects.foldl (g.treeAfter target) t)
      (fs ++ (g.log target t projects).flatMap SavedProject.files) := by
  induction projects generalizing t fs with
  | nil => simpa [log] using h
  | cons p rest ih =>
    rw [List.foldl_cons, log, List.flatMap_cons, ← List.append_assoc]
    exact ih (h.project g p)

/-- Every file that a run saves is found after the run. -/
theorem holdsAll_saved (g : Generator) (t : FileTree) (target : Path) :
    HoldsAll target (g.generate t target).1 (g.savedInOrder t target) := by
  rw [tree_eq]
  exact (HoldsAll.nil target t).projects g g.projects

/-! ## What a run leaves as it was -/

/-- Directories stay, and where no file of the list leads the files are the same. -/
def Spares (target : Path) (fs : List SourceFile) (t t' : FileTree) : Prop :=
  ∃ places, FileTree.Keeps places t t' ∧
    ∀ l ∈ places, ∃ f ∈ fs, t'.locate (f.pathBelow target) = .ok l

variable {fs' : List SourceFile} {t'' : FileTree}

theorem Spares.of_keeps (h : FileTree.Keeps [] t t') (fs : List SourceFile) :
    Spares target fs t t' := ⟨[], h, fun _ hl => absurd hl List.not_mem_nil⟩

theorem Spares.trans (h : Spares target fs t t') (h' : Spares target fs' t' t'') :
    Spares target (fs ++ fs') t t'' := by
  obtain ⟨places, hkeeps, hplaces⟩ := h
  obtain ⟨places', hkeeps', hplaces'⟩ := h'
  refine ⟨places ++ places', hkeeps.trans hkeeps', fun l hl => ?_⟩
  rcases List.mem_append.1 hl with hl | hl
  · obtain ⟨f, hf, hplace⟩ := hplaces l hl
    exact ⟨f, List.mem_append_left _ hf, hkeeps'.locate hplace⟩
  · obtain ⟨f, hf, hplace⟩ := hplaces' l hl
    exact ⟨f, List.mem_append_right _ hf, hplace⟩

theorem Spares.file_iff {l : Location} (h : Spares target fs t t')
    (hnot : ∀ f ∈ fs, t'.locate (f.pathBelow target) ≠ .ok l) (text : String) :
    t'.entry? l = some (.file text) ↔ t.entry? l = some (.file text) := by
  obtain ⟨places, hkeeps, hplaces⟩ := h
  have hfree : l ∉ places := by
    intro hmem
    obtain ⟨f, hf, hplace⟩ := hplaces l hmem
    exact hnot f hf hplace
  exact ⟨fun hl => hkeeps.earlier l text hl hfree, fun hl => hkeeps.file l text hl hfree⟩

theorem Spares.grows (h : Spares target fs t t') : FileTree.Grows t t' := by
  obtain ⟨places, hkeeps, -⟩ := h
  exact hkeeps.grows

theorem spares_save (h : IsSaved target t f) : Spares target [f] t (treeAfterFile target t f) := by
  obtain ⟨l, hl, -, -, hkeeps⟩ := FileTree.save_eq_none h
  refine ⟨[l], hkeeps, fun l' hl' => ?_⟩
  rw [List.mem_singleton.1 hl']
  exact ⟨f, List.mem_singleton_self f, hl⟩

theorem spares_files (target : Path) (files : List SourceFile) (t : FileTree) :
    Spares target (savedFiles target t files) t (files.foldl (treeAfterFile target) t) := by
  induction files generalizing t with
  | nil => exact .of_keeps (.refl [] t) _
  | cons f rest ih =>
    rw [List.foldl_cons, savedFiles]
    split
    · next hsaved => exact (spares_save hsaved).trans (ih _)
    · next hfailed =>
      have hkeeps := FileTree.keeps_save_ne_none hfailed
      exact (Spares.of_keeps hkeeps []).trans (ih _)

/-- A project only adds to the directories that were prepared for it. -/
theorem grows_prepare_treeAfter (g : Generator) (target : Path) (t : FileTree)
    (p : Context × Layout) :
    FileTree.Grows (p.2.prepare t target).1 (g.treeAfter target t p) := by
  rw [treeAfter]
  split
  · next t₁ fault heq =>
    rw [heq]
    exact .refl t₁
  · next t₁ heq =>
    rw [heq]
    exact (spares_files target _ t₁).grows

theorem spares_project (g : Generator) (target : Path) (t : FileTree) (p : Context × Layout) :
    Spares target (g.savedOf target t p) t (g.treeAfter target t p) := by
  have hprepare := p.2.keeps_prepare t target
  rw [treeAfter, savedOf]
  split
  · next t' fault heq =>
    rw [heq] at hprepare
    exact .of_keeps hprepare _
  · next t' heq =>
    rw [heq] at hprepare
    exact (Spares.of_keeps hprepare []).trans (spares_files target _ t')

theorem spares_projects (g : Generator) (target : Path) (projects : List (Context × Layout))
    (t : FileTree) :
    Spares target ((g.log target t projects).flatMap SavedProject.files) t
      (projects.foldl (g.treeAfter target) t) := by
  induction projects generalizing t with
  | nil => exact .of_keeps (.refl [] t) _
  | cons p rest ih =>
    rw [List.foldl_cons, log, List.flatMap_cons]
    exact (spares_project g target t p).trans (ih _)

/-- A run changes files only where a file leads that it saves. -/
theorem spares_generate (g : Generator) (t : FileTree) (target : Path) :
    Spares target (g.savedInOrder t target) t (g.generate t target).1 := by
  rw [tree_eq]
  exact spares_projects g target g.projects t

end EventForge.Java.Generator
