import EventForge.Proofs.Java.Overwriting

/-!
# A preview shows what a run writes

A run tries to write, project by project, the pairs of path and text that the preview shows, but for
the projects that it cannot prepare. Its journal has one entry for every project, and what the run
reports accounts for all of it: a pair is either written or failed, a project that is given up is
reported by one error, and a context that has no project is skipped. The tree is what replaying the
journal gives, so nothing else is written.
-/

namespace EventForge.Java.Generator

/-- The pairs of path and text that a preview shows for a project. -/
def shown (g : Generator) (project : Context × Layout) : List (Path × String) :=
  (g.filesOf project).files.map fun f => (f.path, f.text)

/-- The path and the text that an attempt is about. -/
def Attempt.pair (a : Attempt) : Path × String := (a.file.path, a.file.text)

/-- The attempts of a journal that succeeded, in order. -/
def succeeded (runs : List ProjectRun) : List Attempt :=
  (runs.flatMap ProjectRun.attempts).filter Attempt.isSaved

/-- The tree after what an entry tells: the project is prepared, then the pairs of its attempts are
saved in order. -/
def ProjectRun.replay (target : Path) (t : FileTree) (r : ProjectRun) : FileTree :=
  (r.attempts.map Attempt.pair).foldl (fun t pair => (t.save (target.join pair.1) pair.2).1)
    (r.project.2.prepare t target).1

/-- The journal accounts for the projects of a run, for everything that the run reports and for all
that it does to the tree. -/
structure Accounts (g : Generator) (t : FileTree) (target : Path) (runs : List ProjectRun) :
    Prop where
  /-- Every context that is not empty has one entry, in order. -/
  contexts : (runs.map fun r => r.project.1) = g.contexts.filter fun c => !c.isEmpty
  preview : g.preview = runs.flatMap fun r => g.shown r.project
  /-- What a run tries to write is what is shown for the projects that were prepared. -/
  attempted : runs.flatMap (fun r => r.attempts.map Attempt.pair) =
    (runs.filter ProjectRun.isPrepared).flatMap fun r => g.shown r.project
  written : (g.generate t target).2.written = (succeeded runs).map fun a => a.file.path
  failed : (g.generate t target).2.failed = runs.flatMap fun r =>
    (if r.isPrepared then (g.filesOf r.project).failed else []) ++
      r.attempts.filterMap Attempt.failure?
  /-- An attempt is among the written files or among the failed ones, and never among both. -/
  exclusive : ∀ r ∈ runs, ∀ a ∈ r.attempts, if a.isSaved then a.failure? = none
    else ∃ error, a.failure? = some ⟨a.file.path.text, error⟩
  errors : (g.generate t target).2.diagnostics.filter Diagnostic.isError =
    runs.filterMap ProjectRun.unprepared?
  /-- A project that is given up has an error at its stream, and no other project has one. -/
  reported : ∀ r ∈ runs, if r.isPrepared then r.unprepared? = none
    else ∃ fault : Layout.Fault, r.unprepared? =
      some ⟨.error, "generate", fault.message, some ("streams." ++ r.project.1.name)⟩
  skipped : (g.generate t target).2.skipped = (g.contexts.filter Context.isEmpty).map Context.name
  /-- Nothing is done to the tree but to prepare the projects and to try to write these pairs. -/
  tree : (g.generate t target).1 = runs.foldl (ProjectRun.replay target) t
  /-- Where no written path leads, the files are those that stood there before. -/
  untouched : ∀ l, (∀ path ∈ (g.generate t target).2.written,
      (g.generate t target).1.locate (target.join path) ≠ .ok l) →
    ∀ text, FileTree.entry? (g.generate t target).1 l = some (.file text) ↔
      t.entry? l = some (.file text)

variable {g : Generator} {target : Path} {t : FileTree}

theorem map_file_attempts (target : Path) (files : List SourceFile) (t : FileTree) :
    (attempts target t files).map Attempt.file = files := by
  induction files generalizing t with
  | nil => rfl
  | cons f rest ih => rw [attempts, List.map_cons, ih]

theorem project_runOf (g : Generator) (target : Path) (t : FileTree)
    (project : Context × Layout) : (g.runOf target t project).project = project := by
  rw [runOf]
  split <;> rfl

theorem map_project_journal (g : Generator) (target : Path) (projects : List (Context × Layout))
    (t : FileTree) : (g.journal target t projects).map ProjectRun.project = projects := by
  induction projects generalizing t with
  | nil => rfl
  | cons p rest ih => rw [journal, List.map_cons, ih, project_runOf]

theorem forall_projects_iff (g : Generator) (t : FileTree) (target : Path)
    {P : Context × Layout → Prop} :
    (∀ project ∈ g.projects, P project) ↔ ∀ r ∈ g.journal target t g.projects, P r.project := by
  conv_lhs => rw [← map_project_journal g target g.projects t]
  rw [List.forall_mem_map]

/-- What is tried for one project is what is shown for it, or nothing when it is not prepared. -/
theorem attempted_runOf (g : Generator) (target : Path) (t : FileTree)
    (project : Context × Layout) :
    (g.runOf target t project).attempts.map Attempt.pair =
      if (g.runOf target t project).isPrepared then g.shown project else [] := by
  rcases hprepare : project.2.prepare t target with ⟨t', _ | fault⟩
  · have hfiles := map_file_attempts target (g.filesOf project).files t'
    simp only [runOf, hprepare]
    show (attempts target t' (g.filesOf project).files).map Attempt.pair = g.shown project
    rw [shown]
    conv_rhs => rw [← hfiles]
    rw [List.map_map]
    rfl
  · simp only [runOf, hprepare]
    rfl

theorem attempted_journal (g : Generator) (target : Path) (projects : List (Context × Layout))
    (t : FileTree) :
    (g.journal target t projects).flatMap (fun r => r.attempts.map Attempt.pair) =
      ((g.journal target t projects).filter ProjectRun.isPrepared).flatMap
        fun r => g.shown r.project := by
  induction projects generalizing t with
  | nil => rfl
  | cons p rest ih =>
    rw [journal, List.flatMap_cons, ih, attempted_runOf, List.filter_cons]
    split
    · rw [List.flatMap_cons, project_runOf]
    · rw [List.nil_append]

theorem savedInOrder_eq_succeeded (g : Generator) (t : FileTree) (target : Path) :
    g.savedInOrder t target = (succeeded (g.journal target t g.projects)).map Attempt.file := by
  rw [savedInOrder_eq, succeeded, List.filter_flatMap, List.map_flatMap]
  rfl

theorem replay_runOf (g : Generator) (target : Path) (t : FileTree)
    (project : Context × Layout) :
    (g.runOf target t project).replay target t = g.treeAfter target t project := by
  rw [ProjectRun.replay, project_runOf]
  rcases hprepare : project.2.prepare t target with ⟨t', _ | fault⟩
  · have hfiles := map_file_attempts target (g.filesOf project).files t'
    simp only [treeAfter, runOf, hprepare]
    conv_rhs => rw [← hfiles]
    rw [List.foldl_map, List.foldl_map]
    simp only [treeAfterFile, SourceFile.pathBelow_eq]
    rfl
  · simp only [treeAfter, runOf, hprepare]
    rfl

/-- Replaying the journal of projects gives the tree that they leave. -/
theorem replay_journal (g : Generator) (target : Path) (projects : List (Context × Layout))
    (t : FileTree) :
    (g.journal target t projects).foldl (ProjectRun.replay target) t =
      projects.foldl (g.treeAfter target) t := by
  induction projects generalizing t with
  | nil => rfl
  | cons p rest ih => rw [journal, List.foldl_cons, List.foldl_cons, replay_runOf, ih]

theorem exclusive_attempt (a : Attempt) :
    if a.isSaved then a.failure? = none
    else ∃ error, a.failure? = some ⟨a.file.path.text, error⟩ := by
  obtain ⟨file, _ | fault⟩ := a
  · rfl
  · exact ⟨fault.message, rfl⟩

theorem reported_run (r : ProjectRun) :
    if r.isPrepared then r.unprepared? = none
    else ∃ fault : Layout.Fault, r.unprepared? =
      some ⟨.error, "generate", fault.message, some ("streams." ++ r.project.1.name)⟩ := by
  obtain ⟨project, fault | attempts⟩ := r
  · exact ⟨fault, rfl⟩
  · rfl

/-- The files of a project only raise warnings, so its errors are about its preparation. -/
theorem errors_diagnostics (g : Generator) (r : ProjectRun) :
    (r.diagnostics g).filter Diagnostic.isError = r.unprepared?.toList := by
  have hwarns : (g.filesOf r.project).diagnostics.filter Diagnostic.isError = [] := by
    refine List.filter_eq_nil_iff.2 fun d hd => ?_
    exact Diagnostic.not_isError_of_isWarning (ContextFiles.warns_ofContext _ _ d hd)
  obtain ⟨project, fault | attempts⟩ := r
  · rfl
  · show ((g.filesOf project).diagnostics ++ []).filter Diagnostic.isError = []
    rw [List.append_nil]
    exact hwarns

/-- The journal of a run accounts for it. -/
theorem accounts_journal (g : Generator) (t : FileTree) (target : Path) :
    Accounts g t target (g.journal target t g.projects) where
  contexts := by
    calc (g.journal target t g.projects).map (fun r => r.project.1)
        = ((g.journal target t g.projects).map ProjectRun.project).map Prod.fst := by
          rw [List.map_map]
          rfl
      _ = g.projects.map Prod.fst := by rw [map_project_journal]
      _ = g.contexts.filter fun c => !c.isEmpty := by simp [projects, Function.comp_def]
  preview := by
    calc g.preview = g.projects.flatMap g.shown := rfl
      _ = ((g.journal target t g.projects).map ProjectRun.project).flatMap g.shown := by
          rw [map_project_journal]
      _ = (g.journal target t g.projects).flatMap fun r => g.shown r.project :=
          List.flatMap_map ..
  attempted := attempted_journal g target g.projects t
  written := by
    rw [written_eq, savedInOrder_eq_succeeded, List.map_map]
    rfl
  failed := by
    rw [generate_eq]
    rfl
  exclusive _ _ a _ := exclusive_attempt a
  errors := by
    rw [generate_eq, List.filterMap_eq_flatMap_toList]
    show (List.flatMap (ProjectRun.diagnostics g) _).filter Diagnostic.isError = _
    simp only [List.filter_flatMap, errors_diagnostics]
  reported r _ := reported_run r
  skipped := by
    rw [generate_eq]
    rfl
  tree := by rw [tree_eq, replay_journal]
  untouched l hnot := by
    refine (spares_generate g t target).file_iff fun f hf => ?_
    rw [SourceFile.pathBelow_eq]
    apply hnot
    rw [written_eq]
    exact List.mem_map_of_mem hf

/-- A run tries to write what the preview shows, but for the projects that it cannot prepare, and
its report accounts for everything that it does. Afterwards the path of a written file, below the
target, holds the text of the last pair that was written to the place that this path leads to. -/
theorem generate_previewed (g : Generator) (t : FileTree) (target : Path) :
    Accounts g t target (g.journal target t g.projects) ∧
      ∀ path ∈ (g.generate t target).2.written,
        ∃ earlier last later,
          (succeeded (g.journal target t g.projects)).map Attempt.pair =
            earlier ++ last :: later ∧
          (g.generate t target).1.locate (target.join last.1) =
            (g.generate t target).1.locate (target.join path) ∧
          (∀ pair ∈ later, (g.generate t target).1.locate (target.join pair.1) ≠
            (g.generate t target).1.locate (target.join path)) ∧
          (g.generate t target).1.read? (target.join path) = some last.2 := by
  refine ⟨accounts_journal g t target, fun path hpath => ?_⟩
  rw [written_eq] at hpath
  obtain ⟨f, hf, rfl⟩ := List.mem_map.1 hpath
  obtain ⟨earlier, last, later, heq, hplace, hlater, hread⟩ := read?_saved g t target hf
  have hpairs : (succeeded (g.journal target t g.projects)).map Attempt.pair =
      (g.savedInOrder t target).map fun f => (f.path, f.text) := by
    rw [savedInOrder_eq_succeeded, List.map_map]
    rfl
  refine ⟨earlier.map fun f => (f.path, f.text), (last.path, last.text),
    later.map fun f => (f.path, f.text), ?_, ?_, fun pair hpair => ?_, ?_⟩
  · rw [hpairs, heq, List.map_append, List.map_cons]
  · rw [← SourceFile.pathBelow_eq, ← SourceFile.pathBelow_eq]
    exact hplace
  · obtain ⟨k, hk, rfl⟩ := List.mem_map.1 hpair
    rw [← SourceFile.pathBelow_eq, ← SourceFile.pathBelow_eq]
    exact hlater k hk
  · rw [← SourceFile.pathBelow_eq]
    exact hread

end EventForge.Java.Generator
