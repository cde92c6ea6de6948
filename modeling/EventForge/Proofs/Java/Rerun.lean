import EventForge.Proofs.Java.Overwriting

/-!
# Running twice

A second run finds the tree that the first one left. It gives up the projects whose directory is
there now; of the others it creates nothing new and saves the files that the first run saved, at the
same places. So it only changes texts, and none when every place already holds what it is given last
(`rerun_unchanged_iff`). A new project is opened twice only when a part of its package name is an
absolute path, which keeps its packages out of its directory.
-/

namespace EventForge.Java

open FileTree (Grows Rewrites)

theorem SourceFile.asksDirectory_pathBelow (f : SourceFile) (target : Path) :
    (f.pathBelow target).asksDirectory = false := by
  have hend : ∃ front, (f.pathBelow target).text.toList = front ++ ['.', 'j', 'a', 'v', 'a'] := by
    rw [pathBelow]
    by_cases habs : (Path.mk (f.declaration.name ++ ".java")).isAbsolute
    · rw [Path.join_absolute _ habs]
      exact ⟨f.declaration.name.toList, by simp⟩
    · rw [Path.toList_join _ habs]
      exact ⟨_, by simp only [String.toList_append, ← List.append_assoc]; rfl⟩
  obtain ⟨front, hfront⟩ := hend
  simp [Path.asksDirectory, hfront]

namespace Generator

variable {g : Generator} {target : Path} {t t' later : FileTree}

/-- The project can be opened in the tree: it has no directory of its own, or not yet. -/
def Reopens (target : Path) (t : FileTree) (p : Context × Layout) : Prop :=
  ¬ (p.2.mode = .createNew ∧ t.contains (target.join p.2.sourceRoot))

instance (target : Path) (t : FileTree) (p : Context × Layout) : Decidable (Reopens target t p) :=
  inferInstanceAs (Decidable (¬ _))

/-- The files that a run saves for projects that can be opened again after it. -/
def resaved (g : Generator) (t : FileTree) (target : Path) : List SourceFile :=
  ((g.saved t target).filter fun a => Reopens target (g.generate t target).1 a.project).flatMap
    SavedProject.files

/-! ## What is done again -/

/-- An attempt to save a file has the same outcome in every later tree and only changes a text. -/
theorem save_again {f : SourceFile} (h : Grows (treeAfterFile target t f) later) :
    (IsSaved target later f ↔ IsSaved target t f) ∧
      Rewrites later (treeAfterFile target later f) := by
  rw [treeAfterFile] at h
  rw [IsSaved, IsSaved, treeAfterFile]
  cases hsave : (t.save (f.pathBelow target) f.text).2 with
  | none =>
    obtain ⟨l, old, -, hentry, hagain⟩ := FileTree.save_again_of_none hsave h
    rw [hagain]
    exact ⟨iff_of_true rfl rfl, FileTree.rewrites_set hentry _⟩
  | some fault =>
    have hagain := FileTree.save_again_of_some (f.asksDirectory_pathBelow target) hsave h
    rw [hagain]
    exact ⟨Iff.rfl, .refl later⟩

theorem files_again {files : List SourceFile}
    (h : Grows (files.foldl (treeAfterFile target) t) t') (hlater : Rewrites t' later) :
    savedFiles target later files = savedFiles target t files ∧
      Rewrites t' (files.foldl (treeAfterFile target) later) := by
  induction files generalizing t later with
  | nil => exact ⟨rfl, hlater⟩
  | cons f rest ih =>
    rw [List.foldl_cons] at h
    have hafter := (spares_files target rest (treeAfterFile target t f)).grows
    obtain ⟨hsaved, hrewrites⟩ := save_again ((hafter.trans h).trans hlater.grows)
    obtain ⟨hrest, htree⟩ := ih h (hlater.trans hrewrites)
    refine ⟨?_, htree⟩
    simp only [savedFiles, hrest, hsaved]

/-- Of a project that can still be opened the same files are saved again, of another one none. -/
theorem project_again {p : Context × Layout} (h : Grows (g.treeAfter target t p) t')
    (hlater : Rewrites t' later) :
    g.savedOf target later p = (if Reopens target t' p then g.savedOf target t p else []) ∧
      Rewrites t' (g.treeAfter target later p) := by
  have hprepared := grows_prepare_treeAfter g target t p
  have hagain := Layout.prepare_again ((hprepared.trans h).trans hlater.grows)
  by_cases hreopens : Reopens target t' p
  · have hfree : ¬ (p.2.mode = .createNew ∧ later.contains (target.join p.2.sourceRoot)) := by
      rwa [hlater.contains_iff]
    rw [if_neg hfree] at hagain
    rw [if_pos hreopens]
    rw [treeAfter] at h ⊢
    rw [savedOf, savedOf, hagain]
    rcases hprepare : p.2.prepare t target with ⟨t₁, _ | fault⟩
    · simp only [hprepare] at h
      exact files_again h hlater
    · exact ⟨rfl, hlater⟩
  · have hoccupied : p.2.mode = .createNew ∧ later.contains (target.join p.2.sourceRoot) := by
      rw [hlater.contains_iff]
      exact not_not.1 hreopens
    rw [if_pos hoccupied] at hagain
    rw [if_neg hreopens, savedOf, treeAfter, hagain]
    exact ⟨rfl, hlater⟩

theorem log_again {projects : List (Context × Layout)}
    (h : Grows (projects.foldl (g.treeAfter target) t) t') (hlater : Rewrites t' later) :
    (g.log target later projects).flatMap SavedProject.files =
        ((g.log target t projects).filter fun a => Reopens target t' a.project).flatMap
          SavedProject.files ∧
      Rewrites t' (projects.foldl (g.treeAfter target) later) := by
  induction projects generalizing t later with
  | nil => exact ⟨rfl, hlater⟩
  | cons p rest ih =>
    rw [List.foldl_cons] at h
    have hafter := (spares_projects g target rest (g.treeAfter target t p)).grows
    obtain ⟨hfiles, hrewrites⟩ := project_again (hafter.trans h) hlater
    obtain ⟨hrest, htree⟩ := ih h hrewrites
    refine ⟨?_, htree⟩
    rw [log, log, List.flatMap_cons, hfiles, hrest, List.filter_cons]
    by_cases hreopens : Reopens target t' p
    · simp [hreopens]
    · simp [hreopens]

/-- A second run saves the files of the projects that it can open, and only changes texts. -/
theorem generate_again (g : Generator) (t : FileTree) (target : Path) :
    g.savedInOrder (g.generate t target).1 target = g.resaved t target ∧
      Rewrites (g.generate t target).1 (g.generate (g.generate t target).1 target).1 := by
  have hgrows : Grows (g.projects.foldl (g.treeAfter target) t) (g.generate t target).1 := by
    rw [tree_eq]
    exact .refl _
  obtain ⟨hfiles, hrewrites⟩ := log_again hgrows (.refl (g.generate t target).1)
  refine ⟨hfiles, ?_⟩
  rwa [tree_eq g (g.generate t target).1]

/-! ## When nothing changes -/

/-- Of the entries of a list that pass a test, the last one is found from both ends. -/
theorem eq_of_last {α : Type*} {P : α → Prop} {before before' after after' : List α} {a a' : α}
    (h : before ++ a :: after = before' ++ a' :: after') (ha : P a) (ha' : P a')
    (hafter : ∀ b ∈ after, ¬ P b) (hafter' : ∀ b ∈ after', ¬ P b) : a = a' := by
  classical
  have hlast : ∀ {before after : List α} {a : α}, P a → (∀ b ∈ after, ¬ P b) →
      ((before ++ a :: after).filter fun b => decide (P b)).getLast? = some a := by
    intro before after a ha hafter
    have hnil : after.filter (fun b => decide (P b)) = [] := by
      simpa [List.filter_eq_nil_iff] using hafter
    simp [ha, hnil]
  exact Option.some.inj ((hlast ha hafter).symm.trans (h ▸ hlast ha' hafter'))

/-- A file that is found in both trees has the same text in both. -/
theorem HoldsAll.entry_eq {fs : List SourceFile} (h : HoldsAll target t fs)
    (h' : HoldsAll target t' fs) (hrewrites : Rewrites t t') {f : SourceFile} (hf : f ∈ fs)
    {l : Location} (hl : t.locate (f.pathBelow target) = .ok l) : t'.entry? l = t.entry? l := by
  obtain ⟨place, hplace, -, earlier, last, later, heq, hlast, hentry, hnot⟩ := h f hf
  obtain ⟨place', hplace', -, earlier', last', later', heq', hlast', hentry', hnot'⟩ := h' f hf
  have hplace_eq : place = l := Except.ok.inj (hplace.symm.trans hl)
  have hplace_eq' : place' = l := Except.ok.inj (hplace'.symm.trans (hrewrites.locate_iff.2 hl))
  rw [hplace_eq] at hlast hentry hnot
  rw [hplace_eq'] at hlast' hentry' hnot'
  have hfirst := hrewrites.locate_iff.1 hlast'
  have hnot'' : ∀ k ∈ later', ¬ t.locate (k.pathBelow target) = .ok l :=
    fun k hk hfound => hnot' k hk (hrewrites.locate_iff.2 hfound)
  have hsame : last = last' :=
    eq_of_last (P := fun k : SourceFile => t.locate (k.pathBelow target) = .ok l)
      (heq.symm.trans heq') hlast hfirst hnot hnot''
  rw [hentry, hentry', hsame]

/-- A second run leaves the tree as it is exactly when the places of the files that it saves hold the
texts that they are given last. -/
theorem rerun_tree_iff (g : Generator) (t : FileTree) (target : Path) :
    (g.generate (g.generate t target).1 target).1 = (g.generate t target).1 ↔
      HoldsAll target (g.generate t target).1 (g.resaved t target) := by
  obtain ⟨hfiles, hrewrites⟩ := generate_again g t target
  have hsecond := holdsAll_saved g (g.generate t target).1 target
  have hspares := spares_generate g (g.generate t target).1 target
  rw [hfiles] at hsecond hspares
  constructor
  · intro heq
    rwa [heq] at hsecond
  · intro hfirst
    refine hrewrites.eq_of_files fun l text hl => ?_
    by_cases hfile : ∃ f ∈ g.resaved t target,
        (g.generate t target).1.locate (f.pathBelow target) = .ok l
    · obtain ⟨f, hf, hplace⟩ := hfile
      rw [hfirst.entry_eq hsecond hrewrites hf hplace, hl]
    · apply (hspares.file_iff (fun f hf hplace => ?_) text).2 hl
      exact hfile ⟨f, hf, hrewrites.locate_iff.1 hplace⟩

theorem resaved_useExisting (hmode : g.options.mode = .useExisting) (t : FileTree)
    (target : Path) : g.resaved t target = g.savedInOrder t target := by
  have hreopens : (g.saved t target).filter
      (fun a => Reopens target (g.generate t target).1 a.project) = g.saved t target := by
    refine List.filter_eq_self.2 fun a ha => decide_eq_true ?_
    rintro ⟨hnew, -⟩
    rw [mode_of_mem_projects (mem_log ha).1, hmode] at hnew
    cases hnew
  rw [resaved, hreopens, savedInOrder]

/-- A project of which a file was saved has its source root from then on, if it is a new one and no
part of its namespace is absolute. -/
theorem contains_of_savedOf {projects : List (Context × Layout)} {a : SavedProject}
    (h : a ∈ g.log target t projects) (hfiles : a.files ≠ [])
    (hroot : a.project.2.sourceRoot.text ≠ "")
    (hns : ∀ piece ∈ Text.pieces '.' a.project.2.ns, ¬ (Path.mk piece).isAbsolute) :
    (projects.foldl (g.treeAfter target) t).contains
      (target.join a.project.2.sourceRoot) := by
  induction projects generalizing t with
  | nil => exact absurd h List.not_mem_nil
  | cons p rest ih =>
    rw [List.foldl_cons]
    rw [log] at h
    rcases List.mem_cons.1 h with rfl | h
    · apply (spares_projects g target rest _).grows.contains
      apply (grows_prepare_treeAfter g target t p).contains
      apply Layout.contains_sourceRoot hroot hns
      by_contra hgiven
      exact hfiles (savedOf_eq_nil hgiven)
    · exact ih h

theorem resaved_createNew (hmode : g.options.mode = .createNew)
    (hns : ∀ p ∈ g.projects, ∀ piece ∈ Text.pieces '.' p.2.ns, ¬ (Path.mk piece).isAbsolute)
    (t : FileTree) (target : Path) : g.resaved t target = [] := by
  rw [resaved, List.flatMap_eq_nil_iff]
  intro a ha
  obtain ⟨ha, hreopens⟩ := List.mem_filter.1 ha
  by_contra hfiles
  have hproject := (mem_log ha).1
  have hnew : a.project.2.mode = .createNew := (mode_of_mem_projects hproject).trans hmode
  have hthere :=
    contains_of_savedOf ha hfiles (sourceRoot_ne_of_new hproject hnew) (hns a.project hproject)
  rw [← tree_eq] at hthere
  exact of_decide_eq_true hreopens ⟨hnew, hthere⟩

/-- A second run writes the files of the projects that it can open once more, and leaves the tree as
the first run left it exactly when their places hold what they are given last. Into an existing
project nothing changes; of new projects nothing is written when no part of a package name is
absolute. -/
theorem rerun_unchanged_iff (g : Generator) (t : FileTree) (target : Path) :
    (g.generate (g.generate t target).1 target).2.written =
        (g.resaved t target).map SourceFile.path ∧
      ((g.generate (g.generate t target).1 target).1 = (g.generate t target).1 ↔
        HoldsAll target (g.generate t target).1 (g.resaved t target)) ∧
      (g.options.mode = .useExisting →
        (g.generate (g.generate t target).1 target).1 = (g.generate t target).1) ∧
      (g.options.mode = .createNew →
        (∀ p ∈ g.projects, ∀ piece ∈ Text.pieces '.' p.2.ns, ¬ (Path.mk piece).isAbsolute) →
          (g.generate (g.generate t target).1 target).1 = (g.generate t target).1 ∧
            (g.generate (g.generate t target).1 target).2.written = []) := by
  have hwritten : (g.generate (g.generate t target).1 target).2.written =
      (g.resaved t target).map SourceFile.path := by
    rw [written_eq, (generate_again g t target).1]
  refine ⟨hwritten, rerun_tree_iff g t target, fun hmode => ?_, fun hmode hns => ?_⟩
  · rw [rerun_tree_iff, resaved_useExisting hmode]
    exact holdsAll_saved g t target
  · rw [rerun_tree_iff, hwritten, resaved_createNew hmode hns]
    exact ⟨.nil target _, rfl⟩

/-- Two streams, each with an event; the name of the first stream and that of the second event are
absolute paths. -/
def absoluteStream : Generator :=
  .ofModel
    { Model.empty with
      streams := [⟨.uniform 1, "/o"⟩, ⟨.uniform 2, "P"⟩]
      events := Dict.ofList
        [(.uniform 3, ⟨.uniform 3, "E", none, none⟩),
          (.uniform 4, ⟨.uniform 4, "/o/events/E", none, none⟩)]
      placements := Dict.ofList
        [(.uniform 5, ⟨.uniform 5, 0, .event, .uniform 3, .stream, some (.uniform 1)⟩),
          (.uniform 6, ⟨.uniform 6, 0, .event, .uniform 4, .stream, some (.uniform 2)⟩)] }
    ⟨.fallback, .createNew, .tab⟩

/-- The source root of the first stream never exists, so a second run writes its class again, over
that of the second stream. -/
theorem absoluteStream_rewritten :
    absoluteStream.options.mode = .createNew ∧
      (absoluteStream.generate (absoluteStream.generate ∅ ⟨"out"⟩).1 ⟨"out"⟩).2.written =
        [⟨"/o/events/E.java"⟩] ∧
      (absoluteStream.generate (absoluteStream.generate ∅ ⟨"out"⟩).1 ⟨"out"⟩).1 ≠
        (absoluteStream.generate ∅ ⟨"out"⟩).1 := by
  decide +kernel

end Generator

end EventForge.Java
