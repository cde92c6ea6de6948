import EventForge.Proofs.Compilation
import EventForge.Proofs.FileTree.Standing
import EventForge.Proofs.Java.Overwriting
import EventForge.Proofs.Java.PlainNames

/-!
# New projects keep existing files

A new project is opened only when nothing stands at its source root. A place that stood before the
run is therefore led to by no file that the run saves, as long as every file lies below the source
root of its project: what a path without steps up leads to in the end, it led to from the start
(`log_avoids`). With names that lead nowhere else a run leaves every file as it was
(`newProjects_keep_files`).
-/

namespace EventForge

/-- A path without steps up goes on without one. -/
theorem Path.up_not_mem_join {p q : Path} (hp : .up ∉ p.components) (hq : q.Contained) :
    .up ∉ (p.join q).components := by
  by_cases hempty : p.text.toList = []
  · rw [Path.join_of_empty hempty]
    exact hq.2
  · rw [Path.components_join hempty hq.1, List.mem_append, not_or, Path.up_mem_steps]
    exact ⟨hp, hq.2⟩

/-- A file that lies below the target lies below its source root. -/
theorem Layout.rooted_of_contained {l : Layout} {kind : PackageKind} {className : String}
    (h : ((l.packageDir kind).join ⟨className ++ ".java"⟩).Contained) : l.Rooted className := by
  rw [Path.contained_join, packageDir, Path.contained_join, Path.contained_extend] at h
  obtain ⟨⟨⟨-, hpieces⟩, -⟩, hname⟩ := h
  exact ⟨fun piece hpiece => (hpieces piece hpiece).1, hname.1⟩

theorem FileTree.exists_of_read? {t : FileTree} {p : Path} {text : String}
    (h : t.read? p = some text) :
    ∃ l, t.locate p = .ok l ∧ p.asksDirectory = false ∧ t.entry? l = some (.file text) := by
  unfold read? lookup? at h
  cases hl : t.locate p with
  | error fault => simp [hl] at h
  | ok l =>
    simp only [hl] at h
    rcases hentry : t.entry? l with _ | _ | old
    · simp [hentry] at h
    · simp [hentry] at h
    · cases hask : p.asksDirectory with
      | true => simp [hentry, hask] at h
      | false =>
        simp only [hentry, hask, Bool.false_eq_true, if_false, Option.some.injEq] at h
        exact ⟨l, rfl, rfl, by rw [hentry, h]⟩

namespace Java.Generator

open FileTree (Grows)

variable {g : Generator} {target : Path} {t before later : FileTree} {l : Location} {text : String}

/-- Every file of every project lies below the target directory. -/
def StaysBelow (g : Generator) : Prop :=
  ∀ project ∈ g.projects, ∀ f ∈ (g.filesOf project).files, f.path.Contained

/-- A file whose path leads to a place that stands is not saved for a new project. -/
theorem savedOf_avoids (hmode : g.options.mode = .createNew) (htarget : .up ∉ target.components)
    (hstays : g.StaysBelow) {p : Context × Layout} (hp : p ∈ g.projects) (hgrows : Grows before t)
    (hstanding : before.Standing l) (hl : (t.entry? l).isSome) {f : SourceFile}
    (hf : f ∈ g.savedOf target t p) : later.locate (f.pathBelow target) ≠ .ok l := by
  intro hplace
  have hmade := (savedOf_sublist g target t p).mem hf
  have hcontained := hstays p hp f hmade
  obtain ⟨kind, hpath⟩ := exists_path_eq hmade
  have hup : .up ∉ (f.pathBelow target).components := by
    rw [SourceFile.pathBelow_eq]
    exact Path.up_not_mem_join htarget hcontained
  have hbefore := hstanding.locate hup hplace
  -- The path led there before the project was opened, so its source root was taken.
  have hnew : p.2.mode = .createNew := (mode_of_mem_projects hp).trans hmode
  rw [hpath] at hcontained
  have hrooted := Layout.rooted_of_contained hcontained
  have hoccupied := hrooted.occupied hnew (sourceRoot_ne_of_new hp hnew)
    (by rw [SourceFile.pathBelow_eq, hpath]) rfl
    (FileTree.pathFault?_of_locate hbefore) (hgrows.locate hbefore) hl
  rw [savedOf, hoccupied] at hf
  exact List.not_mem_nil hf

/-- No file that is saved for new projects leads to a place that stood before. -/
theorem log_avoids (hmode : g.options.mode = .createNew) (htarget : .up ∉ target.components)
    (hstays : g.StaysBelow) {projects : List (Context × Layout)} (hprojects : projects ⊆ g.projects)
    (hgrows : Grows before t) (hstanding : before.Standing l)
    (hl : before.entry? l = some (.file text)) {f : SourceFile}
    (hf : f ∈ (g.log target t projects).flatMap SavedProject.files) :
    later.locate (f.pathBelow target) ≠ .ok l := by
  induction projects generalizing t with
  | nil => exact absurd hf List.not_mem_nil
  | cons p rest ih =>
    rw [List.cons_subset] at hprojects
    rw [log, List.flatMap_cons] at hf
    rcases List.mem_append.1 hf with hf | hf
    · obtain ⟨old, hold⟩ := hgrows.file hl
      exact savedOf_avoids hmode htarget hstays hprojects.1 hgrows hstanding (by rw [hold]; rfl) hf
    · exact ih hprojects.2 (hgrows.trans (spares_project g target t p).grows) hf

/-- A run of new projects whose files lie below the target directory keeps the files that were
there. -/
theorem entry?_generate (hmode : g.options.mode = .createNew) (htarget : .up ∉ target.components)
    (hstays : g.StaysBelow) (hstanding : t.Standing l) (hl : t.entry? l = some (.file text)) :
    FileTree.entry? (g.generate t target).1 l = some (.file text) := by
  refine ((spares_generate g t target).file_iff (fun f hf => ?_) text).2 hl
  exact log_avoids hmode htarget hstays (List.Subset.refl _) (.refl t) hstanding hl hf

end Java.Generator

namespace Report

open FileTree (Grows)
open Java (Generator ProjectOptions)
open Java.Generator (PlainNames)

theorem grows_generate (m : Model) (ws : List Diagnostic) (options : ProjectOptions)
    (target : Path) (dryRun : Bool) (t : FileTree) :
    Grows t (generate m ws options target dryRun t).1 := by
  unfold generate
  split
  · exact .refl t
  · split
    · exact .refl t
    · cases dryRun with
      | true => exact .refl t
      | false => exact (Generator.spares_generate _ t target).grows

/-- However many projects collide, cannot be prepared or cannot be written: generating new projects
from an accepted document keeps every file that was there, when the names of streams and notes lead
nowhere else and the target has no step up. -/
theorem newProjects_keep_files {m : Model} {ws : List Diagnostic} (h : Document.Accepted m ws)
    (hplain : PlainNames m) {options : ProjectOptions} (hmode : options.mode = .createNew)
    {target : Path} (htarget : .up ∉ target.components) (dryRun : Bool) (t : FileTree) :
    (∀ l text, t.Standing l → t.entry? l = some (.file text) →
        FileTree.entry? (generate m ws options target dryRun t).1 l = some (.file text)) ∧
      ∀ path text, t.read? path = some text →
        (generate m ws options target dryRun t).1.read? path = some text := by
  have hkept : ∀ l text, t.Standing l → t.entry? l = some (.file text) →
      FileTree.entry? (generate m ws options target dryRun t).1 l = some (.file text) := by
    intro l text hstanding hl
    unfold generate
    split
    · exact hl
    · next hns =>
      split
      · exact hl
      · next c hrun =>
        obtain ⟨hmodel, hcontexts, -⟩ := Compilation.run_eq_ok hrun
        subst hmodel
        cases dryRun with
        | true => exact hl
        | false =>
          refine Generator.entry?_generate hmode htarget ?_ hstanding hl
          intro project hproject f hf
          exact Generator.contained_of_plainNames h hcontexts hplain hns hproject hf
  refine ⟨hkept, fun path text hread => ?_⟩
  obtain ⟨l, hl, hask, hentry⟩ := FileTree.exists_of_read? hread
  apply Generator.read?_eq_some ((grows_generate m ws options target dryRun t).locate hl) hask
  exact hkept l text (FileTree.standing_of_locate hl) hentry

/-- Two streams with an event each. -/
def twoShops : Model :=
  { Model.empty with
    streams := [⟨.uniform 1, "Orders"⟩, ⟨.uniform 2, "Carts"⟩]
    events := Dict.ofList
      [(.uniform 3, ⟨.uniform 3, "Placed", none, none⟩),
        (.uniform 4, ⟨.uniform 4, "Filled", none, none⟩)]
    placements := Dict.ofList
      [(.uniform 5, ⟨.uniform 5, 0, .event, .uniform 3, .stream, some (.uniform 1)⟩),
        (.uniform 6, ⟨.uniform 6, 0, .event, .uniform 4, .stream, some (.uniform 2)⟩)] }

def newProjects : ProjectOptions := ⟨.fallback, .createNew, .tab⟩

/-- A file in the directory of the first project and one in the source root of the second. -/
def startedTree : FileTree :=
  ((FileTree.save ∅ ⟨"out/Orders/notes"⟩ "new").1.save ⟨"out/Carts/src/Old.java"⟩ "old").1

/-- The first project is written beside the file that is there, the second one is given up. -/
theorem newProjects_keep_files_twoShops :
    Document.Accepted twoShops [] ∧ PlainNames twoShops ∧ .up ∉ (Path.mk "out").components ∧
      ((generate twoShops [] newProjects ⟨"out"⟩ false startedTree).2.toOption.map
        GenerateReport.outcome) = some (.written ⟨"out"⟩
          [⟨"Orders/src/main/orders/events/Placed.java"⟩] [] ["DefaultStream"]) ∧
      startedTree.entry? ["out", "Orders", "notes"] = some (.file "new") ∧
      FileTree.entry? (generate twoShops [] newProjects ⟨"out"⟩ false startedTree).1
        ["out", "Orders", "notes"] = some (.file "new") ∧
      (generate twoShops [] newProjects ⟨"out"⟩ false startedTree).1.read?
        ⟨"out/Carts/src/Old.java"⟩ = some "old" := by
  have haccepted : Document.Accepted twoShops [] :=
    Document.accepted_of_wellFormed (by decide +kernel)
  have hplain : PlainNames twoShops := by
    refine ⟨by decide +kernel, fun kind => ?_⟩
    cases kind <;> decide +kernel
  have hup : .up ∉ (Path.mk "out").components := by decide
  obtain ⟨hentries, hreads⟩ :=
    newProjects_keep_files haccepted hplain (rfl : newProjects.mode = .createNew) hup false
      startedTree
  have hlocated : startedTree.locate ⟨"out/Orders/notes"⟩ = .ok ["out", "Orders", "notes"] := by
    decide +kernel
  have hthere : startedTree.entry? ["out", "Orders", "notes"] = some (.file "new") := by
    decide +kernel
  exact ⟨haccepted, hplain, hup, by decide +kernel, hthere,
    hentries _ _ (FileTree.standing_of_locate hlocated) hthere, hreads _ _ (by decide +kernel)⟩

end Report

end EventForge
