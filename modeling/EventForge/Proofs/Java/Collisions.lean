import EventForge.Proofs.FileTree.Below
import EventForge.Proofs.Java.PlainNames
import EventForge.Proofs.Java.Preview
import Mathlib.Data.List.Infix

/-!
# Projects of one directory

In an empty directory where everything can be created, a new project is given up exactly when an
earlier one has the same source root (`prepared_iff`). The invariant along the run is `Stand`:
whatever stands below the target is on the way to a package or a file of a project that was prepared.
When no name has a slash, such a way passes through another source root only if the two are the same.
-/

namespace EventForge.Java.Generator

open FileTree (Grows)

variable {g : Generator} {target : Path} {t before : FileTree} {base place : Location}
  {a b : Context × Layout}

/-- Every directory and every file that a run asks for can be created. -/
structure Unhindered (g : Generator) (t : FileTree) (target : Path) : Prop where
  directories : ∀ r ∈ g.journal target t g.projects, ∀ dir cause,
    r.outcome ≠ .error (.directory dir cause)
  files : ∀ r ∈ g.journal target t g.projects, ∀ a ∈ r.attempts, a.isSaved

/-- The sources of the two projects lie in one directory. -/
def SameRoot (a b : Context × Layout) : Prop := a.2.sourceRoot.steps = b.2.sourceRoot.steps

instance (a b : Context × Layout) : Decidable (SameRoot a b) :=
  inferInstanceAs (Decidable (_ = _))

/-- The place is on the way to a package or a file of the project. -/
def OnTheWay (g : Generator) (base : Location) (a : Context × Layout) (place : Location) : Prop :=
  (∃ kind, (a.2.packageDir kind).Passes base place) ∨
    ∃ f ∈ (g.filesOf a).files, f.path.Passes base place

/-- Packages stay below the target, and no project and no declaration has a slash in its name. -/
structure Tidy (g : Generator) : Prop where
  names : ∀ p ∈ g.projects, '/' ∉ p.1.projectName.toList
  packages : ∀ p ∈ g.projects, ∀ kind, (p.2.packageDir kind).Contained
  declarations : ∀ p ∈ g.projects, ∀ f ∈ (g.filesOf p).files, '/' ∉ f.declaration.name.toList

/-- The packages of the earlier projects stand, and below the base there is nothing but what is on
the way to packages and files of theirs. -/
structure Stand (g : Generator) (target : Path) (base : Location) (before : FileTree)
    (earlier : List (Context × Layout)) (t : FileTree) : Prop where
  grows : Grows before t
  packages : ∀ a ∈ earlier, ∀ kind, ∃ l, t.locate (target.join (a.2.packageDir kind)) = .ok l ∧
    t.entry? l = some .directory
  onTheWay : before.AddsOnly t fun place => ∃ a ∈ earlier, g.OnTheWay base a place

/-! ## What a project adds -/

theorem addsOnly_makeAll {l : Layout} (hl : ∀ kind, (l.packageDir kind).Contained)
    (hbase : t.locate target = .ok base) (hdir : t.entry? base = some .directory)
    (kinds : List PackageKind) :
    t.AddsOnly (Layout.makeAll t (kinds.map fun kind => target.join (l.packageDir kind))).1
      fun place => ∃ kind, (l.packageDir kind).Passes base place := by
  induction kinds generalizing t with
  | nil => exact .refl t _
  | cons kind rest ih =>
    have hmade := (FileTree.addsOnly_makeDirectories hbase hdir (hl kind)).mono
      (Q := fun place => ∃ kind, (l.packageDir kind).Passes base place)
      fun place hplace => ⟨kind, hplace⟩
    have hgrows := FileTree.grows_makeDirectories t (target.join (l.packageDir kind))
    rw [List.map_cons, Layout.makeAll]
    rcases hresult : t.makeDirectories (target.join (l.packageDir kind)) with ⟨t₁, _ | cause⟩
    · rw [hresult] at hmade hgrows
      exact hmade.trans (ih (hgrows.locate hbase) (hgrows.directory hdir))
    · rw [hresult] at hmade
      exact hmade

theorem addsOnly_prepare {l : Layout} (hl : ∀ kind, (l.packageDir kind).Contained)
    (hbase : t.locate target = .ok base) (hdir : t.entry? base = some .directory) :
    t.AddsOnly (l.prepare t target).1 fun place =>
      ∃ kind, (l.packageDir kind).Passes base place := by
  rw [Layout.prepare]
  split
  · exact .refl t _
  · exact addsOnly_makeAll hl hbase hdir _

theorem addsOnly_files {files : List SourceFile} (hfiles : ∀ f ∈ files, f.path.Contained)
    (hsteps : ∀ f ∈ files, f.path.steps ≠ []) (hbase : t.locate target = .ok base)
    (hdir : t.entry? base = some .directory) :
    t.AddsOnly (files.foldl (treeAfterFile target) t)
      fun place => ∃ f ∈ files, f.path.Passes base place := by
  induction files generalizing t with
  | nil => exact .refl t _
  | cons f rest ih =>
    rw [List.forall_mem_cons] at hfiles hsteps
    have hsave := FileTree.addsOnly_save hbase hdir hfiles.1 f.text hsteps.1
    rw [← SourceFile.pathBelow_eq] at hsave
    have hgrows : Grows t (treeAfterFile target t f) := (spares_files target [f] t).grows
    have hrest := ih hfiles.2 hsteps.2 (hgrows.locate hbase) (hgrows.directory hdir)
    rw [List.foldl_cons]
    refine (hsave.mono fun place hplace => ?_).trans (hrest.mono fun place hplace => ?_)
    · exact ⟨f, List.mem_cons_self, hplace⟩
    · obtain ⟨k, hk, hpasses⟩ := hplace
      exact ⟨k, List.mem_cons_of_mem f hk, hpasses⟩

/-! ## The invariant of a run -/

section Run

variable (hmode : g.options.mode = .createNew) (htidy : g.Tidy)
  (hbase : before.locate target = .ok base) (hdir : before.entry? base = some .directory)
  (hempty : ∀ n rest, n ≠ "/" → n ≠ ".." → before.entry? (base ++ n :: rest) = none)
  {earlier : List (Context × Layout)} (hstand : Stand g target base before earlier t)
  (ha : a ∈ g.projects) (hb : b ∈ g.projects)

include hmode hb in
theorem new_of_mem_projects : b.2.mode = .createNew := (mode_of_mem_projects hb).trans hmode

include hmode hb in
theorem steps_sourceRoot :
    b.2.sourceRoot.steps = (Path.mk b.1.projectName).steps ++ [.name "src"] := by
  rw [sourceRoot_of_new hb (new_of_mem_projects hmode hb), Path.steps_join _ (by decide)]
  rfl

include htidy hb in
theorem Tidy.relative : ∀ piece ∈ Text.pieces '.' b.2.ns, ¬ (Path.mk piece).isAbsolute := by
  have hpackage := htidy.packages b hb .commands
  rw [Layout.packageDir, Path.contained_join, Path.contained_extend] at hpackage
  exact fun piece hpiece => (hpackage.1.2 piece hpiece).1

include htidy hb in
theorem Tidy.sourceRoot : b.2.sourceRoot.Contained := by
  have hpackage := htidy.packages b hb .commands
  rw [Layout.packageDir, Path.contained_join, Path.contained_extend] at hpackage
  exact hpackage.1.1

include htidy hb in
theorem Tidy.sourceRoot_prefix (kind : PackageKind) :
    b.2.sourceRoot.steps <+: (b.2.packageDir kind).steps := by
  have hstarts := (Layout.starts_packageDir (htidy.relative hb) ⟨""⟩ kind).components
  rw [Path.nil_join, Path.nil_join] at hstarts
  exact hstarts.filter _

include hmode htidy ha hb in
/-- Every source root ends with its own name, which no project has. -/
theorem Tidy.eq_of_prefix (h : a.2.sourceRoot.steps <+: b.2.sourceRoot.steps) : SameRoot a b := by
  have hsteps := steps_sourceRoot hmode hb
  rw [SameRoot]
  rw [hsteps, List.prefix_concat_iff, ← hsteps] at h
  refine h.resolve_right fun hbefore => ?_
  have hsrc : .name "src" ∈ (Path.mk b.1.projectName).steps := by
    apply hbefore.subset
    rw [steps_sourceRoot hmode ha]
    exact List.mem_append_right _ (List.mem_singleton_self _)
  exact titled_ne_src (Path.eq_of_name_mem_steps (htidy.names b hb) hsrc)

include hmode htidy ha hb in
/-- A package goes through no other source root than that of its project. -/
theorem Tidy.sameRoot {kind : PackageKind}
    (h : b.2.sourceRoot.steps <+: (a.2.packageDir kind).steps) : SameRoot a b := by
  rcases List.prefix_or_prefix_of_prefix h (htidy.sourceRoot_prefix ha kind) with h | h
  · exact (htidy.eq_of_prefix hmode hb ha h).symm
  · exact htidy.eq_of_prefix hmode ha hb h

include htidy hb in
/-- The last step to a file is its name. -/
theorem Tidy.steps_path {f : SourceFile} (hf : f ∈ (g.filesOf b).files) :
    ∃ kind, f.path.steps =
      (b.2.packageDir kind).steps ++ [.name (f.declaration.name ++ ".java")] := by
  obtain ⟨kind, hpath⟩ := exists_path_eq hf
  have hname := htidy.declarations b hb f hf
  have hslash : '/' ∉ (f.declaration.name ++ ".java").toList := by simp [hname]
  refine ⟨kind, ?_⟩
  rw [hpath, Path.steps_join _ (Path.relative_of_no_slash hslash), Path.steps_name hslash (by simp)]

include htidy hb in
theorem Tidy.contained_path {f : SourceFile} (hf : f ∈ (g.filesOf b).files) : f.path.Contained := by
  obtain ⟨kind, hpath⟩ := exists_path_eq hf
  rw [hpath, Path.contained_join]
  exact ⟨htidy.packages b hb kind, declarationStays_of_plain (htidy.declarations b hb f hf)⟩

include hmode htidy hbase hstand ha hb in
/-- A project is given up when an earlier one has its source root. -/
theorem Stand.not_prepared (hmem : a ∈ earlier) (hsame : SameRoot a b) :
    (b.2.prepare t target).2 ≠ none := by
  intro hprepared
  have hnew := new_of_mem_projects hmode hb
  have hroot := sourceRoot_ne_of_new hb hnew
  obtain ⟨l, hl, hentry⟩ := hstand.packages a hmem .commands
  have hbase' := hstand.grows.locate hbase
  have hfrom := FileTree.locate_below hbase' (htidy.packages a ha .commands) hl
  obtain ⟨rest, hrest⟩ := htidy.sourceRoot_prefix ha .commands
  rw [← hrest, hsame] at hfrom
  obtain ⟨mid, hmid, hlast⟩ := FileTree.locateFrom_append_eq_ok.1 hfrom
  -- The project was prepared, so its source root is a path that can be looked at.
  have hthere := Layout.contains_sourceRoot hroot (htidy.relative hb) hprepared
  obtain ⟨-, _, hlater, -⟩ := FileTree.contains_iff.1 hthere
  have hfault := FileTree.pathFault?_of_locate hlater
  have hlocate : t.locate (target.join b.2.sourceRoot) = .ok mid :=
    (FileTree.locate_join_eq_ok (htidy.sourceRoot hb).1).2 ⟨hfault, base, hbase', hmid⟩
  have hcontains : t.contains (target.join b.2.sourceRoot) := by
    refine FileTree.contains_iff.2 ⟨Path.join_text_ne target hroot, mid, hlocate, ?_⟩
    rcases FileTree.entry?_of_locateFrom hlast with hdir | rfl
    · rw [hdir]
      rfl
    · rw [hentry]
      rfl
  rw [Layout.prepare, if_pos ⟨hnew, hcontains⟩] at hprepared
  cases hprepared

include hmode htidy ha hb in
/-- What a project makes comes through its own source root and through no other one. -/
theorem Tidy.sameRoot_of_onTheWay {names : List String}
    (hnames : b.2.sourceRoot.steps = names.map .name)
    (hway : g.OnTheWay base a (base ++ names)) : SameRoot a b := by
  have hbelow : ∀ {q : Path}, q.Passes base (base ++ names) →
      b.2.sourceRoot.steps <+: q.steps := by
    rintro q ⟨names', hnames', hpasses⟩
    rw [hnames, hnames']
    exact ((List.prefix_append_right_inj base).1 hpasses).map _
  rcases hway with ⟨kind, hpasses⟩ | ⟨f, hf, hpasses⟩
  · exact htidy.sameRoot hmode ha hb (hbelow hpasses)
  · obtain ⟨kind, hpath⟩ := htidy.steps_path ha hf
    have hfile := hbelow hpasses
    rw [hpath, List.prefix_concat_iff] at hfile
    rcases hfile with heq | hfile
    · -- No class is called like the directory of sources.
      rw [steps_sourceRoot hmode hb] at heq
      have hlast := List.append_inj_right' heq rfl
      have hlength := congrArg (fun n => n.toList.length)
        (Component.name.inj (List.cons.inj hlast).1)
      simp at hlength
    · exact htidy.sameRoot hmode ha hb hfile

include hmode htidy hbase hempty hstand hb in
/-- A project whose source root is taken has that of an earlier one. -/
theorem Stand.exists_sameRoot (hearlier : earlier ⊆ g.projects)
    (hoccupied : t.contains (target.join b.2.sourceRoot)) : ∃ a ∈ earlier, SameRoot a b := by
  have hcontained := htidy.sourceRoot hb
  obtain ⟨-, l, hl, hsome⟩ := FileTree.contains_iff.1 hoccupied
  obtain ⟨base', names, hbase', hnames, rfl⟩ := FileTree.locate_join_contained hcontained hl
  obtain rfl : base = base' := Except.ok.inj ((hstand.grows.locate hbase).symm.trans hbase')
  rcases hstand.onTheWay _ hsome with hold | ⟨a, ha, hway⟩
  · -- The directory was empty, so nothing stood there before.
    obtain _ | ⟨n, rest⟩ := names
    · rw [steps_sourceRoot hmode hb] at hnames
      simp at hnames
    · have hn := Path.name_mem_steps hcontained.1 (by rw [hnames]; exact List.mem_cons_self)
      rw [hempty n rest hn.1 hn.2] at hold
      cases hold
  · exact ⟨a, ha, htidy.sameRoot_of_onTheWay hmode (hearlier ha) hb hnames hway⟩

include htidy hbase hdir hstand hb in
/-- After a project that was prepared, it is one of the earlier ones. -/
theorem Stand.next (hprepared : (b.2.prepare t target).2 = none) :
    Stand g target base before (earlier ++ [b]) (g.treeAfter target t b) := by
  have hafter := (spares_project g target t b).grows
  have hmade := (b.2.keeps_prepare t target).grows
  have hfiles := grows_prepare_treeAfter g target t b
  have hbase' := hstand.grows.locate hbase
  have hdir' := hstand.grows.directory hdir
  refine ⟨hstand.grows.trans hafter, fun a ha kind => ?_, ?_⟩
  · rcases List.mem_append.1 ha with ha | ha
    · obtain ⟨l, hl, hentry⟩ := hstand.packages a ha kind
      exact ⟨l, hafter.locate hl, hafter.directory hentry⟩
    · rw [List.mem_singleton.1 ha]
      obtain ⟨l, hl, hentry⟩ := Layout.locate_prepare hprepared kind
      exact ⟨l, hfiles.locate hl, hfiles.directory hentry⟩
  · have hsteps : ∀ f ∈ (g.filesOf b).files, f.path.steps ≠ [] :=
      fun f hf => steps_path_ne hf (htidy.contained_path hb hf)
    have hpackages := addsOnly_prepare (htidy.packages b hb) hbase' hdir'
    have hwritten := addsOnly_files (fun f hf => htidy.contained_path hb hf) hsteps
      (hmade.locate hbase') (hmade.directory hdir')
    rw [← treeAfter_of_prepared hprepared] at hwritten
    refine (hstand.onTheWay.mono ?_).trans ((hpackages.mono ?_).trans (hwritten.mono ?_))
    · rintro place ⟨a, ha, hway⟩
      exact ⟨a, List.mem_append_left _ ha, hway⟩
    · exact fun place hpackage => ⟨b, by simp, .inl hpackage⟩
    · exact fun place hfile => ⟨b, by simp, .inr hfile⟩

include hmode htidy hbase hdir hempty in
/-- Projects are all prepared exactly when none has the source root of an earlier one. -/
theorem Stand.prepared_iff (hstand : Stand g target base before earlier t)
    (hearlier : earlier ⊆ g.projects) {projects : List (Context × Layout)}
    (hprojects : projects ⊆ g.projects)
    (hdirs : ∀ r ∈ g.journal target t projects, ∀ dir cause,
      r.outcome ≠ .error (.directory dir cause)) :
    (∀ r ∈ g.journal target t projects, r.isPrepared) ↔
      (∀ b ∈ projects, ∀ a ∈ earlier, ¬ SameRoot a b) ∧
        projects.Pairwise fun a b => ¬ SameRoot a b := by
  induction projects generalizing t earlier with
  | nil => simp [journal]
  | cons b rest ih =>
    rw [List.cons_subset] at hprojects
    obtain ⟨hb, hrest⟩ := hprojects
    rw [journal, List.forall_mem_cons] at hdirs
    rw [journal, List.forall_mem_cons, isPrepared_runOf, List.forall_mem_cons, List.pairwise_cons]
    by_cases hprepared : (b.2.prepare t target).2 = none
    · have hnext := hstand.next htidy hbase hdir hb hprepared
      have hearlier' : earlier ++ [b] ⊆ g.projects :=
        List.append_subset.2 ⟨hearlier, List.cons_subset.2 ⟨hb, List.nil_subset _⟩⟩
      have hfree : ∀ a ∈ earlier, ¬ SameRoot a b := fun a ha hsame =>
        hstand.not_prepared hmode htidy hbase (hearlier ha) hb ha hsame hprepared
      rw [ih hnext hearlier' hrest hdirs.2]
      constructor
      · rintro ⟨-, hlater, hpairs⟩
        refine ⟨⟨hfree, fun c hc a ha => hlater c hc a (List.mem_append_left _ ha)⟩,
          fun c hc => hlater c hc b (by simp), hpairs⟩
      · rintro ⟨⟨-, hlater⟩, hhead, hpairs⟩
        refine ⟨hprepared, fun c hc a ha => ?_, hpairs⟩
        rcases List.mem_append.1 ha with ha | ha
        · exact hlater c hc a ha
        · rw [List.mem_singleton.1 ha]
          exact hhead c hc
    · refine iff_of_false (fun h => hprepared h.1) ?_
      rintro ⟨⟨hfree, -⟩, -⟩
      -- Its directories can be created, so it was given up for its source root.
      obtain ⟨fault, hfault⟩ := Option.ne_none_iff_exists'.1 hprepared
      rcases Layout.fault_of_prepare hfault with ⟨-, hoccupied⟩ | ⟨dir, cause, rfl⟩
      · obtain ⟨a, ha, hsame⟩ :=
          hstand.exists_sameRoot hmode htidy hbase hempty hb hearlier hoccupied
        exact hfree a ha hsame
      · exact hdirs.1 dir cause (outcome_runOf hfault)

end Run

/-- Into an existing project everything can go that can be created. -/
theorem prepared_of_existing {projects : List (Context × Layout)}
    (hmode : ∀ p ∈ projects, p.2.mode = .useExisting)
    (hdirs : ∀ r ∈ g.journal target t projects, ∀ dir cause,
      r.outcome ≠ .error (.directory dir cause)) :
    ∀ r ∈ g.journal target t projects, r.isPrepared := by
  induction projects generalizing t with
  | nil => exact fun r hr => absurd hr List.not_mem_nil
  | cons p rest ih =>
    rw [List.forall_mem_cons] at hmode
    rw [journal, List.forall_mem_cons] at hdirs ⊢
    refine ⟨?_, ih hmode.2 hdirs.2⟩
    rw [isPrepared_runOf]
    by_contra hgiven
    obtain ⟨fault, hfault⟩ := Option.ne_none_iff_exists'.1 hgiven
    rcases Layout.fault_of_prepare hfault with ⟨hnew, -⟩ | ⟨dir, cause, rfl⟩
    · rw [hmode.1] at hnew
      cases hnew
    · exact hdirs.1 dir cause (outcome_runOf hfault)

/-- In an empty directory where everything can be created, all projects are prepared unless they are
new and two have the same source root. -/
theorem prepared_iff (htidy : g.Tidy) (hempty : t.EmptyDirectory target)
    (hfree : g.Unhindered t target) :
    (∀ r ∈ g.journal target t g.projects, r.isPrepared) ↔
      (g.options.mode = .createNew → g.projects.Pairwise fun a b => ¬ SameRoot a b) := by
  cases hmode : g.options.mode with
  | useExisting =>
    refine iff_of_true ?_ (fun hnew => nomatch hnew)
    exact prepared_of_existing (fun p hp => (mode_of_mem_projects hp).trans hmode)
      hfree.directories
  | createNew =>
    obtain ⟨base, hbase, hdir, hnone⟩ := hempty
    have hstand : Stand g target base t [] t :=
        ⟨.refl t, fun a ha => absurd ha List.not_mem_nil, .refl t _⟩
    rw [hstand.prepared_iff hmode htidy hbase hdir hnone (List.nil_subset _) (List.Subset.refl _)
      hfree.directories]
    simp

/-- With an accepted namespace and plain names the projects of an accepted document are tidy. -/
theorem tidy_of_plainNames {ws : List Diagnostic} (h : Document.Accepted g.model ws)
    (hcontexts : g.contexts = Context.partition g.model) (hplain : PlainNames g.model)
    (hns : Report.choiceFault? g.options.ns = none) : g.Tidy := by
  refine ⟨fun p hp => ?_, fun p hp kind => ?_, fun p _ f hf => ?_⟩
  · exact not_mem_titled (by decide) (not_mem_compact (hplain.project hcontexts hp).1)
  · obtain ⟨hslash, hup⟩ := hplain.project hcontexts hp
    rw [layout_of_mem_projects hp, Layout.contained_packageDir _ _ (ns_relative hns)]
    exact nameStays_of_plain hslash hup _
  · exact ContextFiles.slash_not_mem_declaration h hplain.notes hf

end EventForge.Java.Generator
