import EventForge.Document.Reader
import EventForge.Proofs.Java.Run
import EventForge.Proofs.Model
import EventForge.Proofs.Namespace
import EventForge.Report.Generate

/-!
# Where generated files lie

The path of a file is made from the base namespace, the name of a stream and the name of a note or a
schema. Only a given namespace is checked: a file lies below the target directory exactly when
neither of the two names leads out of it (`path_contained_iff`).
-/

namespace EventForge.Java.Generator

variable {g : Generator} {target : Path} {t : FileTree} {p : Path}

/-- Every path that is shown or written is that of a file of a project. -/
theorem file_of_path
    (h : p ∈ g.preview.map Prod.fst ∨ p ∈ (g.generate t target).2.written) :
    ∃ project ∈ g.projects, ∃ f ∈ (g.filesOf project).files, p = f.path := by
  rcases h with h | h
  · obtain ⟨entry, hentry, rfl⟩ := List.mem_map.1 h
    obtain ⟨project, hproject, hfile⟩ := List.mem_flatMap.1 hentry
    obtain ⟨f, hf, rfl⟩ := List.mem_map.1 hfile
    exact ⟨project, hproject, f, hf, rfl⟩
  · rw [written_eq] at h
    obtain ⟨f, hf, rfl⟩ := List.mem_map.1 h
    obtain ⟨a, ha, hfa⟩ := List.mem_flatMap.1 hf
    obtain ⟨hproject, hfiles⟩ := mem_log ha
    exact ⟨a.project, hproject, f, hfiles.mem hfa, rfl⟩

theorem ns_relative (h : Report.choiceFault? g.options.ns = none) :
    ∀ piece ∈ Text.pieces '.' g.ns, ¬ (Path.mk piece).isAbsolute := by
  refine NamespaceChoice.resolve_relative (fun ns hns => ?_) g.model
  rw [hns] at h
  exact h

/-- The name of a declaration leads its file out of no directory. -/
def DeclarationStays (f : SourceFile) : Prop := (Path.mk (f.declaration.name ++ ".java")).Contained

instance (f : SourceFile) : Decidable (DeclarationStays f) :=
  inferInstanceAs (Decidable (Path.Contained _))

theorem contained_path {project : Context × Layout} (hproject : project ∈ g.projects)
    (hns : Report.choiceFault? g.options.ns = none) {f : SourceFile}
    (hf : f ∈ (g.filesOf project).files) :
    f.path.Contained ↔ Layout.NameStays project.1 g.options.mode ∧ DeclarationStays f := by
  obtain ⟨kind, hpath⟩ := exists_path_eq hf
  rw [hpath, Path.contained_join, layout_of_mem_projects hproject,
    Layout.contained_packageDir _ _ (ns_relative hns), DeclarationStays]

/-- A file that lies below the target directory has a step of its own: that of its package. -/
theorem steps_path_ne {project : Context × Layout} {f : SourceFile}
    (hf : f ∈ (g.filesOf project).files) (h : f.path.Contained) : f.path.steps ≠ [] := by
  obtain ⟨kind, hpath⟩ := exists_path_eq hf
  have hkind : .name kind.text ∈ (Path.mk kind.text).steps := by cases kind <;> decide
  rw [hpath, Layout.packageDir, Path.contained_join, Path.contained_join] at h
  obtain ⟨⟨-, hpackage⟩, hname⟩ := h
  rw [hpath, Layout.packageDir, Path.steps_join _ hname.1, Path.steps_join _ hpackage.1]
  exact List.ne_nil_of_mem (List.mem_append_left _ (List.mem_append_right _ hkind))

/-- With a namespace that is accepted, every path that is shown or written is relative and free of
steps up exactly when the name of its context and that of its declaration lead nowhere else; the
file is the target directory joined with the path, and then it lies below the target directory. -/
theorem path_contained_iff (g : Generator) (t : FileTree) (target : Path)
    (hns : Report.choiceFault? g.options.ns = none) {p : Path}
    (hp : p ∈ g.preview.map Prod.fst ∨ p ∈ (g.generate t target).2.written) :
    ∃ project ∈ g.projects, ∃ f ∈ (g.filesOf project).files, p = f.path ∧
      f.pathBelow target = target.join p ∧
      (p.Contained ↔ Layout.NameStays project.1 g.options.mode ∧ DeclarationStays f) ∧
      (p.Contained → ∀ (t' : FileTree) (l : Location), t'.locate (target.join p) = .ok l →
        ∃ base names, t'.locate target = .ok base ∧ names ≠ [] ∧ l = base ++ names) := by
  obtain ⟨project, hproject, f, hf, rfl⟩ := file_of_path hp
  refine ⟨project, hproject, f, hf, rfl, f.pathBelow_eq target, contained_path hproject hns hf, ?_⟩
  intro hcontained t' l hl
  obtain ⟨base, names, hbase, hnames, heq⟩ := FileTree.locate_join_contained hcontained hl
  refine ⟨base, names, hbase, ?_, heq⟩
  rintro rfl
  exact steps_path_ne hf hcontained hnames

/-- One event that is on no stream. -/
def orderPlaced : Generator :=
  .ofModel
    { Model.empty with
      events := Dict.ofList [(.uniform 1, ⟨.uniform 1, "Order Placed", none, none⟩)]
      placements := Dict.ofList
        [(.uniform 2, ⟨.uniform 2, 0, .event, .uniform 1, .stream, none⟩)] }
    ⟨.explicit "com.shop", .createNew, .tab⟩

theorem path_contained_orderPlaced :
    Report.choiceFault? orderPlaced.options.ns = none ∧
      ⟨"DefaultStream/src/com/shop/defaultStream/events/OrderPlaced.java"⟩ ∈
        orderPlaced.preview.map Prod.fst ∧
      ∃ project ∈ orderPlaced.projects, ∃ f ∈ (orderPlaced.filesOf project).files,
        f.pathBelow ⟨"out"⟩ =
            ⟨"out/DefaultStream/src/com/shop/defaultStream/events/OrderPlaced.java"⟩ ∧
          Layout.NameStays project.1 .createNew ∧ DeclarationStays f := by
  have hns : Report.choiceFault? orderPlaced.options.ns = none := by decide +kernel
  have hpath : ⟨"DefaultStream/src/com/shop/defaultStream/events/OrderPlaced.java"⟩ ∈
      orderPlaced.preview.map Prod.fst := by decide +kernel
  obtain ⟨project, hproject, f, hf, -, hbelow, hcontained, -⟩ :=
    path_contained_iff orderPlaced ∅ ⟨"out"⟩ hns (.inl hpath)
  refine ⟨hns, hpath, project, hproject, f, hf, ?_, hcontained.1 (by decide +kernel)⟩
  rw [hbelow]
  decide +kernel

/-- A document with one event that is on no stream. -/
def eventDocument (name : String) : Json :=
  let id := "00000000-0000-0000-0000-000000000001"
  let event : Json := .object [("event/id", .string id), ("event/name", .string name)]
  let placement : Json :=
    .object [("placement/id", .string id), ("placement/index", .number (.integer 0)),
      ("event/id", .string id)]
  .object
    [("spec-version", .string "0.1.0"),
      ("event-model", .object
        [("event-model/id", .string id), ("event-model/name", .string "Shop"),
          ("event-model/events", .object [(id, event)]),
          ("event-model/placements", .object [(id, placement)])])]

/-- The generator of a document's projects with the fallback namespace, unless it is refused. -/
def ofDocument? (document : Json) (mode : ProjectMode) : Option Generator :=
  match Document.ofJson document with
  | .read m _ => some (ofModel m ⟨.fallback, mode, .tab⟩)
  | .refused _ => none

/-- The class of an event whose name goes up is written above the target directory. -/
theorem eventDocument_escapes :
    ∃ g ∈ ofDocument? (eventDocument "../../../../Escape") .useExisting,
      g.preview.map Prod.fst = [⟨"main/defaultStream/events/../../../../Escape.java"⟩] ∧
      (g.generate ∅ ⟨"out"⟩).2.written =
        [⟨"main/defaultStream/events/../../../../Escape.java"⟩] ∧
      ¬ (Path.mk "main/defaultStream/events/../../../../Escape.java").Contained ∧
      (g.generate ∅ ⟨"out"⟩).1.canonical?
          ⟨"out/main/defaultStream/events/../../../../Escape.java"⟩ = some ["Escape.java"] := by
  decide +kernel

end EventForge.Java.Generator
