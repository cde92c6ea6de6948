import EventForge.Proofs.Java.ContextFiles
import EventForge.Proofs.Java.Project
import Mathlib.Data.List.Induction

/-!
# The emissions of a context

The files of a context come from one list of emissions (`ofContext_eq`): for every note what its
schema asks for, then its own class. So what holds of a context's files is proved once for an
emission (`ofContext_induction`), and every file and every failure is that of an emission. Of the
files that are made for one path the first is the one that is kept (`find?_foldl_emit`); everything
that is noticed stays.
-/

namespace EventForge.Java

/-- What a file is made from: a class for a note or a schema, or the enum of a schema. -/
inductive Emission where
  | class (kind : PackageKind) (source : ClassSource) (mutability : Mutability)
  | enum (root : TypeTree) (description : Option String)

namespace Emission

/-- The file with the diagnostics raised for it, or why there is none. -/
def file (p : Project) : Emission → List Diagnostic × Except ResolveFault SourceFile
  | .class kind source mutability => p.classFile kind source mutability
  | .enum root description => ([], .ok (p.enumFile root description))

/-- The name under which a failure is recorded. -/
def name : Emission → String
  | .class _ source _ => source.name
  | .enum root _ => root.name

/-- What a note asks for is a class or an enum of the schemas package. -/
def ofDemand : Demand → Emission
  | .entity type description => .class .schemas ⟨type.name, description, some type⟩ .mutable
  | .enum type description => .enum type description

/-- What is made for a note, in order: what its schema asks for, then its own class. -/
def ofNote (m : Model) (entry : NoteKind × Note) : List Emission :=
  let schema := entry.2.schemaId.bind m.schema?
  let (kind, mutability) := ContextFiles.flavour entry.1
  schema.toList.flatMap (fun s => (demands m entry.2 s).map ofDemand)
    ++ [.class kind ⟨entry.2.name, entry.2.description, schema.map Schema.type⟩ mutability]

/-- The class of a note itself. -/
def own (m : Model) (entry : NoteKind × Note) : Emission :=
  .class (ContextFiles.flavour entry.1).1
    ⟨entry.2.name, entry.2.description, (entry.2.schemaId.bind m.schema?).map Schema.type⟩
    (ContextFiles.flavour entry.1).2

theorem mem_ofNote {m : Model} {entry : NoteKind × Note} {e : Emission} :
    e ∈ ofNote m entry ↔
      (∃ s, entry.2.schemaId.bind m.schema? = some s ∧
        ∃ d ∈ demands m entry.2 s, ofDemand d = e) ∨ e = own m entry := by
  simp only [ofNote, own, List.mem_append, List.mem_flatMap, Option.mem_toList, List.mem_map,
    List.mem_singleton]

/-- The package of the file. -/
def kind : Emission → PackageKind
  | .class kind _ _ => kind
  | .enum _ _ => .schemas

/-- Where the file of an emission goes and how it is indented. -/
theorem file_placed {p : Project} {e : Emission} {f : SourceFile} (h : (e.file p).2 = .ok f) :
    f.dir = p.layout.packageDir e.kind ∧ f.package = p.layout.package e.kind ∧
      f.indent = p.indent := by
  cases e with
  | «class» kind source mutability =>
    obtain ⟨d, -, rfl⟩ := Project.exists_draft h
    exact ⟨rfl, rfl, rfl⟩
  | enum root description =>
    rw [← Except.ok.inj h]
    simp only [Project.enumFile, kind, and_self]

/-- A declaration has the type name of what it was made from. -/
theorem name_file {p : Project} {e : Emission} {f : SourceFile} (h : (e.file p).2 = .ok f) :
    f.declaration.name = typeName e.name := by
  cases e with
  | «class» kind source mutability =>
    obtain ⟨d, hd, rfl⟩ := Project.exists_draft h
    exact hd.name
  | enum root description =>
    rw [← Except.ok.inj h]
    simp only [Project.enumFile, Declaration.name, name]

theorem path_file {p : Project} {e : Emission} {f : SourceFile} (h : (e.file p).2 = .ok f) :
    f.path = p.filePath e.kind (typeName e.name) := by
  rw [SourceFile.path_eq, (file_placed h).1, name_file h, Project.filePath]

theorem isWarning_file (p : Project) (e : Emission) : ∀ x ∈ (e.file p).1, x.isWarning := by
  cases e with
  | «class» kind source mutability => exact p.isWarning_classFile kind source mutability
  | enum root description => simp [file]

/-- The files that are made of emissions, in order. -/
def made (p : Project) (es : List Emission) : List SourceFile :=
  es.filterMap fun e => (e.file p).2.toOption

theorem exists_of_mem_made {p : Project} {es : List Emission} {f : SourceFile} (h : f ∈ made p es) :
    ∃ e : Emission, (e.file p).2 = .ok f := by
  obtain ⟨e, -, he⟩ := List.mem_filterMap.1 h
  cases hfile : (e.file p).2 with
  | error fault => simp [hfile, Except.toOption] at he
  | ok k =>
    obtain rfl : k = f := by simpa [hfile, Except.toOption] using he
    exact ⟨e, hfile⟩

end Emission

namespace ContextFiles

/-- What is made for a context, in order. -/
def emissions (m : Model) (c : Context) : List Emission :=
  (notesIn m c).flatMap (Emission.ofNote m)

theorem mem_notesIn {m : Model} {c : Context} {kind : NoteKind} {note : Note} :
    (kind, note) ∈ notesIn m c ↔ kind ∈ noteKinds ∧ note ∈ m.notes kind ∧
      ∃ q ∈ m.placementsOf kind, q.noteId = note.id ∧ q.id ∈ c.placements := by
  simp [notesIn, notesOfKind, Context.contains]

theorem mem_emissions {m : Model} {c : Context} {e : Emission} :
    e ∈ emissions m c ↔ ∃ entry ∈ notesIn m c, e ∈ Emission.ofNote m entry := by
  rw [emissions, List.mem_flatMap]

/-- The files after one more emission. -/
def emit (p : Project) (fs : ContextFiles) (e : Emission) : ContextFiles :=
  fs.addClass e.name (e.file p)

variable {p : Project} {c : Context} {fs : ContextFiles} {e : Emission}

theorem serve_eq (p : Project) (fs : ContextFiles) (d : Demand) :
    serve p fs d = emit p fs (.ofDemand d) := by
  cases d with
  | entity type description => rfl
  | enum type description =>
    show fs.add _ = ContextFiles.add { fs with diagnostics := fs.diagnostics ++ [] } _
    rw [List.append_nil]

theorem foldl_serve_eq (p : Project) (ds : List Demand) (fs : ContextFiles) :
    ds.foldl (serve p) fs = (ds.map Emission.ofDemand).foldl (emit p) fs := by
  have hserve : serve p = fun fs d => emit p fs (.ofDemand d) := by
    funext fs d
    exact serve_eq p fs d
  rw [List.foldl_map, hserve]

theorem addNote_eq (p : Project) (fs : ContextFiles) (entry : NoteKind × Note) :
    addNote p fs entry = (Emission.ofNote p.model entry).foldl (emit p) fs := by
  rw [addNote, Emission.ofNote, List.foldl_append]
  dsimp only
  rcases entry.2.schemaId.bind p.model.schema? with _ | s
  · rfl
  · simp only [foldl_serve_eq, Option.toList_some, List.flatMap_cons, List.flatMap_nil,
      List.append_nil]
    rfl

/-- The files of a context are those of its emissions. -/
theorem ofContext_eq (p : Project) (c : Context) :
    ofContext p c = (emissions p.model c).foldl (emit p) empty := by
  have hnote : addNote p = fun fs entry => (Emission.ofNote p.model entry).foldl (emit p) fs := by
    funext fs entry
    exact addNote_eq p fs entry
  rw [ofContext, emissions, List.foldl_flatMap, hnote]

/-- What holds of no files and is kept by each emission of a context holds of all its files. -/
theorem ofContext_induction {motive : ContextFiles → Prop} (start : motive empty)
    (step : ∀ fs, ∀ e ∈ emissions p.model c, motive fs → motive (emit p fs e)) :
    motive (ofContext p c) := by
  rw [ofContext_eq]
  exact List.foldlRecOn _ _ start fun fs h e he => step fs e he h

/-- Every file of a context was made by one of its emissions. -/
theorem exists_emission {f : SourceFile} (h : f ∈ (ofContext p c).files) :
    ∃ e ∈ emissions p.model c, (e.file p).2 = .ok f := by
  revert h
  refine ofContext_induction (motive := fun fs => f ∈ fs.files →
    ∃ e ∈ emissions p.model c, (e.file p).2 = .ok f) (fun h => absurd h List.not_mem_nil) ?_
  intro fs e he ih h
  exact (mem_files_addClass h).elim ih fun hfile => ⟨e, he, hfile⟩

/-- Every failure of a context is that of one of its emissions. -/
theorem exists_failing {x : FailedFile} (h : x ∈ (ofContext p c).failed) :
    ∃ e ∈ emissions p.model c, ∃ fault, (e.file p).2 = .error fault ∧
      x = ⟨e.name, fault.message⟩ := by
  revert h
  refine ofContext_induction (motive := fun fs => x ∈ fs.failed →
    ∃ e ∈ emissions p.model c, ∃ fault, (e.file p).2 = .error fault ∧ x = ⟨e.name, fault.message⟩)
    (fun h => absurd h List.not_mem_nil) ?_
  intro fs e he ih h
  exact (mem_failed_addClass h).elim ih fun ⟨fault, hfault, hx⟩ => ⟨e, he, fault, hfault, hx⟩

/-- Every file lies in a package directory of the project. -/
def LiesIn (fs : ContextFiles) (p : Project) : Prop :=
  ∀ f ∈ fs.files, ∃ kind, f.dir = p.layout.packageDir kind

/-- The files of a context lie in the package directories of its layout. -/
theorem liesIn_ofContext (p : Project) (c : Context) : (ofContext p c).LiesIn p := by
  intro f hf
  obtain ⟨e, -, hfile⟩ := exists_emission hf
  exact ⟨e.kind, (Emission.file_placed hfile).1⟩

/-- The files of a context have paths of their own. -/
theorem distinct_ofContext (p : Project) (c : Context) : (ofContext p c).Distinct :=
  ofContext_induction .nil fun _ e _ h => h.addClass e.name (e.file p)

/-- While the files of a context are made, only warnings are raised. -/
theorem warns_ofContext (p : Project) (c : Context) : (ofContext p c).Warns :=
  ofContext_induction (fun _ hx => absurd hx List.not_mem_nil)
    fun _ e _ h => h.addClass (e.isWarning_file p)

theorem grows_foldl_emit (p : Project) (es : List Emission) (fs : ContextFiles) :
    Grows fs (es.foldl (emit p) fs) :=
  List.foldlRecOn (motive := Grows fs) _ _ (.refl fs) fun _ h e _ =>
    h.trans (grows_addClass _ e.name (e.file p))

theorem same_trans {a b c : Path} (h : a.same b) (h' : b.same c) : a.same c := by
  simp only [Path.same, decide_eq_true_eq] at h h' ⊢
  exact h.trans h'

theorem emit_of_error {fault : ResolveFault} (h : (e.file p).2 = .error fault) :
    (emit p fs e).files = fs.files ∧
      (emit p fs e).diagnostics = fs.diagnostics ++ (e.file p).1 := by
  rw [emit, addClass, h]
  exact ⟨rfl, rfl⟩

/-- A file at a path that is free is added. -/
theorem emit_of_free {f : SourceFile} (h : (e.file p).2 = .ok f)
    (hfree : fs.files.find? (fun kept => kept.path.same f.path) = none) :
    (emit p fs e).files = fs.files ++ [f] ∧
      (emit p fs e).diagnostics = fs.diagnostics ++ (e.file p).1 := by
  rw [emit, addClass, h]
  dsimp only
  rw [add]
  dsimp only
  rw [hfree]
  exact ⟨rfl, rfl⟩

/-- A file at a path that is taken is dropped, with a warning unless it has the shape of the file
that is kept there. -/
theorem emit_of_taken {f kept : SourceFile} (h : (e.file p).2 = .ok f)
    (htaken : fs.files.find? (fun kept => kept.path.same f.path) = some kept) :
    (emit p fs e).files = fs.files ∧
      (emit p fs e).diagnostics = fs.diagnostics ++ (e.file p).1 ++
        if kept.declaration.sameShape f.declaration then [] else [duplicate f.path] := by
  rw [emit, addClass, h]
  dsimp only
  rw [add]
  dsimp only
  rw [htaken]
  dsimp only
  split
  · exact ⟨rfl, (List.append_nil _).symm⟩
  · exact ⟨rfl, rfl⟩

/-- The file that is kept at a path is the first one that was made for it. -/
theorem find?_foldl_emit (p : Project) (es : List Emission) (path : Path) :
    (es.foldl (emit p) empty).files.find? (fun kept => kept.path.same path) =
      (Emission.made p es).find? fun f => f.path.same path := by
  induction es using List.reverseRecOn generalizing path with
  | nil => rfl
  | append_singleton es e ih =>
    rw [List.foldl_append, List.foldl_cons, List.foldl_nil, Emission.made, List.filterMap_append,
      ← Emission.made, List.find?_append, ← ih]
    cases hfile : (e.file p).2 with
    | error fault =>
      rw [(emit_of_error hfile).1]
      simp [hfile, Except.toOption]
    | ok f =>
      have hmade : [e].filterMap (fun e => (e.file p).2.toOption) = [f] := by
        simp [hfile, Except.toOption]
      rw [hmade]
      cases hkept : (es.foldl (emit p) empty).files.find? fun kept => kept.path.same f.path with
      | none => rw [(emit_of_free hfile hkept).1, List.find?_append]
      | some kept =>
        -- Where the new file would be found, the kept one is found before it.
        rw [(emit_of_taken hfile hkept).1]
        by_cases hf : f.path.same path
        · have hmem := List.mem_of_find?_eq_some hkept
          have hsame : kept.path.same f.path := by simpa using List.find?_some hkept
          have hsome : ((es.foldl (emit p) empty).files.find?
              fun kept => kept.path.same path).isSome :=
            List.find?_isSome.2 ⟨kept, hmem, same_trans hsame hf⟩
          rw [Option.or_of_isSome hsome]
        · simp [hf]

/-- What is noticed stays. -/
theorem diagnostics_prefix_foldl_emit (p : Project) (es : List Emission) (fs : ContextFiles) :
    fs.diagnostics <+: (es.foldl (emit p) fs).diagnostics := by
  induction es generalizing fs with
  | nil => exact List.prefix_refl _
  | cons e es ih =>
    refine List.IsPrefix.trans ?_ (ih (emit p fs e))
    cases hfile : (e.file p).2 with
    | error fault =>
      rw [(emit_of_error hfile).2]
      exact List.prefix_append _ _
    | ok f =>
      cases hkept : fs.files.find? fun kept => kept.path.same f.path with
      | none =>
        rw [(emit_of_free hfile hkept).2]
        exact List.prefix_append _ _
      | some kept =>
        rw [(emit_of_taken hfile hkept).2, List.append_assoc]
        exact List.prefix_append _ _

end ContextFiles

end EventForge.Java
