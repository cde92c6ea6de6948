import EventForge.Proofs.Java.Documentation
import EventForge.Proofs.Java.FileHead

/-!
# Paths that are declared twice

A file that is made for a taken path is dropped. That is noticed unless the two declarations have
the same shape, and then the texts of the files differ at most in their documentation, in the
package and in the imports of names that enums inside the class have as well (`redeclared_iff`).
-/

namespace EventForge.Java

open Code (Fragment Line)

/-! ## Files without documentation -/

/-- The class without documentation; the comments behind its fields stay. -/
def ClassDecl.undocumented (c : ClassDecl) : ClassDecl :=
  { c with doc := [], enums := c.enums.map .bare }

/-- Nested enums without documentation stay as they are. -/
theorem ClassDecl.undocumented_eq {c : ClassDecl} (h : ∀ e ∈ c.enums, e.doc = []) :
    c.undocumented = { c with doc := [] } := by
  have henums : c.enums.map EnumDecl.bare = c.enums := by
    refine (List.map_congr_left fun e he => ?_).trans (List.map_id c.enums)
    have hdoc : e.doc = [] := h e he
    rw [EnumDecl.bare, ← hdoc]
    rfl
  rw [undocumented, henums]

def Declaration.undocumented : Declaration → Declaration
  | .class c => .class c.undocumented
  | .enum e => .enum e.bare

namespace Declaration

variable {a b : Declaration}

/-- Declarations have the same shape when they are the same but for documentation. -/
theorem sameShape_iff : a.sameShape b ↔ a.undocumented = b.undocumented := by
  have henums : ∀ es es' : List EnumDecl,
      es.map (fun e => (e.name, e.variants)) = es'.map (fun e => (e.name, e.variants)) ↔
        es.map EnumDecl.bare = es'.map EnumDecl.bare := by
    intro es es'
    have hbare : ∀ es : List EnumDecl, es.map EnumDecl.bare =
        (es.map fun e => (e.name, e.variants)).map fun e => ⟨e.1, [], e.2⟩ := by
      intro es
      rw [List.map_map]
      rfl
    have hinjective : Function.Injective fun e : String × List String =>
        (⟨e.1, [], e.2⟩ : EnumDecl) := by
      intro e e' h
      obtain ⟨hname, -, hvariants⟩ := EnumDecl.mk.inj h
      exact Prod.ext hname hvariants
    rw [hbare, hbare, hinjective.list_map.eq_iff]
  cases a with
  | «class» c =>
    cases b with
    | «class» c' =>
      simp only [sameShape, undocumented, ClassDecl.undocumented, decide_eq_true_eq, henums,
        Declaration.class.injEq, ClassDecl.mk.injEq, true_and]
      constructor
      · rintro ⟨hname, hfields, hconstants, hmutability, hes⟩
        exact ⟨hname, hmutability, hfields, hconstants, hes⟩
      · rintro ⟨hname, hmutability, hfields, hconstants, hes⟩
        exact ⟨hname, hfields, hconstants, hmutability, hes⟩
    | enum e => simp [sameShape, undocumented]
  | enum e =>
    cases b with
    | «class» c => simp [sameShape, undocumented]
    | enum e' => simp [sameShape, undocumented, EnumDecl.bare]

theorem name_undocumented (a : Declaration) : a.undocumented.name = a.name := by
  cases a <;> rfl

theorem libraryTypes_undocumented (a : Declaration) :
    a.undocumented.libraryTypes = a.libraryTypes := by
  cases a <;> rfl

theorem mentioned_undocumented (a : Declaration) : a.undocumented.mentioned = a.mentioned := by
  cases a <;> rfl

theorem nestedNames_undocumented (a : Declaration) :
    a.undocumented.nestedNames = a.nestedNames := by
  cases a with
  | «class» c => exact List.map_map
  | enum e => rfl

/-- What does not depend on documentation is the same for declarations of one shape. -/
theorem eq_of_sameShape {α : Type} {g : Declaration → α} (hg : ∀ d, g d.undocumented = g d)
    (h : a.sameShape b) : g a = g b := by
  rw [← hg a, sameShape_iff.1 h, hg]

/-- The documentation of a declaration stands in front of it. -/
theorem linesOfAll_fragments {depth : Nat} (h : a.NestedBare) :
    Fragment.linesOfAll depth a.fragments =
      Fragment.linesOfAll depth (docFragments a.docs) ++
        Fragment.linesOfAll depth a.undocumented.fragments := by
  cases a with
  | «class» c =>
    show Fragment.linesOfAll depth c.fragments =
      Fragment.linesOfAll depth (docFragments c.doc) ++
        Fragment.linesOfAll depth c.undocumented.fragments
    rw [ClassDecl.undocumented_eq h, linesOfAll_class, linesOfAll_class]
    rfl
  | enum e =>
    rw [← Fragment.linesOfAll_append]
    rfl

end Declaration

namespace SourceFile

def undocumented (f : SourceFile) : SourceFile :=
  { f with declaration := f.declaration.undocumented }

/-- The documentation comment in front of the declaration. -/
def javadoc (f : SourceFile) : String :=
  Line.writeAll f.indent (Fragment.linesOfAll 0 (docFragments f.declaration.docs))

/-- The declaration without documentation. -/
def body (f : SourceFile) : String :=
  Line.writeAll f.indent (Fragment.linesOfAll 0 f.declaration.undocumented.fragments)

theorem text_undocumented (f : SourceFile) : f.undocumented.text = f.head ++ f.body := by
  rw [text, fileText_eq, Line.writeAll_append]
  rfl

theorem text_eq {f : SourceFile} (h : f.declaration.NestedBare) :
    f.text = f.head ++ f.javadoc ++ f.body := by
  rw [text, fileText_eq, Declaration.linesOfAll_fragments h, Line.writeAll_append,
    Line.writeAll_append, ← String.append_assoc]
  rfl

end SourceFile

/-- The kind of a package is the last step of its directory. -/
theorem kind_eq_of_steps {l : Layout} {kind kind' : PackageKind}
    (h : (l.packageDir kind).steps = (l.packageDir kind').steps) : kind = kind' := by
  have hsteps : ∀ kind : PackageKind, (l.packageDir kind).steps =
      (l.sourceRoot.extend (Text.pieces '.' l.ns)).steps ++ [.name kind.text] := by
    intro kind
    have hrelative : ¬ (Path.mk kind.text).isAbsolute := by cases kind <;> decide
    have hname : (Path.mk kind.text).steps = [.name kind.text] := by cases kind <;> decide
    rw [Layout.packageDir, Path.steps_join _ hrelative, hname]
  rw [hsteps, hsteps] at h
  have htext := List.append_cancel_left h
  cases kind <;> cases kind' <;> simp [PackageKind.text] at htext ⊢

/-- Files of one name that is no absolute path share a path within one package only. -/
theorem kind_eq_of_same_path {l : Layout} {kind kind' : PackageKind} {f k : SourceFile}
    (hf : f.dir = l.packageDir kind) (hk : k.dir = l.packageDir kind')
    (hname : f.declaration.name = k.declaration.name)
    (hrelative : ¬ (Path.mk (f.declaration.name ++ ".java")).isAbsolute)
    (h : f.path.same k.path) : kind = kind' := by
  have hcomponents : f.path.components = k.path.components := by simpa [Path.same] using h
  have hsteps : f.path.steps = k.path.steps := by rw [Path.steps, Path.steps, hcomponents]
  rw [SourceFile.path_eq, SourceFile.path_eq, ← hname, Path.steps_join _ hrelative,
    Path.steps_join _ hrelative, hf, hk] at hsteps
  exact kind_eq_of_steps (List.append_cancel_right hsteps)

/-! ## Files that are made for a taken path -/

namespace ContextFiles

/-- A file that is made for a context when another one has been made for its path. -/
structure Redeclaration (p : Project) (c : Context) where
  earlier : List Emission
  emission : Emission
  later : List Emission
  file : SourceFile
  kept : SourceFile
  emissions_eq : emissions p.model c = earlier ++ emission :: later
  file_eq : (emission.file p).2 = .ok file
  kept_eq : (Emission.made p earlier).find? (fun k => k.path.same file.path) = some kept

namespace Redeclaration

variable {p : Project} {c : Context}

/-- The files of the context before the file is made. -/
def before (r : Redeclaration p c) : ContextFiles := r.earlier.foldl (emit p) empty

/-- The files of the context after the file was made. -/
def after (r : Redeclaration p c) : ContextFiles := emit p r.before r.emission

/-- Apart from what is noticed while the file is made, the repeated declaration is noticed. -/
def Reported (r : Redeclaration p c) : Prop :=
  r.after.diagnostics =
    r.before.diagnostics ++ (r.emission.file p).1 ++ [duplicate r.file.path]

/-- The file that is kept has the text of the one that is dropped, apart from documentation. -/
def Redundant (r : Redeclaration p c) : Prop :=
  r.kept.undocumented.text = r.file.undocumented.text

/-- The two files agree on the names of nested enums that they import from the schemas package. -/
def SharesImports (r : Redeclaration p c) : Prop :=
  ∀ n ∈ r.kept.declaration.nestedNames,
    r.kept.imports.hasName (p.layout.package .schemas) n =
      r.file.imports.hasName (p.layout.package .schemas) n

/-- The name of the file is no absolute path. -/
def IsRelative (r : Redeclaration p c) : Prop :=
  ¬ (Path.mk (r.file.declaration.name ++ ".java")).isAbsolute

theorem taken (r : Redeclaration p c) :
    r.before.files.find? (fun kept => kept.path.same r.file.path) = some r.kept := by
  rw [before, find?_foldl_emit]
  exact r.kept_eq

theorem files_after (r : Redeclaration p c) : r.after.files = r.before.files :=
  (emit_of_taken r.file_eq r.taken).1

theorem diagnostics_after (r : Redeclaration p c) :
    r.after.diagnostics = r.before.diagnostics ++ (r.emission.file p).1 ++
      if r.kept.declaration.sameShape r.file.declaration then [] else [duplicate r.file.path] :=
  (emit_of_taken r.file_eq r.taken).2

/-- What is noticed of the file is among what is noticed of the context. -/
theorem diagnostics_prefix (r : Redeclaration p c) :
    r.after.diagnostics <+: (ofContext p c).diagnostics := by
  have hrest : ofContext p c = r.later.foldl (emit p) r.after := by
    rw [ofContext_eq, r.emissions_eq, List.foldl_append]
    rfl
  rw [hrest]
  exact diagnostics_prefix_foldl_emit p r.later r.after

theorem reported_iff (r : Redeclaration p c) :
    r.Reported ↔ ¬ r.kept.declaration.sameShape r.file.declaration := by
  rw [Reported, r.diagnostics_after, List.append_cancel_left_eq]
  split
  · next h => simp [h]
  · next h => simp [h]

theorem same_path (r : Redeclaration p c) : r.kept.path.same r.file.path := by
  simpa using List.find?_some r.kept_eq

/-- The file that is kept was made for the context, too. -/
theorem exists_kept (r : Redeclaration p c) : ∃ e : Emission, (e.file p).2 = .ok r.kept :=
  Emission.exists_of_mem_made (List.mem_of_find?_eq_some r.kept_eq)

/-- Files of one shape are the same text when they have one package and share their imports. -/
theorem redundant_iff (r : Redeclaration p c)
    (hshape : r.kept.declaration.sameShape r.file.declaration) :
    r.Redundant ↔ r.kept.package = r.file.package ∧ r.SharesImports := by
  obtain ⟨e, he⟩ := r.exists_kept
  obtain ⟨-, hpackage, hindent⟩ := Emission.file_placed he
  obtain ⟨-, hpackage', hindent'⟩ := Emission.file_placed r.file_eq
  obtain ⟨names, hnames⟩ := Emission.exists_importsNames he
  obtain ⟨names', hnames'⟩ := Emission.exists_importsNames r.file_eq
  have hindents : r.kept.indent = r.file.indent := by rw [hindent, hindent']
  have hbody : r.kept.body = r.file.body := by
    rw [SourceFile.body, SourceFile.body, Declaration.sameShape_iff.1 hshape, hindents]
  have hlibrary := Declaration.eq_of_sameShape Declaration.libraryTypes_undocumented hshape
  have hmentioned := Declaration.eq_of_sameShape Declaration.mentioned_undocumented hshape
  have hnested := Declaration.eq_of_sameShape Declaration.nestedNames_undocumented hshape
  rw [Redundant, SourceFile.text_undocumented, SourceFile.text_undocumented, hbody,
    String.append_left_inj, hnames.head_eq_iff hnames' hpackage hpackage' hindents hlibrary,
    hpackage, hpackage', package_inj]
  refine and_congr_right fun hkind => ?_
  rw [← hkind] at hnames'
  rw [hnames.names_eq_iff hnames' hmentioned hnested, SharesImports]
  simp only [hnames.hasName_eq, hnames'.hasName_eq, List.contains_eq_mem, decide_eq_decide]

/-- A name that is no absolute path is only declared twice within one package. -/
theorem package_eq (r : Redeclaration p c)
    (hshape : r.kept.declaration.sameShape r.file.declaration)
    (hrelative : r.IsRelative) : r.kept.package = r.file.package := by
  obtain ⟨e, he⟩ := r.exists_kept
  obtain ⟨hdir, hpackage, -⟩ := Emission.file_placed he
  obtain ⟨hdir', hpackage', -⟩ := Emission.file_placed r.file_eq
  have hname := Declaration.eq_of_sameShape Declaration.name_undocumented hshape
  rw [IsRelative, ← hname] at hrelative
  rw [hpackage, hpackage', kind_eq_of_same_path hdir hdir' hname hrelative r.same_path]

/-- Classes of the schemas package import nothing from it. -/
theorem sharesImports_of_schemas (r : Redeclaration p c) (hkind : r.emission.kind = .schemas)
    (h : r.kept.package = r.file.package) : r.SharesImports := by
  obtain ⟨e, he⟩ := r.exists_kept
  obtain ⟨-, hpackage, -⟩ := Emission.file_placed he
  obtain ⟨-, hpackage', -⟩ := Emission.file_placed r.file_eq
  obtain ⟨names, hnames⟩ := Emission.exists_importsNames he
  obtain ⟨names', hnames'⟩ := Emission.exists_importsNames r.file_eq
  rw [hpackage, hpackage', package_inj, hkind] at h
  rw [h] at hnames
  rw [hkind] at hnames'
  intro n _
  rw [hnames.hasName_of_schemas, hnames'.hasName_of_schemas]

end Redeclaration

/-- Of the files that are made for one path the first one is kept. A later one is noticed or has the
text of the kept one, apart from documentation, exactly when the two differ in shape or agree on
their package and on the names of nested enums that they import. Unless its name is an absolute
path, they do agree on their package; and then it is noticed or has that text when it belongs to the
schemas package or declares no enum inside. -/
theorem redeclared_iff (p : Project) (c : Context) :
    (∀ path, (ofContext p c).files.find? (fun f => f.path.same path) =
      (Emission.made p (emissions p.model c)).find? fun f => f.path.same path) ∧
    (∀ f ∈ Emission.made p (emissions p.model c), ∃ front back,
      f.text = front ++ f.javadoc ++ back ∧ f.undocumented.text = front ++ back) ∧
    ∀ r : Redeclaration p c,
      r.after.files = r.before.files ∧ r.after.diagnostics <+: (ofContext p c).diagnostics ∧
      (r.Reported ∨ r.Redundant ↔
        (r.kept.declaration.sameShape r.file.declaration →
          r.kept.package = r.file.package ∧ r.SharesImports)) ∧
      (r.IsRelative →
        (r.kept.declaration.sameShape r.file.declaration → r.kept.package = r.file.package) ∧
        (r.emission.kind = .schemas ∨ r.kept.declaration.nestedNames = [] →
          r.Reported ∨ r.Redundant)) := by
  refine ⟨fun path => ?_, fun f hf => ?_, fun r => ?_⟩
  · rw [ofContext_eq]
    exact find?_foldl_emit p _ path
  · obtain ⟨e, he⟩ := Emission.exists_of_mem_made hf
    exact ⟨f.head, f.body, SourceFile.text_eq (Emission.nestedBare_file he), f.text_undocumented⟩
  · have hiff : r.Reported ∨ r.Redundant ↔
        (r.kept.declaration.sameShape r.file.declaration →
          r.kept.package = r.file.package ∧ r.SharesImports) := by
      rw [r.reported_iff]
      constructor
      · intro h hshape
        exact (r.redundant_iff hshape).1 (h.resolve_left (not_not_intro hshape))
      · intro h
        by_cases hshape : r.kept.declaration.sameShape r.file.declaration
        · exact .inr ((r.redundant_iff hshape).2 (h hshape))
        · exact .inl hshape
    refine ⟨r.files_after, r.diagnostics_prefix, hiff, fun hrelative =>
      ⟨fun hshape => r.package_eq hshape hrelative, fun h => hiff.2 fun hshape => ?_⟩⟩
    have hpackage := r.package_eq hshape hrelative
    rcases h with hkind | hnone
    · exact ⟨hpackage, r.sharesImports_of_schemas hkind hpackage⟩
    · refine ⟨hpackage, fun n hn => ?_⟩
      rw [hnone] at hn
      exact absurd hn List.not_mem_nil

end ContextFiles

/-! ## A class of another type -/

def stateEnum : TypeTree := .enumeration ⟨"OrderEnum", none⟩ ["A", "B"]

/-- An order whose state is an enum. -/
def enumOrder : TypeTree := .object ⟨"Order", none⟩ [("state", stateEnum), ("previous", stateEnum)]

/-- A class with the name of that enum. -/
def labelled : TypeTree :=
  .object ⟨"OrderEnum", none⟩ [("label", .scalar ⟨"OrderEnum", none⟩ .string)]

/-- An order whose state is the class (9) with the name of the enum. -/
def classOrder : TypeTree :=
  .object ⟨"Order", none⟩
    [("state", .reference ⟨"Order", none⟩ (.uniform 9)), ("previous", stateEnum)]

/-- Two events (3 and 4) of one name, the state of the second of which is a class. -/
def reordered : Generator :=
  .ofModel
    { Model.empty with
      streams := [⟨.uniform 1, "Orders"⟩]
      events := Dict.ofList
        [(.uniform 3, ⟨.uniform 3, "Order", none, some (.uniform 7)⟩),
          (.uniform 4, ⟨.uniform 4, "Order", none, some (.uniform 8)⟩)]
      placements := Dict.ofList
        [(.uniform 5, ⟨.uniform 5, 0, .event, .uniform 3, .stream, some (.uniform 1)⟩),
          (.uniform 6, ⟨.uniform 6, 1, .event, .uniform 4, .stream, some (.uniform 1)⟩)]
      schemas := Dict.ofList
        [(.uniform 7, ⟨.uniform 7, "Order", "shop", none, enumOrder⟩),
          (.uniform 8, ⟨.uniform 8, "Order", "shop", none, classOrder⟩),
          (.uniform 9, ⟨.uniform 9, "OrderEnum", "shop", none, labelled⟩)] }
    ⟨.fallback, .useExisting, .tab⟩

def reorderedContext : Context := ⟨some (.uniform 1), "Orders", [.uniform 5, .uniform 6]⟩

def reorderedProject : Project := { Emission.shop with model := reordered.model }

/-- The class of an order in a package, with what it imports from the schemas package. -/
def orderFile (kind : PackageKind) (mutability : Mutability) (imports : List String) :
    SourceFile where
  dir := ⟨"main/orders/" ++ kind.text⟩
  package := "main.orders." ++ kind.text
  imports := Imports.addAll ∅ "main.orders.schemas" imports
  declaration :=
    .class ⟨"Order", mutability, [],
      [⟨"state", .named "OrderEnum", none⟩, ⟨"previous", .named "OrderEnum", none⟩], [],
      [⟨"OrderEnum", [], ["A", "B"]⟩]⟩
  indent := .tab

/-- The class for the schema of the second event is dropped for that of the first one. -/
def repeatedSchema : ContextFiles.Redeclaration reorderedProject reorderedContext where
  earlier :=
    [.class .schemas ⟨"Order", none, some enumOrder⟩ .mutable,
      .class .events ⟨"Order", none, some enumOrder⟩ .immutable]
  emission := .class .schemas ⟨"Order", none, some classOrder⟩ .mutable
  later :=
    [.class .schemas ⟨"OrderEnum", none, some labelled⟩ .mutable,
      .class .events ⟨"Order", none, some classOrder⟩ .immutable]
  file := orderFile .schemas .mutable []
  kept := orderFile .schemas .mutable []
  emissions_eq := by rfl
  file_eq := by rfl
  kept_eq := by decide +kernel

/-- The two classes for the schemas are of one shape, and the second one is noticed or has the text
of the first. -/
theorem redeclared_iff_repeatedSchema :
    repeatedSchema.IsRelative ∧ repeatedSchema.emission.kind = .schemas ∧
      repeatedSchema.kept.declaration.sameShape repeatedSchema.file.declaration ∧
      repeatedSchema.kept.package = repeatedSchema.file.package ∧
      (repeatedSchema.Reported ∨ repeatedSchema.Redundant) := by
  have hrelative : repeatedSchema.IsRelative := by
    unfold ContextFiles.Redeclaration.IsRelative
    decide
  have hshape : repeatedSchema.kept.declaration.sameShape repeatedSchema.file.declaration := by
    decide
  obtain ⟨-, -, hall⟩ := ContextFiles.redeclared_iff reorderedProject reorderedContext
  obtain ⟨-, -, -, hagree⟩ := hall repeatedSchema
  obtain ⟨hpackage, hnoticed⟩ := hagree hrelative
  exact ⟨hrelative, rfl, hshape, hpackage hshape, hnoticed (.inl rfl)⟩

/-- The class of the second event is dropped for that of the first one. -/
def repeatedEvent : ContextFiles.Redeclaration reorderedProject reorderedContext where
  earlier :=
    [.class .schemas ⟨"Order", none, some enumOrder⟩ .mutable,
      .class .events ⟨"Order", none, some enumOrder⟩ .immutable,
      .class .schemas ⟨"Order", none, some classOrder⟩ .mutable,
      .class .schemas ⟨"OrderEnum", none, some labelled⟩ .mutable]
  emission := .class .events ⟨"Order", none, some classOrder⟩ .immutable
  later := []
  file := orderFile .events .immutable ["OrderEnum"]
  kept := orderFile .events .immutable []
  emissions_eq := by rfl
  file_eq := by rfl
  kept_eq := by decide +kernel

/-- The document of the model is read without a warning, and the class of its second event is
dropped without one, though it imports a class that the kept one does not import. -/
theorem repeatedEvent_unnoticed :
    Document.Accepted reordered.model [] ∧
      reordered.projects = [(reorderedContext, reorderedProject.layout)] ∧
      ¬ repeatedEvent.Reported ∧ ¬ repeatedEvent.Redundant := by
  have hshape : repeatedEvent.kept.declaration.sameShape repeatedEvent.file.declaration := by
    decide
  have htexts : repeatedEvent.kept.undocumented.text ≠ repeatedEvent.file.undocumented.text := by
    decide
  refine ⟨Document.accepted_of_wellFormed (by decide), by decide, ?_, htexts⟩
  rw [repeatedEvent.reported_iff]
  exact not_not_intro hshape

end EventForge.Java
