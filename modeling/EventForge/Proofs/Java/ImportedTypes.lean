import EventForge.Proofs.Java.SimpleNames

/-!
# What a class file imports

The type of a field is written with classes of the library, and with the names of objects, of
schemas that references lead to and of enums. A class file imports the classes of the library that
occur in the types of its fields, declares the enums inside, and imports all other names unless it
is in the package of the schemas itself (`imports_exact`). Nothing else is imported: a field that
was left out brings nothing.
-/

namespace EventForge.Java

namespace TypeRef

/-- A type occurs in another one, as that type or in one of its arguments. -/
inductive Occurs (part : TypeRef) : TypeRef → Prop where
  | here : Occurs part part
  | inside {type arg : TypeRef} (harg : arg ∈ type.args) (h : Occurs part arg) : Occurs part type

/-- The class of the library that a type is written with. -/
def libraryClass? : TypeRef → Option String
  | primitive .uuid => some "UUID"
  | collection .vector _ => some "Vector"
  | collection .sequence _ => some "List"
  | collection .set _ => some "Set"
  | map _ _ => some "Map"
  | _ => none

variable {part type : TypeRef} {n : String}

theorem occurs_iff : part.Occurs type ↔ part = type ∨ ∃ arg ∈ type.args, part.Occurs arg := by
  constructor
  · intro h
    cases h with
    | here => exact .inl rfl
    | inside harg h => exact .inr ⟨_, harg, h⟩
  · rintro (rfl | ⟨arg, harg, h⟩)
    · exact .here
    · exact .inside harg h

theorem exists_occurs_iff {P : TypeRef → Prop} :
    (∃ part : TypeRef, part.Occurs type ∧ P part) ↔
      P type ∨ ∃ arg ∈ type.args, ∃ part : TypeRef, part.Occurs arg ∧ P part := by
  constructor
  · rintro ⟨part, h, hp⟩
    obtain rfl | ⟨arg, harg, h⟩ := occurs_iff.1 h
    · exact .inl hp
    · exact .inr ⟨arg, harg, part, h, hp⟩
  · rintro (hp | ⟨arg, harg, part, h, hp⟩)
    · exact ⟨type, .here, hp⟩
    · exact ⟨part, .inside harg h, hp⟩

/-- The library types of a type are the classes that the types in it are written with. -/
theorem mem_libraryTypes_iff :
    n ∈ type.libraryTypes ↔ ∃ part : TypeRef, part.Occurs type ∧ part.libraryClass? = some n := by
  induction type with
  | primitive p =>
    rw [exists_occurs_iff]
    cases p <;> simp [libraryTypes, libraryClass?, args, eq_comm]
  | named name =>
    rw [exists_occurs_iff]
    simp [libraryTypes, libraryClass?, args]
  | collection kind element ih =>
    rw [exists_occurs_iff, libraryTypes, List.mem_cons, ih]
    cases kind <;> simp [libraryClass?, Collection.text, args, eq_comm]
  | map key value ihkey ihvalue =>
    rw [exists_occurs_iff, libraryTypes, List.mem_cons, List.mem_append, ihkey, ihvalue]
    simp [libraryClass?, args, eq_comm]
  | optional inner ih =>
    rw [exists_occurs_iff, libraryTypes, ih]
    simp [libraryClass?, args]

theorem mem_names_iff_occurs : n ∈ type.names ↔ (named n).Occurs type := by
  induction type with
  | primitive p | named name =>
    rw [occurs_iff]
    simp [names, args]
  | collection kind element ih =>
    rw [occurs_iff, names, ih]
    simp [args]
  | map key value ihkey ihvalue =>
    rw [occurs_iff, names, List.mem_append, ihkey, ihvalue]
    simp [args]
  | optional inner ih =>
    rw [occurs_iff, names, ih]
    simp [args]

end TypeRef

namespace Resolve

/-- The node is an enum of this name. -/
inductive NamesEnum : TypeTree → String → Prop where
  | enumeration {l : Label} {symbols : List String} :
      NamesEnum (.enumeration l symbols) (typeName l.name)

theorem namesEnum_iff {node : TypeTree} {n : String} :
    NamesEnum node n ↔ nestedName node = some n := by
  constructor
  · rintro ⟨⟩
    rfl
  · intro h
    cases node with
    | enumeration l symbols =>
      obtain rfl := Option.some.inj h
      exact .enumeration
    | _ => cases h

end Resolve

/-- A node of the kept entries has the name in this sense. -/
def ClassSource.HasNode (m : Model) (s : ClassSource) (names : TypeTree → String → Prop)
    (n : String) : Prop :=
  ∃ e ∈ s.keptEntries m, ∃ node, Resolve.Within node e.2 ∧ names node n

section Brought

variable {m : Model} {kind : PackageKind} {source : ClassSource} {n : String}

theorem brings_schemas_iff : source.Brings m kind n .schemas ↔
    kind ≠ .schemas ∧ source.HasNode m (Resolve.NamesEntity m) n := by
  simp only [ClassSource.Brings, ClassSource.HasNode, Resolve.mem_reached_iff,
    Resolve.namesEntity_iff]

theorem brings_nested_iff :
    source.Brings m kind n .nested ↔ source.HasNode m Resolve.NamesEnum n := by
  simp only [ClassSource.Brings, ClassSource.HasNode, Resolve.mem_reached_iff,
    Resolve.namesEnum_iff]

end Brought

/-- What a drafted class file imports: library types and names of the schemas package. -/
theorem hasName_fileOf {p : Project} {kind : PackageKind} {d : ClassDraft} {source : ClassSource}
    {mutability : Mutability} {package n : String} :
    (p.fileOf kind d source mutability).imports.hasName package n ↔
      (package = Project.libraryPackage ∧ n ∈ d.brought kind .library) ∨
        (package = p.layout.package .schemas ∧ n ∈ d.brought kind .schemas) := by
  rw [Imports.hasName_iff, Project.fileOf, entries_imports]
  simp only [List.mem_append, or_and_right, exists_or, exists_mem_importGroup_iff]

/-- A class file imports a library type exactly when it occurs in the type of a field, and a class
or enum of the schemas package exactly when an object or a reference of a kept entry names it and
the file is in another package. The names that occur in its fields are those and the names of the
enums met in the kept entries, which are the enums it declares. -/
theorem Project.imports_exact {p : Project} {kind : PackageKind} {source : ClassSource}
    {mutability : Mutability} {f : SourceFile}
    (h : (p.classFile kind source mutability).2 = .ok f) :
    ∃ decl, f.declaration = .class decl ∧
      List.Forall₂ (fun e field => field.name = fieldName e.1 ∧
        Resolve.typeRef p.model e.2 = .ok field.type) (source.keptEntries p.model) decl.fields ∧
      (∀ n, f.imports.hasName libraryPackage n ↔
        ∃ field ∈ decl.fields, ∃ part : TypeRef, part.Occurs field.type ∧
          part.libraryClass? = some n) ∧
      (∀ n, (∃ field ∈ decl.fields, (TypeRef.named n).Occurs field.type) ↔
        source.HasNode p.model (Resolve.NamesEntity p.model) n ∨
          source.HasNode p.model Resolve.NamesEnum n) ∧
      (∀ n, n ∈ decl.enums.map EnumDecl.name ↔ source.HasNode p.model Resolve.NamesEnum n) ∧
      (∀ n, f.imports.hasName (p.layout.package .schemas) n ↔
        kind ≠ .schemas ∧ source.HasNode p.model (Resolve.NamesEntity p.model) n) ∧
      ∀ package n, f.imports.hasName package n →
        package = libraryPackage ∨ package = p.layout.package .schemas := by
  obtain ⟨d, hd, rfl⟩ := Project.exists_draft h
  have himports : ∀ package n, (p.imports kind d).hasName package n ↔
      (package = libraryPackage ∧ n ∈ d.brought kind .library) ∨
        (package = p.layout.package .schemas ∧ n ∈ d.brought kind .schemas) :=
    fun package n => @hasName_fileOf p kind d source mutability package n
  have hne := library_ne_package p.layout .schemas
  have hfields : List.Forall₂ (fun e field => field.name = fieldName e.1 ∧
      Resolve.typeRef p.model e.2 = .ok field.type) (source.keptEntries p.model)
      (d.declaration source mutability).fields :=
    List.forall₂_map_right_iff.2 (hd.fields.imp fun _ _ hkept => ⟨hkept.name, hkept.type⟩)
  refine ⟨d.declaration source mutability, rfl, hfields, fun n => ?_, fun n => ?_, fun n => ?_,
    fun n => ?_, fun package n hn => ((himports package n).1 hn).imp And.left And.left⟩
  · rw [himports, ClassDraft.brought, mem_sortedNames]
    simp [hne, ClassDraft.libraryTypes, ClassDraft.declaration, TypeRef.mem_libraryTypes_iff]
  · rw [← exists_congr_of_forall₂ hfields (P := fun e => Resolve.Mentions p.model e.2 n)]
    · simp only [Resolve.Mentions, ClassSource.HasNode, Resolve.mem_reached_iff,
        Resolve.namesEntity_iff, Resolve.namesEnum_iff, ← exists_or, ← and_or_left, or_comm]
    · intro e field hfield
      rw [← TypeRef.mem_names_iff_occurs, Resolve.mem_names_iff hfield.2]
  · rw [names_enums, ← @brings_nested_iff p.model kind, ← mem_brought hd, ClassDraft.brought]
  · rw [himports, ← brings_schemas_iff, ← mem_brought hd]
    simp [hne.symm]

/-- A map from an enum to vectors of references, and a set whose element has no type. -/
def parcel : ClassSource where
  name := "Parcel"
  description := none
  root := some <| .object ⟨"Parcel", none⟩
    [("orders", .mapOf ⟨"Parcel", none⟩ (.enumeration ⟨"ParcelKeyEnum", none⟩ ["by sea", "by air"])
        (.wrapper ⟨"ParcelValue", none⟩ .vector (.reference ⟨"ParcelValue", none⟩ (.uniform 2)))),
      ("parts", .wrapper ⟨"Parcel", none⟩ .set
        (.combined ⟨"Parcel", none⟩ .or [.object ⟨"ParcelObject", none⟩ []]))]

def parcelProject : Project := ⟨namesakes.model, namesakeLayout, .tab⟩

def parcelClass : ClassDecl where
  name := "Parcel"
  mutability := .immutable
  doc := []
  fields := [⟨"orders", .map (.named "ParcelKeyEnum") (.collection .vector (.named "Order")), none⟩]
  constants := []
  enums := [⟨"ParcelKeyEnum", [], ["bysea", "byair"]⟩]

def parcelFile : SourceFile where
  dir := ⟨"main/orders/events"⟩
  package := "main.orders.events"
  imports := Dict.ofList [("java.util", ["Map", "Vector"]), ("main.orders.schemas", ["Order"])]
  declaration := .class parcelClass
  indent := .tab

/-- The set that is left out brings neither its own type nor the object inside. -/
theorem imports_exact_parcel :
    (parcelProject.classFile .events parcel .immutable).2 = .ok parcelFile ∧
      (¬ ∃ field ∈ parcelClass.fields, ∃ part : TypeRef, part.Occurs field.type ∧
        part.libraryClass? = some "Set") ∧
      parcel.HasNode namesakes.model (Resolve.NamesEntity namesakes.model) "Order" ∧
      ¬ parcel.HasNode namesakes.model (Resolve.NamesEntity namesakes.model) "ParcelObject" := by
  have hfile : (parcelProject.classFile .events parcel .immutable).2 = .ok parcelFile := by
    decide
  obtain ⟨decl, hdecl, -, hlibrary, -, -, hschemas, -⟩ := Project.imports_exact hfile
  obtain rfl := Declaration.class.inj hdecl
  refine ⟨hfile, fun hset => ?_, ?_, fun hobject => ?_⟩
  · exact absurd ((hlibrary "Set").2 hset) (by decide)
  · exact ((hschemas "Order").1 (by decide)).2
  · exact absurd ((hschemas "ParcelObject").2 ⟨by decide, hobject⟩) (by decide)

end EventForge.Java
