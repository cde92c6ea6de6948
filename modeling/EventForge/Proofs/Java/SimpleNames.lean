import EventForge.Java.Generator
import EventForge.Proofs.Document.RoundTrip
import EventForge.Proofs.Java.Imports
import EventForge.Proofs.Java.KeptFields
import EventForge.Proofs.Java.Parts
import EventForge.Proofs.Model
import Mathlib.Data.List.ReduceOption

/-!
# The simple names of a class file

Four things bring a simple name into a class file: the class itself, the library types it imports,
the generated types it imports and the enums nested in it. Each of them brings a name once, so names
are ambiguous exactly when two of them bring the same one.
-/

namespace EventForge.Java

/-- What brings a simple name into a class file. -/
inductive Origin where
  | own
  | library
  | schemas
  | nested
  deriving DecidableEq, Repr

theorem Origin.forall_iff {P : Origin → Prop} :
    (∀ o, P o) ↔ P .own ∧ P .library ∧ P .schemas ∧ P .nested :=
  ⟨fun h => ⟨h _, h _, h _, h _⟩, fun ⟨hown, hlibrary, hschemas, hnested⟩ o => by
    cases o <;> assumption⟩

/-- The simple names in scope: the class, what it imports and its nested enums. -/
def SourceFile.simpleNames (f : SourceFile) (decl : ClassDecl) : List String :=
  decl.name :: f.imports.values.flatten ++ decl.enums.map EnumDecl.name

/-- A class made from the source in a package brings the name. -/
def ClassSource.Brings (m : Model) (kind : PackageKind) (s : ClassSource) (n : String) :
    Origin → Prop
  | .own => n = typeName s.name
  | .library =>
    ∃ e ∈ s.keptEntries m, ∃ type, Resolve.typeRef m e.2 = .ok type ∧ n ∈ type.libraryTypes
  | .schemas =>
    kind ≠ .schemas ∧
      ∃ e ∈ s.keptEntries m, ∃ node ∈ Resolve.reached e.2,
        Resolve.entityOf m node = .ok (some n)
  | .nested =>
    ∃ e ∈ s.keptEntries m, ∃ node ∈ Resolve.reached e.2, Resolve.nestedName node = some n

/-- A declaration that a simple name can stand for. -/
inductive Target where
  | nested (name : String)
  | topLevel (package name : String)
  deriving DecidableEq, Repr

namespace Target

def name : Target → String
  | nested n => n
  | topLevel _ n => n

/-- What brings the name of a declaration that a class in a package mentions. -/
def origin (kind : PackageKind) : Target → Origin
  | nested _ => .nested
  | topLevel _ _ => if kind = .schemas then .own else .schemas

end Target

/-- The declarations of a name that a class file brings into scope. Without any, the name stands for
a type of the same package. -/
def SourceFile.inScope (f : SourceFile) (decl : ClassDecl) (n : String) : List Target :=
  (decl.enums.filter fun e => e.name = n).map (fun _ => .nested n)
    ++ (if n = decl.name then [.topLevel f.package n] else [])
    ++ (f.imports.entries.filter fun g => n ∈ g.2).map fun g => .topLevel g.1 n

/-- The name stands for the declaration and for no other one. -/
def SourceFile.Denotes (f : SourceFile) (decl : ClassDecl) (n : String) (t : Target) : Prop :=
  f.inScope decl n = [t] ∨ (f.inScope decl n = [] ∧ t = .topLevel f.package n)

/-- The declaration made for a node. -/
def Project.target? (p : Project) (node : TypeTree) : Option Target :=
  match Resolve.nestedName node, Resolve.entityOf p.model node with
  | some n, _ => some (.nested n)
  | none, .ok (some n) => some (.topLevel (p.layout.package .schemas) n)
  | _, _ => none

theorem library_ne_package (l : Layout) (kind : PackageKind) :
    Project.libraryPackage ≠ l.package kind := by
  intro h
  have hlast := congrArg (fun s => s.toList.getLast?) h
  rw [Project.libraryPackage, Layout.package] at hlast
  cases kind <;> simp [PackageKind.text] at hlast

namespace Resolve

variable {m : Model}

theorem mem_mapM {nodes : List TypeTree} {found : List (Option String)}
    (h : nodes.mapM (entityOf m) = .ok found) {n : String} :
    some n ∈ found ↔ ∃ node ∈ nodes, entityOf m node = .ok (some n) := by
  induction nodes generalizing found with
  | nil =>
    obtain rfl := Except.ok.inj h
    simp
  | cons node nodes ih =>
    rw [List.mapM_cons] at h
    obtain ⟨name, hname, h⟩ := bind_eq_ok h
    obtain ⟨names, hnames, h⟩ := bind_eq_ok h
    obtain rfl := Except.ok.inj h
    rw [List.mem_cons, ih hnames, List.exists_mem_cons_iff, hname, Except.ok.injEq]
    exact or_congr_left eq_comm

/-- The names of generated types are those that the nodes stand for. -/
theorem mem_entities {t : TypeTree} {names : List String} (h : entities m t = .ok names)
    {n : String} : n ∈ names ↔ ∃ node ∈ reached t, entityOf m node = .ok (some n) := by
  obtain ⟨found, hfound, rfl⟩ := map_eq_ok h
  rw [List.reduceOption_mem_iff, mem_mapM hfound]

end Resolve

/-- The names that a draft brings into a file of a package. -/
def ClassDraft.brought (d : ClassDraft) (kind : PackageKind) : Origin → List String
  | .own => [d.name]
  | .library => sortedNames d.libraryTypes
  | .schemas => if kind = .schemas then [] else sortedNames (sortedNames d.entities)
  | .nested => d.enums.keys

theorem ClassDraft.nodup_brought (d : ClassDraft) (kind : PackageKind) (o : Origin) :
    (d.brought kind o).Nodup := by
  cases o with
  | own => exact List.nodup_singleton _
  | library => exact nodup_sortedNames _
  | schemas =>
    rw [brought]
    split
    · exact List.nodup_nil
    · exact nodup_sortedNames _
  | nested => exact d.enums.keys_nodup

section Draft

variable {m : Model} {kind : PackageKind} {source : ClassSource} {d : ClassDraft} {n : String}

theorem mem_brought (h : DraftOf m source d) {o : Origin} :
    n ∈ d.brought kind o ↔ source.Brings m kind n o := by
  cases o with
  | own => rw [ClassDraft.brought, List.mem_singleton, h.name, ClassSource.Brings]
  | library =>
    rw [ClassDraft.brought, mem_sortedNames, ClassDraft.libraryTypes, List.mem_flatMap,
      ClassSource.Brings]
    refine (exists_congr_of_forall₂ h.fields fun e f hf => ?_).symm
    rw [hf.type]
    simp
  | schemas =>
    rw [ClassDraft.brought, ClassSource.Brings]
    split
    · next hkind => simp [hkind]
    · next hkind =>
      rw [mem_sortedNames, mem_sortedNames, ClassDraft.entities, List.mem_flatMap,
        and_iff_right hkind]
      refine (exists_congr_of_forall₂ h.fields fun e f hf => ?_).symm
      exact (Resolve.mem_entities hf.entities).symm
  | nested =>
    rw [ClassDraft.brought, h.enums, ClassSource.Brings]
    simp only [Resolve.mem_keys_enums]

end Draft

/-- The imports of a package; without names there are none. -/
def importGroup (package : String) (names : List String) : List (String × List String) :=
  if names = [] then [] else [(package, names)]

theorem flatMap_importGroup (package : String) (names : List String) :
    (importGroup package names).flatMap Prod.snd = names := by
  rw [importGroup]
  split
  · next h => rw [h, List.flatMap_nil]
  · simp

theorem exists_mem_importGroup_iff {package q n : String} {names : List String} :
    (∃ ns, (q, ns) ∈ importGroup package names ∧ n ∈ ns) ↔ q = package ∧ n ∈ names := by
  rw [importGroup]
  split
  · next h => simp [h]
  · simp [and_assoc]

theorem filter_importGroup (package : String) (names : List String) (n : String) :
    ((importGroup package names).filter fun g => n ∈ g.2).map (fun g => Target.topLevel g.1 n) =
      if n ∈ names then [.topLevel package n] else [] := by
  rw [importGroup]
  split
  · next h => simp [h]
  · by_cases hn : n ∈ names <;> simp [hn]

section File

variable {p : Project} {kind : PackageKind} {d : ClassDraft}

theorem importGroup_sortedNames (package : String) (names : List String) :
    (if names = [] then [] else [(package, sortedNames names)]) =
      importGroup package (sortedNames names) := by
  have hnil : sortedNames names = [] ↔ names = [] := by
    simp [List.eq_nil_iff_forall_not_mem, mem_sortedNames]
  simp only [importGroup, hnil]

theorem entries_imports (p : Project) (kind : PackageKind) (d : ClassDraft) :
    (p.imports kind d).entries =
      importGroup Project.libraryPackage (d.brought kind .library) ++
        importGroup (p.layout.package .schemas) (d.brought kind .schemas) := by
  have hlibrary : (Imports.addAll ∅ Project.libraryPackage d.libraryTypes).entries =
      importGroup Project.libraryPackage (d.brought kind .library) := by
    rw [Imports.entries_addAll (by simp [Dict.keys]), importGroup_sortedNames]
    rfl
  rw [Project.imports]
  split
  · next hkind => simp [hlibrary, ClassDraft.brought, hkind, importGroup]
  · next hkind =>
    have hnew : p.layout.package .schemas ∉
        (Imports.addAll ∅ Project.libraryPackage d.libraryTypes).keys := by
      rw [Dict.keys, hlibrary, importGroup]
      split
      · exact List.not_mem_nil
      · simpa using (library_ne_package p.layout .schemas).symm
    rw [Imports.entries_addAll hnew, hlibrary, importGroup_sortedNames]
    simp [ClassDraft.brought, hkind]

/-- The file of a class that was drafted. -/
def Project.fileOf (p : Project) (kind : PackageKind) (d : ClassDraft) (source : ClassSource)
    (mutability : Mutability) : SourceFile where
  dir := p.layout.packageDir kind
  package := p.layout.package kind
  imports := p.imports kind d
  declaration := .class (d.declaration source mutability)
  indent := p.indent

variable {source : ClassSource} {mutability : Mutability}

theorem names_enums (d : ClassDraft) (source : ClassSource) (mutability : Mutability) :
    (d.declaration source mutability).enums.map EnumDecl.name = d.enums.keys := by
  simp [ClassDraft.declaration, Dict.keys]

theorem simpleNames_eq :
    (p.fileOf kind d source mutability).simpleNames (d.declaration source mutability) =
      [Origin.own, .library, .schemas, .nested].flatMap (d.brought kind) := by
  have himported : (p.imports kind d).values.flatten =
      d.brought kind .library ++ d.brought kind .schemas := by
    rw [Dict.values, ← List.flatMap_def, entries_imports, List.flatMap_append,
      flatMap_importGroup, flatMap_importGroup]
  rw [SourceFile.simpleNames, names_enums]
  simp [Project.fileOf, himported, ClassDraft.brought, ClassDraft.declaration]

/-- Names are distinct when no name is brought twice. -/
theorem nodup_simpleNames :
    ((p.fileOf kind d source mutability).simpleNames (d.declaration source mutability)).Nodup ↔
      ∀ n o o', n ∈ d.brought kind o → n ∈ d.brought kind o' → o = o' := by
  have hnodup : [Origin.own, .library, .schemas, .nested].Nodup := by decide
  have hmem : ∀ o : Origin, o ∈ [Origin.own, .library, .schemas, .nested] := by
    intro o
    cases o <;> simp
  rw [simpleNames_eq, nodup_flatMap_iff hnodup fun o _ => d.nodup_brought kind o]
  constructor
  · intro h n o o' ho ho'
    exact h o (hmem o) o' (hmem o') n ho ho'
  · exact fun h o _ o' _ n ho ho' => h n o o' ho ho'

theorem inScope_eq (n : String) :
    (p.fileOf kind d source mutability).inScope (d.declaration source mutability) n =
      (if n ∈ d.brought kind .nested then [.nested n] else [])
        ++ (if n ∈ d.brought kind .own then [.topLevel (p.layout.package kind) n] else [])
        ++ (if n ∈ d.brought kind .library then [.topLevel Project.libraryPackage n] else [])
        ++ (if n ∈ d.brought kind .schemas then [.topLevel (p.layout.package .schemas) n] else [])
          := by
  have hnested : ((d.declaration source mutability).enums.filter fun e => e.name = n).map
      (fun _ => Target.nested n) = if n ∈ d.brought kind .nested then [.nested n] else [] := by
    have hkeys : (((d.declaration source mutability).enums.map EnumDecl.name).filter (· = n)).map
        (fun _ => Target.nested n) = if n ∈ d.enums.keys then [.nested n] else [] := by
      have hnodup : d.enums.keys.Nodup := d.enums.keys_nodup
      rw [names_enums, List.filter_eq, hnodup.count, List.map_replicate]
      split <;> rfl
    rw [List.filter_map, List.map_map] at hkeys
    exact hkeys
  have hown : (if n = (d.declaration source mutability).name then
      [Target.topLevel (p.fileOf kind d source mutability).package n] else []) =
        if n ∈ d.brought kind .own then [.topLevel (p.layout.package kind) n] else [] := by
    simp only [ClassDraft.brought, List.mem_singleton]
    rfl
  have himports : ((p.fileOf kind d source mutability).imports.entries.filter
      fun g => n ∈ g.2).map (fun g => Target.topLevel g.1 n) =
        (if n ∈ d.brought kind .library then [.topLevel Project.libraryPackage n] else [])
        ++ (if n ∈ d.brought kind .schemas then [.topLevel (p.layout.package .schemas) n]
          else []) := by
    rw [Project.fileOf, entries_imports, List.filter_append, List.map_append, filter_importGroup,
      filter_importGroup]
  rw [SourceFile.inScope, hnested, hown, himports]
  simp only [List.append_assoc]

/-- A nested enum is denoted when nothing else brings its name. -/
theorem denotes_nested_iff {n : String} (hn : n ∈ d.brought kind .nested) :
    (p.fileOf kind d source mutability).Denotes (d.declaration source mutability) n (.nested n) ↔
      ∀ o, n ∈ d.brought kind o → o = .nested := by
  rw [SourceFile.Denotes, inScope_eq, if_pos hn, Origin.forall_iff]
  by_cases hown : n ∈ d.brought kind .own <;> by_cases hlibrary : n ∈ d.brought kind .library <;>
    by_cases hschemas : n ∈ d.brought kind .schemas <;> simp [hown, hlibrary, hschemas]

/-- A class or enum of the schemas package is denoted when only its import brings its name, or
nothing but the class itself within that package. -/
theorem denotes_schema_iff {n : String} (hn : kind = .schemas ∨ n ∈ d.brought kind .schemas) :
    (p.fileOf kind d source mutability).Denotes (d.declaration source mutability) n
        (.topLevel (p.layout.package .schemas) n) ↔
      ∀ o, n ∈ d.brought kind o → o = Target.origin kind (.topLevel (p.layout.package .schemas) n)
        := by
  have hlibrary_ne := library_ne_package p.layout .schemas
  rw [SourceFile.Denotes, inScope_eq, Origin.forall_iff, Target.origin]
  by_cases hkind : kind = .schemas
  · subst hkind
    have hpackage : (p.fileOf .schemas d source mutability).package = p.layout.package .schemas :=
      rfl
    have hschemas : n ∉ d.brought .schemas .schemas := by simp [ClassDraft.brought]
    by_cases hown : n ∈ d.brought .schemas .own <;>
      by_cases hlibrary : n ∈ d.brought .schemas .library <;>
        by_cases hnested : n ∈ d.brought .schemas .nested <;>
          simp [hown, hlibrary, hschemas, hnested, hpackage, hlibrary_ne]
  · have hschemas := hn.resolve_left hkind
    by_cases hown : n ∈ d.brought kind .own <;> by_cases hlibrary : n ∈ d.brought kind .library <;>
      by_cases hnested : n ∈ d.brought kind .nested <;>
        simp [hown, hlibrary, hschemas, hnested, hkind]

end File

/-- No name is brought into the class by two of its origins. -/
def ClassSource.Unambiguous (m : Model) (kind : PackageKind) (s : ClassSource) : Prop :=
  ∀ n o o', s.Brings m kind n o → s.Brings m kind n o' → o = o'

section Target

variable {p : Project} {source : ClassSource} {d : ClassDraft} {e : String × TypeTree}
  {node : TypeTree} {t : Target}

/-- A node has a declaration in two ways: an enum in the class, an object or a reference as a class
or enum of the schemas package. -/
theorem target?_eq_some (h : p.target? node = some t) :
    (∃ n, Resolve.nestedName node = some n ∧ t = .nested n) ∨
      ∃ n, Resolve.entityOf p.model node = .ok (some n) ∧
        t = .topLevel (p.layout.package .schemas) n := by
  rw [Project.target?] at h
  split at h
  · next n hn => exact .inl ⟨n, hn, (Option.some.inj h).symm⟩
  · next n _ hn => exact .inr ⟨n, hn, (Option.some.inj h).symm⟩
  · cases h

theorem exists_target? {n : String} (h : Resolve.nestedName node = some n ∨
    Resolve.entityOf p.model node = .ok (some n)) : ∃ t, p.target? node = some t ∧ t.name = n := by
  cases hnested : Resolve.nestedName node with
  | some n' =>
    cases node with
    | enumeration l symbols =>
      obtain h | h := h
      · exact ⟨.nested n, by rw [Project.target?, h], rfl⟩
      · cases h
    | _ => cases hnested
  | none =>
    have hn := h.resolve_left (by simp [hnested])
    exact ⟨.topLevel (p.layout.package .schemas) n, by rw [Project.target?, hnested, hn], rfl⟩

/-- The name of a node stands for the declaration made for it exactly when nothing but the origin of
that declaration brings the name. -/
theorem denotes_iff (kind : PackageKind) (mutability : Mutability) (h : DraftOf p.model source d)
    (he : e ∈ source.keptEntries p.model) (hnode : node ∈ Resolve.reached e.2)
    (ht : p.target? node = some t) :
    (p.fileOf kind d source mutability).Denotes (d.declaration source mutability) t.name t ↔
      ∀ o, source.Brings p.model kind t.name o → o = t.origin kind := by
  simp only [← mem_brought h]
  obtain ⟨n, hn, rfl⟩ | ⟨n, hn, rfl⟩ := target?_eq_some ht
  · exact denotes_nested_iff ((mem_brought h).2 ⟨e, he, node, hnode, hn⟩)
  · refine denotes_schema_iff ?_
    by_cases hkind : kind = .schemas
    · exact .inl hkind
    · exact .inr ((mem_brought h).2 ⟨hkind, e, he, node, hnode, hn⟩)

end Target

namespace ContextFiles

/-- A class file of a context is that of one of its emissions. Its simple names differ exactly when no
name is brought by two of: the class, the library types of its fields, the classes and enums of the
schemas package that the nodes of its fields stand for, and the enums among those nodes. Each named
type in a field comes from such a node, and stands for the declaration made for it exactly when
nothing else brings its name: outside the schemas package that is so whenever the names differ. -/
theorem simpleNames_nodup_iff (p : Project) (c : Context) {f : SourceFile}
    (hf : f ∈ (ofContext p c).files) {decl : ClassDecl} (hdecl : f.declaration = .class decl) :
    ∃ kind source mutability, Emission.class kind source mutability ∈ emissions p.model c ∧
      (p.classFile kind source mutability).2 = .ok f ∧
      ((f.simpleNames decl).Nodup ↔ source.Unambiguous p.model kind) ∧
      (∀ e ∈ source.keptEntries p.model, ∀ node ∈ Resolve.reached e.2, ∀ t,
        p.target? node = some t →
          (f.Denotes decl t.name t ↔ ∀ o, source.Brings p.model kind t.name o →
            o = t.origin kind) ∧
          (kind ≠ .schemas → (f.simpleNames decl).Nodup → f.Denotes decl t.name t)) ∧
      ∀ field ∈ decl.fields, ∃ e ∈ source.keptEntries p.model, field.name = fieldName e.1 ∧
        Resolve.typeRef p.model e.2 = .ok field.type ∧
        ∀ n ∈ field.type.names, ∃ node ∈ Resolve.reached e.2, ∃ t,
          p.target? node = some t ∧ t.name = n := by
  have hany : HeldByParts p.model fun _ => True := ⟨fun _ => trivial, fun _ _ => trivial⟩
  obtain ⟨kind, source, mutability, hemitted, hfile, -⟩ := exists_source hany hf hdecl
  obtain ⟨d, hd, rfl⟩ := Project.exists_draft hfile
  obtain rfl := Declaration.class.inj hdecl
  have hnodup : ((p.fileOf kind d source mutability).simpleNames
      (d.declaration source mutability)).Nodup ↔ source.Unambiguous p.model kind := by
    rw [nodup_simpleNames]
    simp only [mem_brought hd]
    rfl
  refine ⟨kind, source, mutability, hemitted, hfile, hnodup, fun e he node hnode t ht => ?_, ?_⟩
  · have hdenotes := denotes_iff kind mutability hd he hnode ht
    refine ⟨hdenotes, fun hkind hdistinct => hdenotes.2 fun o ho => ?_⟩
    have horigin : source.Brings p.model kind t.name (t.origin kind) := by
      obtain ⟨n, hn, rfl⟩ | ⟨n, hn, rfl⟩ := target?_eq_some ht
      · exact ⟨e, he, node, hnode, hn⟩
      · rw [Target.origin, if_neg hkind]
        exact ⟨hkind, e, he, node, hnode, hn⟩
    exact hnodup.1 hdistinct _ _ _ ho horigin
  · intro field hfield
    obtain ⟨k, hk, rfl⟩ := List.mem_map.1 hfield
    obtain ⟨e, he, hkept⟩ := exists_mem_of_forall₂ hd.fields hk
    refine ⟨e, he, hkept.name, hkept.type, fun n hn => ?_⟩
    obtain ⟨node, hnode, hname⟩ := Resolve.mentions_of_typeRef hkept.type hn
    exact ⟨node, hnode, exists_target? hname⟩

end ContextFiles

/-- An event (4) whose schema (3) has an entry of the schema (2) that the event shares its name
with. -/
def namesakes : Generator :=
  .ofModel
    { Model.empty with
      streams := [⟨.uniform 1, "Orders"⟩]
      events := Dict.ofList [(.uniform 4, ⟨.uniform 4, "Order", none, some (.uniform 3)⟩)]
      placements := Dict.ofList
        [(.uniform 5, ⟨.uniform 5, 0, .event, .uniform 4, .stream, some (.uniform 1)⟩)]
      schemas := Dict.ofList
        [(.uniform 2, ⟨.uniform 2, "Order", "shop", none,
            .object ⟨"Order", none⟩ [("id", .scalar ⟨"Order", none⟩ .uuid)]⟩),
          (.uniform 3, ⟨.uniform 3, "OrderPlaced", "shop", none,
            .object ⟨"OrderPlaced", none⟩
              [("order", .reference ⟨"OrderPlaced", none⟩ (.uniform 2))]⟩)] }
    ⟨.fallback, .useExisting, .tab⟩

def namesakeContext : Context := ⟨some (.uniform 1), "Orders", [.uniform 5]⟩

def namesakeLayout : Layout := ⟨"Orders", "main.orders", ⟨""⟩, .useExisting⟩

def namesakeClass : ClassDecl :=
  ⟨"Order", .immutable, [], [⟨"order", .named "Order", none⟩], [], []⟩

def namesakeFile : SourceFile where
  dir := ⟨"main/orders/events"⟩
  package := "main.orders.events"
  imports := (∅ : Imports).add "main.orders.schemas" "Order"
  declaration := .class namesakeClass
  indent := .tab

/-- The class of the event is named `Order` and imports `Order`. -/
theorem simpleNames_nodup_iff_namesakes :
    namesakeFile ∈ (namesakes.filesOf (namesakeContext, namesakeLayout)).files ∧
      ∃ kind source mutability,
        Emission.class kind source mutability ∈
          ContextFiles.emissions namesakes.model namesakeContext ∧
        (Project.classFile ⟨namesakes.model, namesakeLayout, .tab⟩ kind source mutability).2 =
          .ok namesakeFile ∧ ¬ source.Unambiguous namesakes.model kind := by
  have hfile : namesakeFile ∈ (namesakes.filesOf (namesakeContext, namesakeLayout)).files := by
    decide +kernel
  obtain ⟨kind, source, mutability, hemitted, hclass, hnodup, -⟩ := ContextFiles.simpleNames_nodup_iff
    ⟨namesakes.model, namesakeLayout, .tab⟩ namesakeContext hfile rfl
  exact ⟨hfile, kind, source, mutability, hemitted, hclass,
    fun h => absurd (hnodup.2 h) (by decide +kernel)⟩

/-- The document of the model is read without a warning, and the type of the only field of its event
stands for two declarations. -/
theorem namesakes_ambiguous :
    Document.Accepted namesakes.model [] ∧
      namesakes.projects = [(namesakeContext, namesakeLayout)] ∧
      namesakeFile ∈ (namesakes.filesOf (namesakeContext, namesakeLayout)).files ∧
      ¬ (namesakeFile.simpleNames namesakeClass).Nodup ∧
      ¬ namesakeFile.Denotes namesakeClass "Order" (.topLevel "main.orders.schemas" "Order") := by
  have hscope : namesakeFile.inScope namesakeClass "Order" =
      [.topLevel "main.orders.events" "Order", .topLevel "main.orders.schemas" "Order"] := by
    decide +kernel
  refine ⟨Document.accepted_of_wellFormed (by decide +kernel), by decide +kernel, by decide +kernel,
    by decide +kernel, ?_⟩
  rw [SourceFile.Denotes, hscope]
  simp

end EventForge.Java
