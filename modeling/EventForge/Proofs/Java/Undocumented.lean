import EventForge.Proofs.Java.Emissions

/-!
# Emissions without documentation

Descriptions and the properties of a root and its entries end up in comments alone: a class or enum
made without them is the one made with them, less its comments (`Emission.file_bare`).
-/

namespace EventForge

def Label.bare (l : Label) : Label := ⟨l.name, none⟩

namespace TypeTree

/-- The tree without the properties of its root node. -/
def bare : TypeTree → TypeTree
  | scalar l kind => scalar l.bare kind
  | wrapper l kind child => wrapper l.bare kind child
  | mapOf l key value => mapOf l.bare key value
  | combined l kind members => combined l.bare kind members
  | object l entries => object l.bare entries
  | enumeration l symbols => enumeration l.bare symbols
  | pattern l expression => pattern l.bare expression
  | reference l target => reference l.bare target
  | unset l => unset l.bare

/-- The tree without the properties of its root node and, when that is a map, of its entries. -/
def bareRoot : TypeTree → TypeTree
  | object l entries => object l.bare (entries.map fun e => (e.1, e.2.bare))
  | t => t.bare

theorem label_bare (t : TypeTree) : t.bare.label = t.label.bare := by
  cases t <;> rfl

@[simp]
theorem name_bare (t : TypeTree) : t.bare.name = t.name := by
  rw [name, label_bare]
  rfl

@[simp]
theorem properties?_bare (t : TypeTree) : t.bare.properties? = none := by
  rw [properties?, label_bare]
  rfl

end TypeTree

namespace Java

namespace Resolve

open TypeTree

variable {m : Model}

@[simp]
theorem typeRef_bare (t : TypeTree) : typeRef m t.bare = typeRef m t := by
  cases t with
  | wrapper l kind child => cases kind <;> rfl
  | _ => rfl

theorem entityOf_bare (t : TypeTree) : entityOf m t.bare = entityOf m t := by
  cases t <;> rfl

/-- The nodes looked into are the same but for the root. -/
theorem reached_bare (t : TypeTree) :
    ∃ below, reached t = t :: below ∧ reached t.bare = t.bare :: below := by
  cases t with
  | wrapper l kind child => cases kind <;> simp [bare, reached]
  | _ => simp [bare, reached]

@[simp]
theorem entities_bare (t : TypeTree) : entities m t.bare = entities m t := by
  obtain ⟨below, ht, hbare⟩ := reached_bare t
  rw [entities, entities, ht, hbare, List.mapM_cons, List.mapM_cons, entityOf_bare]

@[simp]
theorem patterns_bare (t : TypeTree) : patterns t.bare = patterns t := by
  obtain ⟨below, ht, hbare⟩ := reached_bare t
  rw [patterns, patterns, ht, hbare, List.foldl_cons, List.foldl_cons]
  cases t <;> rfl

@[simp]
theorem enums_bare (t : TypeTree) : enums t.bare = enums t := by
  obtain ⟨below, ht, hbare⟩ := reached_bare t
  rw [enums, enums, ht, hbare, List.foldl_cons, List.foldl_cons]
  cases t <;> rfl

end Resolve

/-- What a class is made from, without documentation. -/
def ClassSource.bare (s : ClassSource) : ClassSource := ⟨s.name, none, s.root.map .bareRoot⟩

theorem ClassSource.entries_bare (s : ClassSource) :
    s.bare.entries = s.entries.map fun e => (e.1, e.2.bare) := by
  obtain ⟨name, description, root⟩ := s
  cases root with
  | none => rfl
  | some t => cases t <;> rfl

theorem ClassSource.doc_bare (s : ClassSource) : s.bare.doc = [] := by
  obtain ⟨name, description, root⟩ := s
  cases root with
  | none => rfl
  | some t => cases t <;> rfl

def FieldDecl.bare (f : FieldDecl) : FieldDecl := { f with comment := none }

def KeptField.bare (f : KeptField) : KeptField := { f with decl := f.decl.bare }

/-- The class without its documentation and the comments of its fields. -/
def ClassDecl.bare (c : ClassDecl) : ClassDecl :=
  { c with doc := [], fields := c.fields.map .bare }

def EnumDecl.bare (e : EnumDecl) : EnumDecl := { e with doc := [] }

def Declaration.bare : Declaration → Declaration
  | .class c => .class c.bare
  | .enum e => .enum e.bare

def SourceFile.bare (f : SourceFile) : SourceFile := { f with declaration := f.declaration.bare }

namespace ClassDraft

def bare (d : ClassDraft) : ClassDraft := { d with fields := d.fields.map .bare }

theorem addEnum_bare (field : String) (d : ClassDraft) (e : String × List String) :
    d.bare.addEnum field e = (d.addEnum field e).bare := by
  have henums : d.bare.enums = d.enums := rfl
  rw [addEnum, addEnum, henums]
  split
  · rfl
  · split <;> rfl

theorem keep_bare (d : ClassDraft) (field : String) (t : TypeTree) (type : TypeRef)
    (names : List String) :
    d.bare.keep field t.bare type names = (d.keep field t type names).bare := by
  have hfold : ∀ (es : List (String × List String)) (d : ClassDraft),
      es.foldl (addEnum field) d.bare = (es.foldl (addEnum field) d).bare := by
    intro es
    induction es with
    | nil => exact fun d => rfl
    | cons e es ih =>
      intro d
      rw [List.foldl_cons, List.foldl_cons, addEnum_bare, ih]
  rw [keep, keep, Resolve.enums_bare, hfold, Resolve.patterns_bare]
  simp [bare, KeptField.bare, FieldDecl.bare, propertyComment]

theorem addField_bare (m : Model) (d : ClassDraft) (e : String × TypeTree) :
    d.bare.addField m (e.1, e.2.bare) = ((d.addField m e).1.bare, (d.addField m e).2) := by
  rw [addField, addField]
  dsimp only
  rw [Resolve.typeRef_bare, Resolve.entities_bare]
  split
  · split <;> rfl
  · split
    · rfl
    · rw [keep_bare]

theorem addFields_bare (m : Model) (es : List (String × TypeTree)) (d : ClassDraft) :
    d.bare.addFields m (es.map fun e => (e.1, e.2.bare)) =
      ((d.addFields m es).1.bare, (d.addFields m es).2) := by
  induction es generalizing d with
  | nil => rfl
  | cons e es ih =>
    rw [List.map_cons, addFields, addFields, addField_bare]
    rcases hstep : d.addField m e with ⟨d', fault?⟩
    cases fault? with
    | none => exact ih d'
    | some fault => rfl

theorem declaration_bare (d : ClassDraft) (source : ClassSource) (mutability : Mutability) :
    d.bare.declaration source.bare mutability = (d.declaration source mutability).bare := by
  rw [declaration, declaration, ClassSource.doc_bare]
  simp [bare, ClassDecl.bare, KeptField.bare, List.flatMap_map, Function.comp_def]
  rfl

end ClassDraft

namespace Emission

/-- The emission without descriptions and properties. -/
def bare : Emission → Emission
  | .class kind source mutability => .class kind source.bare mutability
  | .enum root _ => .enum root.bare none

/-- Without documentation, the same file is made but for its comments, and the same diagnostics and
faults are raised. -/
theorem file_bare (p : Project) (e : Emission) :
    e.bare.file p = ((e.file p).1, (e.file p).2.map SourceFile.bare) := by
  cases e with
  | «class» kind source mutability =>
    have hfields := ClassDraft.addFields_bare p.model source.entries
      ⟨typeName source.name, [], ∅, []⟩
    rw [← ClassSource.entries_bare] at hfields
    have himports : ∀ d : ClassDraft, p.imports kind d.bare = p.imports kind d := by
      intro d
      simp [Project.imports, ClassDraft.libraryTypes, ClassDraft.entities, ClassDraft.bare,
        List.flatMap_map, KeptField.bare, FieldDecl.bare]
    rw [bare, file, file, Project.classFile, Project.classFile]
    rcases hrun : (ClassDraft.mk (typeName source.name) [] ∅ []).addFields p.model source.entries
      with ⟨d, fault?⟩
    rw [hrun] at hfields
    have hname : source.bare.name = source.name := rfl
    have hstart : (ClassDraft.mk (typeName source.name) [] ∅ []).bare =
        ⟨typeName source.name, [], ∅, []⟩ := by rw [ClassDraft.bare, List.map_nil]
    rw [hstart] at hfields
    rw [hname, hfields]
    cases fault? with
    | none =>
      simp only [Except.map, SourceFile.bare, Declaration.bare, ClassDraft.declaration_bare,
        himports]
      rfl
    | some fault => rfl
  | enum root description =>
    have hvariants : Project.variants root.bare = Project.variants root := by
      cases root <;> rfl
    simp [bare, file, Project.enumFile, hvariants, TypeTree.properties, docLines, Except.map,
      SourceFile.bare, Declaration.bare, EnumDecl.bare]

end Emission

end Java

end EventForge
