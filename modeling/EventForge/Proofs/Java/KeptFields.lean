import EventForge.Java.Project
import EventForge.Proofs.Java.ClassDraft
import Mathlib.Data.List.Forall2
import Mathlib.Data.List.Nodup
import Mathlib.Data.List.Pairwise

/-!
# The fields of a class file

A class that was made has a field for every entry whose type is supported, in the order of the
entries, and each of its enums was met in one of these entries.
-/

namespace EventForge.Java

section Lists

variable {α β : Type}

theorem exists_congr_of_forall₂ {R : α → β → Prop} {P : α → Prop} {Q : β → Prop} {xs : List α}
    {ys : List β} (h : List.Forall₂ R xs ys) (hpq : ∀ x y, R x y → (P x ↔ Q y)) :
    (∃ x ∈ xs, P x) ↔ ∃ y ∈ ys, Q y := by
  induction h with
  | nil => simp
  | cons hxy _ ih => simp only [List.mem_cons, exists_eq_or_imp, hpq _ _ hxy, ih]

/-- What different items bring, each of them nothing twice, differs when no two bring the same. -/
theorem nodup_flatMap_iff {f : α → List β} {xs : List α} (hxs : xs.Nodup)
    (hown : ∀ x ∈ xs, (f x).Nodup) :
    (xs.flatMap f).Nodup ↔ ∀ x ∈ xs, ∀ x' ∈ xs, ∀ b ∈ f x, b ∈ f x' → x = x' := by
  have hsymm : Std.Symm (Function.onFun List.Disjoint f) := ⟨fun _ _ h => h.symm⟩
  rw [List.nodup_flatMap, and_iff_right hown]
  constructor
  · intro hdisjoint x hx x' hx' b hb hb'
    by_contra hne
    exact hdisjoint.forall hx hx' hne hb hb'
  · intro hshared
    exact List.Pairwise.imp_of_mem
      (fun hx hx' hne b hb hb' => hne (hshared _ hx _ hx' b hb hb')) hxs

end Lists

variable {m : Model}

/-- The type of the entry is supported and known. -/
def isTyped (m : Model) (e : String × TypeTree) : Bool := (Resolve.typeRef m e.2).isOk

/-- The entries that become fields. -/
def ClassSource.keptEntries (m : Model) (s : ClassSource) : List (String × TypeTree) :=
  s.entries.filter (isTyped m)

/-- The field that an entry becomes. -/
structure KeptFor (m : Model) (e : String × TypeTree) (f : KeptField) : Prop where
  name : f.decl.name = fieldName e.1
  type : Resolve.typeRef m e.2 = .ok f.decl.type
  comment : f.decl.comment = propertyComment e.2
  entities : Resolve.entities m e.2 = .ok f.entities
  patterns : f.patterns = (Resolve.patterns e.2).entries

/-- The draft of a class has the name, the fields and the enums that its source asks for. -/
structure DraftOf (m : Model) (source : ClassSource) (d : ClassDraft) : Prop where
  name : d.name = typeName source.name
  fields : List.Forall₂ (KeptFor m) (source.keptEntries m) d.fields
  enums : ∀ n, n ∈ d.enums.keys ↔ ∃ e ∈ source.keptEntries m, n ∈ (Resolve.enums e.2).keys

namespace ClassDraft

variable {d d' : ClassDraft} {e : String × TypeTree} {es : List (String × TypeTree)}

/-- An entry adds a field and its enums when it has a type; otherwise it only leaves a warning. -/
theorem addField_eq (h : d.addField m e = (d', none)) :
    (isTyped m e = false ∧ d'.fields = d.fields ∧ d'.enums = d.enums) ∨
      (isTyped m e = true ∧ ∃ f, KeptFor m e f ∧ d'.fields = d.fields ++ [f] ∧
        ∀ n, n ∈ d'.enums.keys ↔ n ∈ (Resolve.enums e.2).keys ∨ n ∈ d.enums.keys) := by
  rw [addField] at h
  split at h
  · next fault hfault =>
    split at h
    · obtain ⟨rfl, -⟩ := Prod.mk.inj h
      exact .inl ⟨by rw [isTyped, hfault]; rfl, rfl, rfl⟩
    · cases (Prod.mk.inj h).2
  · next type htype =>
    split at h
    · cases (Prod.mk.inj h).2
    · next names hnames =>
      obtain ⟨rfl, -⟩ := Prod.mk.inj h
      obtain ⟨hfields, hkeys⟩ := foldl_addEnum (fieldName e.1) (Resolve.enums e.2).entries d
      refine .inr ⟨by rw [isTyped, htype]; rfl,
        ⟨⟨fieldName e.1, type, propertyComment e.2⟩, names, (Resolve.patterns e.2).entries⟩,
        ⟨rfl, htype, rfl, hnames, rfl⟩, ?_, hkeys⟩
      rw [keep, hfields]

/-- The fields that entries add, and where the enums come from. -/
theorem addFields_eq (h : d.addFields m es = (d', none)) :
    ∃ fs, List.Forall₂ (KeptFor m) (es.filter (isTyped m)) fs ∧ d'.fields = d.fields ++ fs ∧
      ∀ n, n ∈ d'.enums.keys ↔
        n ∈ d.enums.keys ∨ ∃ e ∈ es.filter (isTyped m), n ∈ (Resolve.enums e.2).keys := by
  induction es generalizing d with
  | nil =>
    obtain ⟨rfl, -⟩ := Prod.mk.inj h
    exact ⟨[], .nil, by simp, by simp⟩
  | cons e es ih =>
    rw [addFields] at h
    split at h
    · next d₁ hstep =>
      obtain ⟨fs, hfs, hfields, hkeys⟩ := ih h
      obtain ⟨htyped, hfields₁, henums₁⟩ | ⟨htyped, f, hf, hfields₁, hkeys₁⟩ := addField_eq hstep
      · refine ⟨fs, ?_, ?_, fun n => ?_⟩
        · rwa [List.filter_cons_of_neg (by simp [htyped])]
        · rw [hfields, hfields₁]
        · rw [hkeys, henums₁, List.filter_cons_of_neg (by simp [htyped])]
      · refine ⟨f :: fs, ?_, ?_, fun n => ?_⟩
        · rw [List.filter_cons_of_pos htyped]
          exact .cons hf hfs
        · rw [hfields, hfields₁, List.append_assoc]
          rfl
        · rw [hkeys, hkeys₁, List.filter_cons_of_pos htyped]
          simp [or_assoc, or_left_comm]
    · cases (Prod.mk.inj h).2

end ClassDraft

/-- The file of a class, by the draft that it was made from. -/
theorem Project.exists_draft {p : Project} {kind : PackageKind} {source : ClassSource}
    {mutability : Mutability} {file : SourceFile}
    (h : (p.classFile kind source mutability).2 = .ok file) :
    ∃ d : ClassDraft, DraftOf p.model source d ∧
      file =
        { dir := p.layout.packageDir kind
          package := p.layout.package kind
          imports := p.imports kind d
          declaration := .class (d.declaration source mutability)
          indent := p.indent } := by
  have hname := ClassDraft.name_addFields p.model source.entries ⟨typeName source.name, [], ∅, []⟩
  rw [classFile] at h
  split at h
  · cases h
  · next d hd =>
    obtain ⟨fs, hfs, hfields, hkeys⟩ := ClassDraft.addFields_eq hd
    rw [hd] at hname
    dsimp only at hname
    refine ⟨d, ⟨hname, ?_, fun n => ?_⟩, (Except.ok.inj h).symm⟩
    · rw [hfields, List.nil_append]
      exact hfs
    · rw [hkeys]
      simp [Dict.keys, ClassSource.keptEntries]

end EventForge.Java
