import EventForge.Proofs.Java.SimpleNames
import EventForge.Proofs.Java.SourceLines
import EventForge.Proofs.Java.Emissions
import EventForge.Proofs.Java.Naming
import Mathlib.Data.List.Sort

/-!
# What stands in front of a declaration

A file that was made starts with its package and its imports. The package tells the kind of the
file, and an import is a line of its own, so two files with the same library types start alike
exactly when they are of one kind and import the same classes and enums of the schemas package
(`Emission.head_eq_iff`). Apart from the names of nested enums, these are those that the fields
mention.
-/

namespace EventForge.Java

open Code (Indent Line)

/-! ## Lines of imports -/

theorem lineFeed_not_mem_typeName (s : String) : '\n' ∉ (typeName s).toList := by
  apply not_mem_typeName (by decide) (by decide)
  have hblank : Text.isBlank '\n' := by decide
  simp [Text.toList_compact, hblank]

/-- The import lines of a package, with the blank line behind them. -/
def importText (package : String) : List String → List Char
  | [] => ['\n']
  | n :: names =>
    ("import " ++ package ++ ".").toList ++ ((n ++ ";").toList ++ '\n' :: importText package names)

theorem toList_writeAll_importLines (indent : Indent) (package : String) (names : List String) :
    (Line.writeAll indent (importLines (package, names))).toList =
      if names = [] then [] else importText package names := by
  have hlines : ∀ names : List String,
      (Line.writeAll indent (names.map (fun n => .text 0 ("import " ++ package ++ "." ++ n ++ ";"))
        ++ [.blank])).toList = importText package names := by
    intro names
    induction names with
    | nil => simp [Line.writeAll, Line.write, importText]
    | cons n names ih =>
      rw [List.map_cons, List.cons_append, Line.writeAll_cons, String.toList_append, ih, importText,
        Line.write, Line.margin]
      simp
  rw [importLines]
  split
  · rfl
  · exact hlines names

theorem importText_ne_nil (package : String) (names : List String) :
    importText package names ≠ [] := by
  cases names <;> simp [importText]

theorem importText_cons_ne (package n : String) (names : List String) :
    importText package (n :: names) ≠ importText package [] := by
  simp [importText]

/-- The names can be read off the import lines when none of them has a line feed. -/
theorem importText_injective (package : String) {names names' : List String}
    (hnames : ∀ n ∈ names, '\n' ∉ n.toList) (hnames' : ∀ n ∈ names', '\n' ∉ n.toList)
    (h : importText package names = importText package names') : names = names' := by
  induction names generalizing names' with
  | nil =>
    cases names' with
    | nil => rfl
    | cons n' names' => exact absurd h.symm (importText_cons_ne package n' names')
  | cons n names ih =>
    cases names' with
    | nil => exact absurd h (importText_cons_ne package n names)
    | cons n' names' =>
      obtain ⟨hn, hnames⟩ := List.forall_mem_cons.1 hnames
      obtain ⟨hn', hnames'⟩ := List.forall_mem_cons.1 hnames'
      have hline : ∀ {n : String}, '\n' ∉ n.toList → '\n' ∉ (n ++ ";").toList := by
        intro n hn
        rw [String.toList_append, List.mem_append, not_or]
        exact ⟨hn, by decide⟩
      have hrest := List.append_cancel_left h
      -- Each side is cut at its first line feed, which ends the line of the first name.
      have hsplit := congrArg (Text.splitOn '\n') hrest
      rw [Text.splitOn_append_sep, Text.splitOn_append_sep, Text.splitOn_of_not_mem (hline hn),
        Text.splitOn_of_not_mem (hline hn')] at hsplit
      have hfirst : n ++ ";" = n' ++ ";" := String.toList_inj.1 (List.cons.inj hsplit).1
      rw [hfirst] at hrest
      have htail := (List.cons.inj (List.append_cancel_left hrest)).2
      rw [(String.append_left_inj _).1 hfirst, ih hnames hnames' htail]

theorem writeAll_importLines_injective (indent : Indent) (package : String)
    {names names' : List String} (hnames : ∀ n ∈ names, '\n' ∉ n.toList)
    (hnames' : ∀ n ∈ names', '\n' ∉ n.toList)
    (h : Line.writeAll indent (importLines (package, names)) =
      Line.writeAll indent (importLines (package, names'))) : names = names' := by
  have htext := congrArg String.toList h
  rw [toList_writeAll_importLines, toList_writeAll_importLines] at htext
  split at htext
  · next hnil =>
    split at htext
    · next hnil' => rw [hnil, hnil']
    · exact absurd htext.symm (importText_ne_nil package names')
  · split at htext
    · exact absurd htext (importText_ne_nil package names)
    · exact importText_injective package hnames hnames' htext

/-- A package without names has no lines. -/
theorem flatMap_importLines_importGroup (package : String) (names : List String) :
    (importGroup package names).flatMap importLines = importLines (package, names) := by
  rw [importGroup]
  split
  · next h =>
    rw [h]
    rfl
  · rw [List.flatMap_singleton]

/-- The text in front of the declaration of a file: its package and its imports. -/
def SourceFile.head (f : SourceFile) : String :=
  Line.writeAll f.indent (headLines f.package f.imports)

/-- The kind of a package can be read off its name, whatever follows. -/
theorem kind_eq_of_package_append {l : Layout} {kind kind' : PackageKind} {s s' : String}
    (h : l.package kind ++ s = l.package kind' ++ s') : kind = kind' := by
  simp only [Layout.package, String.append_assoc, String.append_right_inj] at h
  have hhead := congrArg (fun t => t.toList.head?) h
  cases kind <;> cases kind' <;> simp [PackageKind.text] at hhead ⊢

theorem package_inj {l : Layout} {kind kind' : PackageKind} :
    l.package kind = l.package kind' ↔ kind = kind' := by
  refine ⟨fun h => ?_, fun h => by rw [h]⟩
  have happend : l.package kind ++ "" = l.package kind' ++ "" := by rw [h]
  exact kind_eq_of_package_append happend

/-! ## The imports of a file -/

namespace Declaration

/-- The library types that the fields use. -/
def libraryTypes : Declaration → List String
  | .class c => c.fields.flatMap fun f => f.type.libraryTypes
  | .enum _ => []

/-- The named types that the fields mention. -/
def mentioned : Declaration → List String
  | .class c => c.fields.flatMap fun f => f.type.names
  | .enum _ => []

/-- The names of the enums that are declared inside. -/
def nestedNames : Declaration → List String
  | .class c => c.enums.map EnumDecl.name
  | .enum _ => []

end Declaration

/-- The file imports its library types and, from the schemas package, the names. A file of that
package imports none of them; another one imports what its fields mention, and may or may not import
the name of a nested enum. -/
structure SourceFile.ImportsNames (p : Project) (kind : PackageKind) (f : SourceFile)
    (names : List String) : Prop where
  entries : f.imports.entries =
    importGroup Project.libraryPackage (sortedNames f.declaration.libraryTypes) ++
      importGroup (p.layout.package .schemas) names
  sorted : names.Pairwise (· < ·)
  oneLine : ∀ n ∈ names, '\n' ∉ n.toList
  ofSchemas : kind = .schemas → names = []
  mem_iff : kind ≠ .schemas → ∀ n ∉ f.declaration.nestedNames,
    (n ∈ names ↔ n ∈ f.declaration.mentioned)

theorem Resolve.entityOf_eq_some {m : Model} {node : TypeTree} {n : String}
    (h : entityOf m node = .ok (some n)) : ∃ s, n = typeName s := by
  cases namesEntity_iff.2 h <;> exact ⟨_, rfl⟩

theorem importsNames_fileOf {p : Project} {source : ClassSource} {d : ClassDraft}
    (h : DraftOf p.model source d) (kind : PackageKind) (mutability : Mutability) :
    (p.fileOf kind d source mutability).ImportsNames p kind (d.brought kind .schemas) where
  entries := by
    have hlibrary : (p.fileOf kind d source mutability).declaration.libraryTypes =
        d.libraryTypes := List.flatMap_map ..
    rw [hlibrary]
    exact entries_imports p kind d
  sorted := by
    rw [ClassDraft.brought]
    split
    · exact List.Pairwise.nil
    · exact sorted_sortedNames _
  oneLine := by
    intro n hn
    obtain ⟨-, e, -, node, -, hnode⟩ := (mem_brought h).1 hn
    obtain ⟨s, rfl⟩ := Resolve.entityOf_eq_some hnode
    exact lineFeed_not_mem_typeName s
  ofSchemas := fun hkind => by rw [ClassDraft.brought, if_pos hkind]
  mem_iff := by
    intro hkind n hn
    have hnested : ¬ source.Brings p.model kind n .nested := by
      rw [← mem_brought h, ClassDraft.brought, ← names_enums d source mutability]
      exact hn
    have hmentioned : n ∈ (p.fileOf kind d source mutability).declaration.mentioned ↔
        ∃ f ∈ d.fields, n ∈ f.decl.type.names := by
      simp [Project.fileOf, Declaration.mentioned, ClassDraft.declaration]
    rw [mem_brought h, hmentioned, ClassSource.Brings, and_iff_right hkind]
    rw [← exists_congr_of_forall₂ h.fields fun e f hf => (Resolve.mem_names_iff hf.type).symm]
    constructor
    · rintro ⟨e, he, node, hnode, hname⟩
      exact ⟨e, he, node, hnode, .inr hname⟩
    · rintro ⟨e, he, node, hnode, hname | hname⟩
      · exact absurd ⟨e, he, node, hnode, hname⟩ hnested
      · exact ⟨e, he, node, hnode, hname⟩

namespace Emission

variable {p : Project} {e : Emission} {f : SourceFile}

/-- What the file of an emission imports. -/
theorem exists_importsNames (h : (e.file p).2 = .ok f) :
    ∃ names, f.ImportsNames p e.kind names := by
  cases e with
  | «class» kind source mutability =>
    obtain ⟨d, hd, rfl⟩ := Project.exists_draft h
    exact ⟨_, importsNames_fileOf hd kind mutability⟩
  | enum root description =>
    obtain rfl := Except.ok.inj h
    exact ⟨[], rfl, .nil, by simp, fun _ => rfl, fun hkind => absurd rfl hkind⟩

end Emission

namespace SourceFile.ImportsNames

variable {p : Project} {kind kind' : PackageKind} {f k : SourceFile} {names names' : List String}

theorem hasName_eq (h : f.ImportsNames p kind names) (n : String) :
    f.imports.hasName (p.layout.package .schemas) n = names.contains n := by
  have hne := (library_ne_package p.layout .schemas).symm
  rw [Bool.eq_iff_iff, Imports.hasName_iff, h.entries, List.contains_iff_mem]
  simp only [List.mem_append, or_and_right, exists_or, exists_mem_importGroup_iff, hne, false_and,
    false_or, true_and]

/-- A file of the schemas package imports nothing from it. -/
theorem hasName_of_schemas (h : f.ImportsNames p .schemas names) (n : String) :
    f.imports.hasName (p.layout.package .schemas) n = false := by
  rw [h.hasName_eq, h.ofSchemas rfl]
  rfl

theorem head_eq (h : f.ImportsNames p kind names) (hpackage : f.package = p.layout.package kind) :
    f.head = "package " ++ (p.layout.package kind ++ (";\n" ++ ("\n" ++
      (Line.writeAll f.indent
          (importLines (Project.libraryPackage, sortedNames f.declaration.libraryTypes)) ++
        Line.writeAll f.indent (importLines (p.layout.package .schemas, names)))))) := by
  have himports : f.imports.entries.flatMap importLines =
      importLines (Project.libraryPackage, sortedNames f.declaration.libraryTypes) ++
        importLines (p.layout.package .schemas, names) := by
    rw [h.entries, List.flatMap_append, flatMap_importLines_importGroup,
      flatMap_importLines_importGroup]
  rw [SourceFile.head, headLines, himports, hpackage, Line.writeAll_cons, Line.writeAll_cons,
    Line.writeAll_append]
  simp [Line.write, Line.margin, String.append_assoc]

/-- Files with the same library types start alike when they are of one kind and import the same
names. -/
theorem head_eq_iff (hf : f.ImportsNames p kind names) (hk : k.ImportsNames p kind' names')
    (hfpackage : f.package = p.layout.package kind)
    (hkpackage : k.package = p.layout.package kind') (hindent : f.indent = k.indent)
    (hlibrary : f.declaration.libraryTypes = k.declaration.libraryTypes) :
    f.head = k.head ↔ kind = kind' ∧ names = names' := by
  rw [hf.head_eq hfpackage, hk.head_eq hkpackage, hindent, hlibrary, String.append_right_inj]
  constructor
  · intro h
    obtain rfl := kind_eq_of_package_append h
    simp only [String.append_right_inj] at h
    exact ⟨rfl, writeAll_importLines_injective _ _ hf.oneLine hk.oneLine h⟩
  · rintro ⟨rfl, rfl⟩
    rfl

/-- Files of one kind whose fields mention the same import the same names when they agree on the
names of their nested enums. -/
theorem names_eq_iff (hf : f.ImportsNames p kind names) (hk : k.ImportsNames p kind names')
    (hmentioned : f.declaration.mentioned = k.declaration.mentioned)
    (hnested : f.declaration.nestedNames = k.declaration.nestedNames) :
    names = names' ↔ ∀ n ∈ f.declaration.nestedNames, (n ∈ names ↔ n ∈ names') := by
  constructor
  · rintro rfl n -
    exact Iff.rfl
  · intro h
    by_cases hkind : kind = .schemas
    · rw [hf.ofSchemas hkind, hk.ofSchemas hkind]
    · refine hf.sorted.eq_of_mem_iff hk.sorted fun n => ?_
      by_cases hn : n ∈ f.declaration.nestedNames
      · exact h n hn
      · rw [hf.mem_iff hkind n hn, hk.mem_iff hkind n (hnested ▸ hn), hmentioned]

end SourceFile.ImportsNames

end EventForge.Java
