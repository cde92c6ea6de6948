import EventForge.Proofs.Java.KeptFields
import EventForge.Proofs.Java.Resolve
import EventForge.Proofs.Path

/-!
# The files of a project

A file has the path of its name in its package. What the fields of a class mention is declared in
the class or named by the trees that the fields are made from.
-/

namespace EventForge.Java

/-- Every named type in a field of the class is declared in the class or is one of the names. -/
def SourceFile.MentionsOnly (f : SourceFile) (names : String → Prop) : Prop :=
  ∀ decl, f.declaration = .class decl → ∀ field ∈ decl.fields, ∀ n ∈ field.type.names,
    (∃ e ∈ decl.enums, e.name = n) ∨ names n

theorem SourceFile.MentionsOnly.mono {f : SourceFile} {names names' : String → Prop}
    (h : f.MentionsOnly names) (hsub : ∀ n, names n → names' n) : f.MentionsOnly names' :=
  fun decl hd field hfield n hn => (h decl hd field hfield n hn).imp_right (hsub n)

/-- The place of a file relative to its target directory is that in its package directory. -/
theorem SourceFile.path_eq (f : SourceFile) :
    f.path = f.dir.join ⟨f.declaration.name ++ ".java"⟩ := by
  rw [SourceFile.path, SourceFile.pathBelow, Path.nil_join]

/-- The place of a file below a target is the target joined with its relative place. -/
theorem SourceFile.pathBelow_eq (f : SourceFile) (target : Path) :
    f.pathBelow target = target.join f.path := by
  rw [SourceFile.path_eq, SourceFile.pathBelow, Path.join_assoc]

/-- Files whose names hold no slash have the same path when they have one name in one directory. -/
theorem SourceFile.same_path_iff {f k : SourceFile} (hf : f.dir.text ≠ "") (hk : k.dir.text ≠ "")
    (hfname : '/' ∉ f.declaration.name.toList) (hkname : '/' ∉ k.declaration.name.toList) :
    f.path.same k.path ↔ f.dir.same k.dir ∧ f.declaration.name = k.declaration.name := by
  have hjoin : ∀ {dir : Path} {n : String}, dir.text ≠ "" → '/' ∉ n.toList →
      (dir.join ⟨n ++ ".java"⟩).components = dir.components ++ [.name (n ++ ".java")] := by
    intro dir n hdir hn
    refine Path.components_join_name hdir ?_ ?_
    · simp [hn]
    · simp
  rw [Path.same, Path.same, path_eq, path_eq, hjoin hf hfname, hjoin hk hkname]
  simp

namespace Project

variable {p : Project}

/-- The path of the file that declares a name in a package, relative to the target directory. -/
def filePath (p : Project) (kind : PackageKind) (n : String) : Path :=
  (p.layout.packageDir kind).join ⟨n ++ ".java"⟩

/-- What is noticed while a class is made is a warning, whether it is made or not. -/
theorem isWarning_classFile (p : Project) (kind : PackageKind) (source : ClassSource)
    (mutability : Mutability) : ∀ x ∈ (p.classFile kind source mutability).1, x.isWarning := by
  have hstart : (ClassDraft.mk (typeName source.name) [] ∅ []).Warns :=
    fun x hx => absurd hx List.not_mem_nil
  have hd := hstart.addFields p.model source.entries
  rw [classFile]
  split
  · next d fault heq =>
    rw [heq] at hd
    exact hd
  · next d heq =>
    rw [heq] at hd
    exact hd

/-- What the fields of a class mention is declared in it or named by the trees of its fields. -/
theorem mentionsOnly_classFile {kind : PackageKind} {source : ClassSource} {mutability : Mutability}
    {file : SourceFile} (h : (p.classFile kind source mutability).2 = .ok file) :
    file.MentionsOnly fun n => ∃ e ∈ source.entries, ∃ node ∈ Resolve.reached e.2,
      Resolve.entityOf p.model node = .ok (some n) := by
  obtain ⟨d, hd, rfl⟩ := exists_draft h
  intro decl hdecl field hfield n hn
  obtain rfl := Declaration.class.inj hdecl
  obtain ⟨f, hf, rfl⟩ := List.mem_map.1 hfield
  obtain ⟨e, he, hkept⟩ := exists_mem_of_forall₂ hd.fields hf
  obtain ⟨node, hnode, hnested | hentity⟩ := Resolve.mentions_of_typeRef hkept.type hn
  · have hkey := (hd.enums n).2 ⟨e, he, Resolve.mem_keys_enums.2 ⟨node, hnode, hnested⟩⟩
    obtain ⟨entry, hentry, rfl⟩ := List.mem_map.1 hkey
    exact .inl ⟨⟨entry.1, [], entry.2.symbols⟩, List.mem_map.2 ⟨entry, hentry, rfl⟩, rfl⟩
  · exact .inr ⟨e, (List.mem_filter.1 he).1, node, hnode, hentity⟩

end Project

end EventForge.Java
