import EventForge.Proofs.Java.Containment
import EventForge.Proofs.Java.Emissions
import EventForge.Proofs.Java.Members
import EventForge.Proofs.Java.Naming

/-!
# Names without slashes

A schema and the nodes of its tree have no slash in their names. When the names of streams and notes
have none either, and no stream is called like the directory above, then every file lies below the
target directory (`contained_of_plainNames`).
-/

namespace EventForge.Java

variable {m : Model} {p : Project} {c : Context} {f : SourceFile}

/-- The tree has the names derived from a name without slashes. -/
def HasPlainNames (t : TypeTree) : Prop :=
  ∃ name nested, '/' ∉ name.toList ∧ Document.NamedFrom name nested t

theorem HasPlainNames.name {t : TypeTree} (h : HasPlainNames t) : '/' ∉ t.name.toList := by
  obtain ⟨name, nested, hslash, hnamed⟩ := h
  exact hnamed.slash_not_mem hslash

/-- In an accepted document all trees that classes are made from have plain names. -/
theorem heldByParts_hasPlainNames {ws : List Diagnostic} (h : Document.Accepted m ws) :
    HeldByParts m HasPlainNames where
  schemas hs := by
    obtain ⟨hplain, hnodes⟩ := h.schemaNames (Dict.mem_values_of_get? hs)
    exact ⟨_, _, hplain, hnodes⟩
  below := by
    rintro t c ht hc
    obtain ⟨name', hmem⟩ := exists_mem_handedDown hc
    obtain ⟨role, hrole⟩ := Document.exists_role_of_mem_handedDown hmem
    obtain ⟨name, nested, hslash, hnamed⟩ := ht
    have hslash' := Document.slash_not_mem_nameFor (hnamed.slash_not_mem hslash) role
    rw [← hrole] at hslash'
    exact ⟨name', true, hslash', hnamed.children hmem⟩

/-! ## The names of files -/

namespace ContextFiles

/-- What is made for a context has the name of one of its notes, or of a part of a schema. -/
theorem name_of_mem_emissions {P : TypeTree → Prop} (hP : HeldByParts m P) {e : Emission}
    (h : e ∈ emissions m c) :
    (∃ kind, ∃ note ∈ m.notes kind, e.name = note.name) ∨ ∃ t, P t ∧ e.name = t.name := by
  obtain ⟨⟨kind, note⟩, hentry, he⟩ := mem_emissions.1 h
  rcases Emission.mem_ofNote.1 he with ⟨s, hs, d, hd, rfl⟩ | rfl
  · obtain ⟨id, -, hid⟩ := Option.bind_eq_some_iff.1 hs
    refine .inr ⟨d.type, hP.demands hid d hd, ?_⟩
    cases d <;> rfl
  · exact .inl ⟨kind, note, (mem_notesIn.1 hentry).2.1, rfl⟩

/-- When no note has a slash in its name, no declaration has one. -/
theorem slash_not_mem_declaration {ws : List Diagnostic} (h : Document.Accepted p.model ws)
    (hnotes : ∀ kind, ∀ note ∈ p.model.notes kind, '/' ∉ note.name.toList)
    (hf : f ∈ (ofContext p c).files) : '/' ∉ f.declaration.name.toList := by
  obtain ⟨e, he, hfile⟩ := exists_emission hf
  have hname : '/' ∉ e.name.toList := by
    rcases name_of_mem_emissions (heldByParts_hasPlainNames h) he with
      ⟨kind, note, hnote, heq⟩ | ⟨t, ht, heq⟩
    · rw [heq]
      exact hnotes kind note hnote
    · rw [heq]
      exact ht.name
  rw [Emission.name_file hfile]
  exact not_mem_typeName (by decide) (by decide) (not_mem_compact hname)

end ContextFiles

/-! ## Where the files lie -/

namespace Generator

/-- The names of streams and notes have no slash, and no stream is called like the directory above,
with or without blanks. -/
structure PlainNames (m : Model) : Prop where
  streams : ∀ s ∈ m.streams, '/' ∉ s.name.toList ∧ Text.compact s.name ≠ ".."
  notes : ∀ kind, ∀ note ∈ m.notes kind, '/' ∉ note.name.toList

/-- The name of a context is that of a stream, or the one of the default context. -/
theorem PlainNames.context (h : PlainNames m) (hc : c ∈ Context.partition m) :
    '/' ∉ c.name.toList ∧ Text.compact c.name ≠ ".." := by
  rcases List.mem_append.1 hc with hc | hc
  · obtain ⟨s, hs, rfl⟩ := List.mem_map.1 hc
    exact h.streams s hs
  · rw [List.mem_singleton.1 hc]
    show '/' ∉ Context.defaultName.toList ∧ Text.compact Context.defaultName ≠ ".."
    decide

theorem PlainNames.project {g : Generator} (h : PlainNames g.model)
    (hcontexts : g.contexts = Context.partition g.model) {project : Context × Layout}
    (hproject : project ∈ g.projects) :
    '/' ∉ project.1.name.toList ∧ Text.compact project.1.name ≠ ".." := by
  obtain ⟨c, hc, rfl⟩ := List.mem_map.1 hproject
  rw [hcontexts] at hc
  exact h.context (List.mem_filter.1 hc).1

theorem nameStays_of_plain (hslash : '/' ∉ c.name.toList) (hup : Text.compact c.name ≠ "..")
    (mode : ProjectMode) : Layout.NameStays c mode := by
  have hproject : '/' ∉ c.projectName.toList :=
    not_mem_titled (by decide) (not_mem_compact hslash)
  constructor
  · intro _
    rw [Path.contained_of_no_slash hproject, Context.projectName, ne_eq, titled_eq_up_iff]
    exact hup
  · intro piece hpiece
    apply Path.relative_of_no_slash
    intro hmem
    have hlower := Text.not_mem_lowerFirst (by decide : '/' ∈ Text.plainSigns) hproject
    exact hlower (Text.mem_of_mem_pieces hpiece hmem)

theorem declarationStays_of_plain (h : '/' ∉ f.declaration.name.toList) : DeclarationStays f := by
  have hslash : '/' ∉ (f.declaration.name ++ ".java").toList := by simp [h]
  rw [DeclarationStays, Path.contained_of_no_slash hslash]
  intro heq
  have hlength := congrArg (fun s : String => s.toList.length) heq
  simp at hlength

/-- With an accepted namespace and plain names every file lies below the target directory. -/
theorem contained_of_plainNames {g : Generator} {ws : List Diagnostic}
    (h : Document.Accepted g.model ws) (hcontexts : g.contexts = Context.partition g.model)
    (hplain : PlainNames g.model) (hns : Report.choiceFault? g.options.ns = none)
    {project : Context × Layout} (hproject : project ∈ g.projects)
    (hf : f ∈ (g.filesOf project).files) : f.path.Contained := by
  obtain ⟨hslash, hup⟩ := hplain.project hcontexts hproject
  rw [contained_path hproject hns hf]
  exact ⟨nameStays_of_plain hslash hup _,
    declarationStays_of_plain (ContextFiles.slash_not_mem_declaration h hplain.notes hf)⟩

end Generator

end EventForge.Java
