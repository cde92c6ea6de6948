import EventForge.Proofs.Java.Demand
import EventForge.Proofs.Java.Emissions
import EventForge.Proofs.Model

/-!
# Closure of a context's files

Every named type in a field of a generated class is declared in the class, or has a file in the
schemas package, or its declaration is recorded as failed. A file is made from one of the emissions
of a note, and the names in its fields are among those that the note asks for (`demands_settled`).
What is asked for is an emission of the context too, and each emission ends as a file or as a
failure, which is never taken back (`settled_of_mem_emissions`).
-/

namespace EventForge.Java.ContextFiles

variable {p : Project} {c : Context} {fs fs' : ContextFiles}

/-- A name has a file in the schemas package, or its declaration failed. -/
def Supplies (p : Project) (fs : ContextFiles) (n : String) : Prop :=
  (∃ f ∈ fs.files, f.path.same (p.filePath .schemas n)) ∨ ∃ x ∈ fs.failed, typeName x.target = n

/-- The class made for a name has a file in its package, or there is a record that it failed. -/
def Settled (p : Project) (fs : ContextFiles) (kind : PackageKind) (name : String) : Prop :=
  (∃ f ∈ fs.files, f.path.same (p.filePath kind (typeName name))) ∨ ∃ x ∈ fs.failed, x.target = name

theorem Grows.settled (h : Grows fs fs') {kind : PackageKind} {name : String}
    (hn : fs.Settled p kind name) : fs'.Settled p kind name := by
  rcases hn with ⟨f, hf, hsame⟩ | ⟨x, hx, hname⟩
  · exact .inl ⟨f, h.files hf, hsame⟩
  · exact .inr ⟨x, h.failed hx, hname⟩

theorem Settled.supplies {name : String} (h : fs.Settled p .schemas name) :
    fs.Supplies p (typeName name) :=
  h.imp_right fun ⟨x, hx, hname⟩ => ⟨x, hx, congrArg typeName hname⟩

/-- An emission ends as a file or as a failure. -/
theorem settled_emit (p : Project) (fs : ContextFiles) (e : Emission) :
    (emit p fs e).Settled p e.kind e.name := by
  rw [emit, addClass]
  split
  · next file hfile =>
    obtain ⟨g, hg, hsame⟩ :=
      exists_same_add { fs with diagnostics := fs.diagnostics ++ (e.file p).1 } file
    rw [Emission.path_file hfile] at hsame
    exact .inl ⟨g, hg, hsame⟩
  · next fault _ => exact .inr ⟨⟨e.name, fault.message⟩, by simp, rfl⟩

theorem settled_foldl_emit {es : List Emission} {e : Emission} (he : e ∈ es) (fs : ContextFiles) :
    (es.foldl (emit p) fs).Settled p e.kind e.name := by
  obtain ⟨before, after, rfl⟩ := List.append_of_mem he
  rw [List.foldl_append, List.foldl_cons]
  exact (grows_foldl_emit p after _).settled (settled_emit p _ e)

theorem settled_of_mem_emissions {e : Emission} (he : e ∈ emissions p.model c) :
    (ofContext p c).Settled p e.kind e.name := by
  rw [ofContext_eq]
  exact settled_foldl_emit he empty

/-- Serving what was asked for supplies each of it. -/
theorem supplies_foldl_serve {ds : List Demand} {d : Demand} (hd : d ∈ ds) (fs : ContextFiles) :
    (ds.foldl (serve p) fs).Supplies p (typeName d.type.name) := by
  rw [foldl_serve_eq]
  have h := settled_foldl_emit (p := p) (List.mem_map_of_mem (f := Emission.ofDemand) hd) fs
  cases d <;> exact h.supplies

/-- What a note asks for is an emission of the context, so it is supplied. -/
theorem supplies_ofContext {entry : NoteKind × Note} {s : Schema} {n : String}
    (hentry : entry ∈ notesIn p.model c) (hs : entry.2.schemaId.bind p.model.schema? = some s)
    (hn : AsksFor (demands p.model entry.2 s) n) : (ofContext p c).Supplies p n := by
  obtain ⟨d, hd, rfl⟩ := hn
  have he : Emission.ofDemand d ∈ emissions p.model c :=
    mem_emissions.2 ⟨entry, hentry, Emission.mem_ofNote.2 (.inl ⟨s, hs, d, hd, rfl⟩)⟩
  cases d <;> exact (settled_of_mem_emissions he).supplies

/-- A class whose fields are covered mentions only what is asked for. -/
theorem mentionsOnly_asked {kind : PackageKind} {source : ClassSource} {mutability : Mutability}
    {f : SourceFile} {ds : List Demand} {t : TypeTree} (ht : source.root = some t)
    (hc : CoversFields p.model ds t) (h : (p.classFile kind source mutability).2 = .ok f) :
    f.MentionsOnly (AsksFor ds) := by
  refine (Project.mentionsOnly_classFile h).mono fun n => ?_
  rw [ClassSource.entries_eq ht]
  rintro ⟨e, he, node, hnode, hn⟩
  exact hc e he node hnode n hn

/-- A demand that is settled is made into what mentions only names that are asked for. -/
theorem mentionsOnly_ofDemand {d : Demand} {ds : List Demand} {f : SourceFile}
    (hd : Settles p.model ds d) (h : ((Emission.ofDemand d).file p).2 = .ok f) :
    f.MentionsOnly (AsksFor ds) := by
  cases d with
  | entity t description => exact mentionsOnly_asked rfl hd h
  | enum t description =>
    intro decl hdecl
    rw [← Except.ok.inj h, Project.enumFile] at hdecl
    cases hdecl

/-- Every class mentions only what is declared in it or supplied. -/
def Closed (p : Project) (fs : ContextFiles) : Prop :=
  ∀ f ∈ fs.files, f.MentionsOnly (fs.Supplies p)

theorem closed_ofContext (p : Project) (c : Context) : (ofContext p c).Closed p := by
  intro f hf
  obtain ⟨e, he, hfile⟩ := exists_emission hf
  obtain ⟨entry, hentry, he⟩ := mem_emissions.1 he
  rcases Emission.mem_ofNote.1 he with ⟨s, hs, d, hd, rfl⟩ | rfl
  · have hsettled := (demands_settled p.model entry.2 s).1 d hd
    exact (mentionsOnly_ofDemand hsettled hfile).mono fun n => supplies_ofContext hentry hs
  · cases hs : entry.2.schemaId.bind p.model.schema? with
    | none =>
      -- A note without a schema has a class without fields.
      refine (Project.mentionsOnly_classFile hfile).mono fun n => ?_
      simp [hs, ClassSource.entries]
    | some s =>
      have hcovers := (demands_settled p.model entry.2 s).2
      refine (mentionsOnly_asked ?_ hcovers hfile).mono fun n => supplies_ofContext hentry hs
      simp [hs]

/-- Every named type in a field of a generated class is declared in that class, or has a file in the
schemas package of the context, or is the name of a declaration that failed. So without failures no
class mentions a type that was not generated. -/
theorem mentioned_types_supplied (p : Project) (c : Context) {f : SourceFile}
    (hf : f ∈ (ofContext p c).files) {decl : ClassDecl} (hdecl : f.declaration = .class decl)
    {field : FieldDecl} (hfield : field ∈ decl.fields) {n : String} (hn : n ∈ field.type.names) :
    ((∃ e ∈ decl.enums, e.name = n) ∨
        (∃ g ∈ (ofContext p c).files, g.path.same (p.filePath .schemas n)) ∨
        ∃ x ∈ (ofContext p c).failed, typeName x.target = n) ∧
      ((ofContext p c).failed = [] → (∃ e ∈ decl.enums, e.name = n) ∨
        ∃ g ∈ (ofContext p c).files, g.path.same (p.filePath .schemas n)) := by
  have h := closed_ofContext p c f hf decl hdecl field hfield n hn
  refine ⟨h, fun hnone => h.imp_right fun hs => hs.resolve_right ?_⟩
  simp [hnone]

/-- One event whose schema is a list node: its tail is a list node again. -/
def listProject : Project where
  model :=
    { Model.empty with
      schemas := Dict.ofList
        [(.uniform 1, ⟨.uniform 1, "Node", "lists", none,
          .object ⟨"Node", none⟩
            [("next", .wrapper ⟨"next", none⟩ .maybe (.reference ⟨"next", none⟩ (.uniform 1)))]⟩)]
      events := Dict.ofList [(.uniform 2, ⟨.uniform 2, "Started", none, some (.uniform 1)⟩)]
      placements := Dict.ofList
        [(.uniform 3, ⟨.uniform 3, 0, .event, .uniform 2, .stream, none⟩)] }
  layout := ⟨"Lists", "main.lists", ⟨""⟩, .useExisting⟩
  indent := .tab

def listContext : Context := ⟨none, "Lists", [.uniform 3]⟩

def startedField : FieldDecl := ⟨"next", .optional (.named "Node"), none⟩

def startedFile : SourceFile where
  dir := ⟨"main/lists/events"⟩
  package := "main.lists.events"
  imports := (∅ : Imports).add "main.lists.schemas" "Node"
  declaration := .class ⟨"Started", .immutable, [], [startedField], [], []⟩
  indent := .tab

/-- The class of the event mentions the node of the list, which refers to itself and has a file. -/
theorem mentioned_types_supplied_list :
    startedFile ∈ (ofContext listProject listContext).files ∧
      (ofContext listProject listContext).failed = [] ∧ "Node" ∈ startedField.type.names ∧
      ∃ g ∈ (ofContext listProject listContext).files,
        g.path.same (listProject.filePath .schemas "Node") := by
  have hfile : startedFile ∈ (ofContext listProject listContext).files := by decide +kernel
  have hnone : (ofContext listProject listContext).failed = [] := by decide +kernel
  have hn : "Node" ∈ startedField.type.names := by decide
  have h := (mentioned_types_supplied listProject listContext hfile rfl (List.mem_singleton_self _)
    hn).2 hnone
  exact ⟨hfile, hnone, hn, h.resolve_left (by simp)⟩

end EventForge.Java.ContextFiles
