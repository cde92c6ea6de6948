import EventForge.Proofs.Java.Emissions
import EventForge.Proofs.Java.Walk

/-!
# What classes are made from

The classes of a context are made from the types of schemas and from trees that a walk over them goes
on to. So what holds of the types of all schemas and is handed down to those trees holds of every
tree that a class or enum is made from (`HeldByParts.emissions`).
-/

namespace EventForge.Java

variable {m : Model} {P : TypeTree → Prop}

/-- It holds of the types of all schemas, and with a tree of those that a walk goes on to. -/
structure HeldByParts (m : Model) (P : TypeTree → Prop) : Prop where
  schemas : ∀ {id s}, m.schema? id = some s → P s.type
  below : ∀ {t c}, P t → c ∈ walked t → P c

/-- The trees of a call all have the property. -/
def Call.Holds (P : TypeTree → Prop) : Call → Prop
  | .node _ t => P t
  | .below t => P t
  | .nodes ts => ∀ t ∈ ts, P t
  | .reference _ => True

theorem Runs.demanded {c : Call} {noteDescription : Option String} {v v' : List Uuid}
    {log : List Declared} (hP : HeldByParts m P) (h : Runs m noteDescription c v v' log)
    (hc : c.Holds P) : ∀ e ∈ log, P e.demand.type := by
  induction h with
  | object _ ih =>
    intro e he
    rcases List.mem_cons.1 he with rfl | he
    · exact hc
    · exact ih hc e he
  | other _ _ ih => exact ih hc
  | follow _ ih => exact ih trivial
  | children _ _ ih => exact ih fun c' hc' => hP.below hc hc'
  | nil | seen _ | unknown _ _ => simp
  | cons _ _ ih ih' =>
    intro e he
    rcases List.mem_append.1 he with he | he
    · exact ih (hc _ List.mem_cons_self) e he
    · exact ih' (fun t ht => hc t (List.mem_cons_of_mem _ ht)) e he
  | entered _ hs _ ih =>
    intro e he
    rcases List.mem_cons.1 he with rfl | he
    · rw [type_declarationOf]
      exact hP.schemas hs
    · exact ih (hP.schemas hs) e he

/-- All that a note asks for is made from parts of schemas. -/
theorem HeldByParts.demands (hP : HeldByParts m P) {note : Note} {id : Uuid} {schema : Schema}
    (hschema : m.schema? id = some schema) : ∀ d ∈ demands m note schema, P d.type := by
  obtain ⟨log, hrun, hlog⟩ := exists_runs m note.description schema.description schema.type
  intro d hd
  obtain ⟨e, he, rfl⟩ := List.mem_map.1 (hlog ▸ hd : d ∈ log.map Declared.demand)
  exact hrun.demanded hP (hP.schemas hschema) e he

/-- The tree that a file is made from, if there is one. -/
def Emission.root? : Emission → Option TypeTree
  | .class _ source _ => source.root
  | .enum root _ => some root

/-- All that is made for a context is made from parts of schemas. -/
theorem HeldByParts.emissions (hP : HeldByParts m P) {c : Context} {e : Emission} {t : TypeTree}
    (he : e ∈ ContextFiles.emissions m c) (ht : e.root? = some t) : P t := by
  obtain ⟨entry, -, he⟩ := ContextFiles.mem_emissions.1 he
  rcases Emission.mem_ofNote.1 he with ⟨s, hs, d, hd, rfl⟩ | rfl
  · obtain ⟨id, -, hschema⟩ := Option.bind_eq_some_iff.1 hs
    have hroot : (Emission.ofDemand d).root? = some d.type := by cases d <;> rfl
    obtain rfl := Option.some.inj (hroot.symm.trans ht)
    exact hP.demands hschema d hd
  · obtain ⟨s, hs, rfl⟩ := Option.map_eq_some_iff.1 ht
    obtain ⟨id, -, hschema⟩ := Option.bind_eq_some_iff.1 hs
    exact hP.schemas hschema

/-- A class file of a context is that of one of its emissions, whose tree is a part of a schema. -/
theorem ContextFiles.exists_source {p : Project} {c : Context} {f : SourceFile} {decl : ClassDecl}
    (hP : HeldByParts p.model P) (hf : f ∈ (ofContext p c).files)
    (hdecl : f.declaration = .class decl) :
    ∃ kind source mutability, Emission.class kind source mutability ∈ emissions p.model c ∧
      (p.classFile kind source mutability).2 = .ok f ∧
      ∀ root, source.root = some root → P root := by
  obtain ⟨e, he, hfile⟩ := exists_emission hf
  cases e with
  | «class» kind source mutability =>
    exact ⟨kind, source, mutability, he, hfile, fun _ hroot => hP.emissions he hroot⟩
  | enum root description =>
    obtain rfl := Except.ok.inj hfile
    cases hdecl

end EventForge.Java
