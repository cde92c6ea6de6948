import EventForge.Proofs.Java.Closure
import EventForge.Proofs.Java.Walk

/-!
# A walk enters what can be reached

A walk over schemas visits exactly the schemas that can be reached by references, and asks once for
each of them that the model has. That it misses none is the usual argument for a depth-first search:
at the end of a call all schemas visited during the call have their references visited
(`Runs.closed`); those visited before it may still wait for the calls around it.
-/

namespace EventForge.Java

/-- A reference to the schema is in the tree, through nodes that a walk goes on to. -/
inductive Refers : TypeTree → Uuid → Prop where
  | here {l : Label} {id : Uuid} : Refers (.reference l id) id
  | inside {t c : TypeTree} {id : Uuid} (hc : c ∈ walked t) (h : Refers c id) : Refers t id

/-- The schema can be reached from the tree in one or more steps, each from a tree to the schema
that it refers to. -/
inductive Reaches (m : Model) (t : TypeTree) : Uuid → Prop where
  | direct {id : Uuid} (h : Refers t id) : Reaches m t id
  | onward {id id' : Uuid} {s : Schema} (h : Reaches m t id) (hs : m.schema? id = some s)
      (h' : Refers s.type id') : Reaches m t id'

variable {m : Model} {noteDescription : Option String}

theorem refers_reference_iff {l : Label} {id id' : Uuid} :
    Refers (.reference l id) id' ↔ id' = id := by
  constructor
  · intro h
    cases h with
    | here => rfl
    | inside hc _ => simp [walked] at hc
  · rintro rfl
    exact .here

theorem refers_iff_inside {t : TypeTree} {id : Uuid} (ht : ∀ l id, t ≠ .reference l id) :
    Refers t id ↔ ∃ c ∈ walked t, Refers c id := by
  constructor
  · intro h
    cases h with
    | here => exact absurd rfl (ht _ _)
    | inside hc h => exact ⟨_, hc, h⟩
  · rintro ⟨c, hc, h⟩
    exact .inside hc h

/-- The schemas that the trees of a call refer to, or the one that it is about. -/
def Call.Refers : Call → Uuid → Prop
  | .node _ t, id => Java.Refers t id
  | .below t, id => Java.Refers t id
  | .nodes ts, id => ∃ t ∈ ts, Java.Refers t id
  | .reference id', id => id = id'

section Runs

variable {c : Call} {v v' : List Uuid} {log : List Declared}

/-- Whatever holds of the schemas that a call refers to, and is passed on by references, holds of
all schemas that its run visits anew. -/
theorem Runs.sound {P : Uuid → Prop}
    (hP : ∀ id s, P id → m.schema? id = some s → ∀ id', Refers s.type id' → P id')
    (h : Runs m noteDescription c v v' log) (hc : ∀ id, c.Refers id → P id) :
    ∀ id ∈ v', id ∈ v ∨ P id := by
  induction h with
  | object _ ih => exact ih hc
  | other _ _ ih => exact ih hc
  | follow _ ih => exact ih fun id hid => hc id (refers_reference_iff.2 hid)
  | children ht _ ih => exact ih fun id hid => hc id ((refers_iff_inside ht).2 hid)
  | nil => exact fun id hid => .inl hid
  | cons _ _ ih ih' =>
    intro id hid
    rcases ih' (fun id ⟨t, ht, h⟩ => hc id ⟨t, List.mem_cons_of_mem _ ht, h⟩) id hid with hid | hid
    · exact ih (fun id h => hc id ⟨_, List.mem_cons_self, h⟩) id hid
    · exact .inr hid
  | seen _ => exact fun id hid => .inl hid
  | unknown _ _ =>
    intro id hid
    rcases List.mem_append.1 hid with hid | hid
    · exact .inl hid
    · exact .inr (hc id (List.mem_singleton.1 hid))
  | entered _ hs _ ih =>
    intro id hid
    rcases ih (hP _ _ (hc _ rfl) hs) id hid with hid | hid
    · rcases List.mem_append.1 hid with hid | hid
      · exact .inl hid
      · exact .inr (hc id (List.mem_singleton.1 hid))
    · exact .inr hid

/-- At the end of a call everything that it refers to is visited, and so is everything that the
schemas visited during the call refer to. -/
theorem Runs.closed (h : Runs m noteDescription c v v' log) :
    (∀ id, c.Refers id → id ∈ v') ∧
      ∀ id ∈ v', id ∈ v ∨ ∀ s, m.schema? id = some s → ∀ id', Refers s.type id' → id' ∈ v' := by
  induction h with
  | object _ ih => exact ih
  | other _ _ ih => exact ih
  | follow _ ih => exact ⟨fun id hid => ih.1 id (refers_reference_iff.1 hid), ih.2⟩
  | children ht _ ih => exact ⟨fun id hid => ih.1 id ((refers_iff_inside ht).1 hid), ih.2⟩
  | nil => exact ⟨by simp [Call.Refers], fun id hid => .inl hid⟩
  | cons _ h' ih ih' =>
    refine ⟨?_, fun id hid => ?_⟩
    · rintro id ⟨t, ht, hid⟩
      rcases List.mem_cons.1 ht with rfl | ht
      · exact h'.visited_subset (ih.1 id hid)
      · exact ih'.1 id ⟨t, ht, hid⟩
    · rcases ih'.2 id hid with hid | hid
      · refine (ih.2 id hid).imp_right fun hrefs s hs id' hid' => ?_
        exact h'.visited_subset (hrefs s hs id' hid')
      · exact .inr hid
  | seen hid => exact ⟨by rintro id rfl; exact hid, fun id hid => .inl hid⟩
  | unknown _ hs =>
    refine ⟨by rintro id rfl; simp, fun id hid => ?_⟩
    rcases List.mem_append.1 hid with hid | hid
    · exact .inl hid
    · refine .inr fun s hs' => ?_
      rw [List.mem_singleton.1 hid, hs] at hs'
      cases hs'
  | entered _ hs h ih =>
    refine ⟨?_, fun id hid => ?_⟩
    · rintro id rfl
      exact h.visited_subset (by simp)
    · rcases ih.2 id hid with hid | hid
      · rcases List.mem_append.1 hid with hid | hid
        · exact .inl hid
        · -- The schema that is entered by this call: its root is what the call goes on with.
          refine .inr fun s hs' id' hid' => ih.1 id' ?_
          rw [List.mem_singleton.1 hid, hs] at hs'
          cases hs'
          exact hid'
      · exact .inr hid

/-- What a reference asks for is the declaration of the schema that it leads to. -/
theorem Runs.declarations (h : Runs m noteDescription c v v' log) :
    ∀ e ∈ log, ∀ id, e.schema = some id →
      ∃ s, m.schema? id = some s ∧ e.demand = declarationOf noteDescription s.type := by
  induction h with
  | object _ ih =>
    intro e he id hid
    rcases List.mem_cons.1 he with rfl | he
    · cases hid
    · exact ih e he id hid
  | other _ _ ih => exact ih
  | follow _ ih => exact ih
  | children _ _ ih => exact ih
  | cons _ _ ih ih' =>
    intro e he
    rcases List.mem_append.1 he with he | he
    · exact ih e he
    · exact ih' e he
  | nil | seen _ | unknown _ _ => simp
  | entered _ hs _ ih =>
    intro e he id hid
    rcases List.mem_cons.1 he with rfl | he
    · cases hid
      exact ⟨_, hs, rfl⟩
    · exact ih e he id hid

end Runs

/-- The schemas that a run from no schema visits are those that can be reached. -/
theorem Runs.mem_visited_iff {t : TypeTree} {description : Option String} {v : List Uuid}
    {log : List Declared} (h : Runs m noteDescription (.node description t) [] v log) {id : Uuid} :
    id ∈ v ↔ Reaches m t id := by
  constructor
  · intro hid
    refine (h.sound (fun id s hid hs id' h' => ?_) (fun id hid => ?_) id hid).resolve_left (by simp)
    · exact Reaches.onward hid hs h'
    · exact Reaches.direct hid
  · intro hid
    induction hid with
    | direct hid => exact h.closed.1 _ hid
    | onward _ hs h' ih => exact (h.closed.2 _ ih).resolve_left (by simp) _ hs _ h'

/-- The walk over any tree of any model is the one finite run of the recursion. In it, references
ask exactly once for each schema of the model that can be reached from the tree: for an enum when
its root is an enum, for a class otherwise. Each of these ends as a file or as a recorded failure,
whatever was generated before. -/
theorem walk_declares_reachable (m : Model) (noteDescription description : Option String)
    (t : TypeTree) :
    ∃ log : List Declared,
      Runs m noteDescription (.node description t) []
        (Walk.ofTree m noteDescription description t).visited log ∧
      (∀ v log', Runs m noteDescription (.node description t) [] v log' → log' = log) ∧
      (Walk.ofTree m noteDescription description t).demands = log.map Declared.demand ∧
      (schemasOf log).Nodup ∧
      (∀ id, id ∈ schemasOf log ↔ (m.schema? id).isSome ∧ Reaches m t id) ∧
      ∀ e ∈ log, ∀ id, e.schema = some id → ∃ s, m.schema? id = some s ∧
        e.demand = declarationOf noteDescription s.type ∧
        ∀ (p : Project) (fs : ContextFiles),
          ((log.map Declared.demand).foldl (ContextFiles.serve p) fs).Supplies p
            (typeName s.type.name) := by
  obtain ⟨log, hrun, hdemands⟩ := exists_runs m noteDescription description t
  obtain ⟨more, hmore, hnodup, hlog⟩ := hrun.visited
  rw [List.nil_append] at hmore
  subst hmore
  refine ⟨log, hrun, fun v log' h => (h.det hrun).2, hdemands, ?_, fun id => ?_, ?_⟩
  · rw [hlog]
    exact (hnodup List.nodup_nil).filter _
  · rw [hlog, List.mem_filter, hrun.mem_visited_iff, and_comm]
  · intro e he id hid
    obtain ⟨s, hs, hdemand⟩ := hrun.declarations e he id hid
    refine ⟨s, hs, hdemand, fun p fs => ?_⟩
    have hmem : e.demand ∈ log.map Declared.demand := List.mem_map_of_mem he
    have hname : typeName e.demand.type.name = typeName s.type.name := by
      rw [hdemand, type_declarationOf]
    exact hname ▸ ContextFiles.supplies_foldl_serve hmem fs

end EventForge.Java
