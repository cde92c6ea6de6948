import EventForge.Java.Demand
import EventForge.Proofs.Dict

/-!
# The walk over schemas as a recursion

The walk over schemas is bounded by the number of schemas. Here it is described without a bound, as
the finite runs of the recursion (`Runs`), and the bounded walk is shown to be its only run
(`node_performs`, `Runs.det`): each step into a schema takes one schema from those not yet visited,
so the number of steps that a walk is given is never used up. What is to be known of a walk follows
by induction on its run.
-/

namespace EventForge.Java

/-- The tree whose class or enum is asked for. -/
def Demand.type : Demand → TypeTree
  | .entity t _ => t
  | .enum t _ => t

/-- The trees directly below a node that a walk goes on to. -/
def walked : TypeTree → List TypeTree
  | .object _ entries => entries.map Prod.snd
  | .wrapper _ .not _ => []
  | .wrapper _ _ child => [child]
  | .mapOf _ key value => [key, value]
  | _ => []

/-- What a reference asks for when it leads to a schema with this root. -/
def declarationOf (description : Option String) : TypeTree → Demand
  | .enumeration l symbols => .enum (.enumeration l symbols) description
  | root => .entity root description

theorem type_declarationOf (description : Option String) (root : TypeTree) :
    (declarationOf description root).type = root := by
  cases root <;> rfl

/-- A demand of a walk, with the schema when a reference has led to it. -/
structure Declared where
  schema : Option Uuid
  demand : Demand

/-- The schemas that references have led to, in order. -/
def schemasOf (log : List Declared) : List Uuid := log.filterMap Declared.schema

/-- The calls of the recursion. -/
inductive Call where
  | node (description : Option String) (t : TypeTree)
  | below (t : TypeTree)
  | nodes (ts : List TypeTree)
  | reference (id : Uuid)

/-- The finite runs of the recursion: from the schemas visited before a call to those visited after
it, with what the call asked for. -/
inductive Runs (m : Model) (noteDescription : Option String) :
    Call → List Uuid → List Uuid → List Declared → Prop where
  | object {l : Label} {entries : List (String × TypeTree)} {description : Option String}
      {v v' : List Uuid} {log : List Declared}
      (h : Runs m noteDescription (.below (.object l entries)) v v' log) :
      Runs m noteDescription (.node description (.object l entries)) v v'
        (⟨none, .entity (.object l entries) description⟩ :: log)
  | other {t : TypeTree} {description : Option String} {v v' : List Uuid} {log : List Declared}
      (ht : ∀ l entries, t ≠ .object l entries) (h : Runs m noteDescription (.below t) v v' log) :
      Runs m noteDescription (.node description t) v v' log
  | follow {l : Label} {id : Uuid} {v v' : List Uuid} {log : List Declared}
      (h : Runs m noteDescription (.reference id) v v' log) :
      Runs m noteDescription (.below (.reference l id)) v v' log
  | children {t : TypeTree} {v v' : List Uuid} {log : List Declared}
      (ht : ∀ l id, t ≠ .reference l id) (h : Runs m noteDescription (.nodes (walked t)) v v' log) :
      Runs m noteDescription (.below t) v v' log
  | nil {v : List Uuid} : Runs m noteDescription (.nodes []) v v []
  | cons {t : TypeTree} {ts : List TypeTree} {v v' v'' : List Uuid} {log log' : List Declared}
      (h : Runs m noteDescription (.node none t) v v' log)
      (h' : Runs m noteDescription (.nodes ts) v' v'' log') :
      Runs m noteDescription (.nodes (t :: ts)) v v'' (log ++ log')
  | seen {id : Uuid} {v : List Uuid} (hid : id ∈ v) :
      Runs m noteDescription (.reference id) v v []
  | unknown {id : Uuid} {v : List Uuid} (hid : id ∉ v) (hs : m.schema? id = none) :
      Runs m noteDescription (.reference id) v (v ++ [id]) []
  | entered {id : Uuid} {s : Schema} {v v' : List Uuid} {log : List Declared} (hid : id ∉ v)
      (hs : m.schema? id = some s)
      (h : Runs m noteDescription (.below s.type) (v ++ [id]) v' log) :
      Runs m noteDescription (.reference id) v v'
        (⟨some id, declarationOf noteDescription s.type⟩ :: log)

variable {m : Model} {noteDescription : Option String}

section Runs

variable {c : Call} {v v' v₁ v₂ : List Uuid} {log log₁ log₂ : List Declared}

/-- A call has one run only. -/
theorem Runs.det (h₁ : Runs m noteDescription c v v₁ log₁)
    (h₂ : Runs m noteDescription c v v₂ log₂) : v₁ = v₂ ∧ log₁ = log₂ := by
  induction h₁ generalizing v₂ log₂ with
  | object _ ih =>
    cases h₂ with
    | object h => exact ⟨(ih h).1, by rw [(ih h).2]⟩
    | other ht _ => exact absurd rfl (ht _ _)
  | other ht _ ih =>
    cases h₂ with
    | object _ => exact absurd rfl (ht _ _)
    | other _ h => exact ih h
  | follow _ ih =>
    cases h₂ with
    | follow h => exact ih h
    | children ht _ => exact absurd rfl (ht _ _)
  | children ht _ ih =>
    cases h₂ with
    | follow _ => exact absurd rfl (ht _ _)
    | children _ h => exact ih h
  | nil =>
    cases h₂
    exact ⟨rfl, rfl⟩
  | cons _ _ ih ih' =>
    cases h₂ with
    | cons h h' =>
      obtain ⟨rfl, rfl⟩ := ih h
      obtain ⟨rfl, rfl⟩ := ih' h'
      exact ⟨rfl, rfl⟩
  | seen hid =>
    cases h₂ with
    | seen _ => exact ⟨rfl, rfl⟩
    | unknown hid' _ | entered hid' _ _ => exact absurd hid hid'
  | unknown hid hs =>
    cases h₂ with
    | seen hid' => exact absurd hid' hid
    | unknown _ _ => exact ⟨rfl, rfl⟩
    | entered _ hs' _ =>
      rw [hs] at hs'
      cases hs'
  | entered hid hs _ ih =>
    cases h₂ with
    | seen hid' => exact absurd hid' hid
    | unknown _ hs' =>
      rw [hs] at hs'
      cases hs'
    | entered _ hs' h =>
      rw [hs] at hs'
      cases hs'
      exact ⟨(ih h).1, by rw [(ih h).2]⟩

/-- A run visits more schemas, none of them twice, and asks for those that the model has. -/
theorem Runs.visited (h : Runs m noteDescription c v v' log) :
    ∃ more, v' = v ++ more ∧ (v.Nodup → v'.Nodup) ∧
      schemasOf log = more.filter fun id => (m.schema? id).isSome := by
  induction h with
  | object _ ih => exact ih
  | other _ _ ih => exact ih
  | follow _ ih => exact ih
  | children _ _ ih => exact ih
  | nil => exact ⟨[], by simp, id, rfl⟩
  | cons _ _ ih ih' =>
    obtain ⟨more, rfl, hnodup, hlog⟩ := ih
    obtain ⟨more', rfl, hnodup', hlog'⟩ := ih'
    refine ⟨more ++ more', by simp, fun hv => hnodup' (hnodup hv), ?_⟩
    rw [schemasOf, List.filterMap_append, List.filter_append]
    exact congrArg₂ (· ++ ·) hlog hlog'
  | seen _ => exact ⟨[], by simp, id, rfl⟩
  | @unknown id _ hid hs =>
    refine ⟨[id], rfl, fun hv => ?_, by simp [schemasOf, hs]⟩
    exact List.nodup_append.2 ⟨hv, by simp, by grind⟩
  | @entered id s v v' log hid hs _ ih =>
    obtain ⟨more, rfl, hnodup, hlog⟩ := ih
    refine ⟨id :: more, by simp, fun hv => hnodup ?_, ?_⟩
    · exact List.nodup_append.2 ⟨hv, by simp, by grind⟩
    · rw [List.filter_cons_of_pos (by simp [hs]), ← hlog]
      rfl

theorem Runs.visited_subset (h : Runs m noteDescription c v v' log) : v ⊆ v' := by
  obtain ⟨more, rfl, -⟩ := h.visited
  exact List.subset_append_left _ _

end Runs

namespace Walk

/-- The schemas that were not visited yet. -/
def remaining (m : Model) (w : Walk) : List Uuid := m.schemas.keys.filter fun id => id ∉ w.visited

/-- The second walk is where a run of the call leads to from the first. -/
def Performs (m : Model) (noteDescription : Option String) (c : Call) (w w' : Walk) : Prop :=
  ∃ log, Runs m noteDescription c w.visited w'.visited log ∧
    w'.demands = w.demands ++ log.map Declared.demand

/-- There are steps for all schemas that were not visited. -/
def Enough (m : Model) (steps : Nat) (w : Walk) : Prop := (w.remaining m).length < steps

/-- Following a reference is a run of the recursion. -/
def Simulates (m : Model) (noteDescription : Option String) (steps : Nat)
    (follow : Uuid → Walk → Walk) : Prop :=
  ∀ id w, Enough m steps w → Performs m noteDescription (.reference id) w (follow id w)

variable {w w' w'' : Walk}

theorem remaining_eq_filter (h : w.visited ⊆ w'.visited) :
    w'.remaining m = (w.remaining m).filter fun id => id ∉ w'.visited := by
  rw [remaining, remaining, List.filter_filter]
  refine List.filter_congr fun id _ => ?_
  by_cases hid : id ∈ w.visited
  · simp [hid, h hid]
  · simp [hid]

theorem remaining_le (h : w.visited ⊆ w'.visited) :
    (w'.remaining m).length ≤ (w.remaining m).length := by
  rw [remaining_eq_filter h]
  exact List.length_filter_le _ _

/-- Visiting a schema of the model leaves fewer to visit. -/
theorem remaining_lt {id : Uuid} {s : Schema} (h : w.visited ⊆ w'.visited)
    (hs : m.schema? id = some s) (hid : id ∉ w.visited) (hid' : id ∈ w'.visited) :
    (w'.remaining m).length < (w.remaining m).length := by
  rw [remaining_eq_filter h]
  refine List.length_filter_lt_length_iff_exists.2 ⟨id, ?_, by simp [hid']⟩
  exact List.mem_filter.2 ⟨Dict.mem_keys_of_get? hs, by simp [hid]⟩

theorem Performs.enough {steps : Nat} {c : Call} (h : Performs m noteDescription c w w')
    (hw : Enough m steps w) : Enough m steps w' := by
  obtain ⟨log, hrun, -⟩ := h
  exact Nat.lt_of_le_of_lt (remaining_le hrun.visited_subset) hw

theorem Performs.nil (w : Walk) : Performs m noteDescription (.nodes []) w w :=
  ⟨[], .nil, by simp⟩

theorem Performs.cons {t : TypeTree} {ts : List TypeTree}
    (h : Performs m noteDescription (.node none t) w w')
    (h' : Performs m noteDescription (.nodes ts) w' w'') :
    Performs m noteDescription (.nodes (t :: ts)) w w'' := by
  obtain ⟨log, hrun, hlog⟩ := h
  obtain ⟨log', hrun', hlog'⟩ := h'
  exact ⟨log ++ log', .cons hrun hrun', by simp [hlog', hlog]⟩

theorem Performs.children {t : TypeTree} (ht : ∀ l id, t ≠ .reference l id)
    (h : Performs m noteDescription (.nodes (walked t)) w w') :
    Performs m noteDescription (.below t) w w' := by
  obtain ⟨log, hrun, hlog⟩ := h
  exact ⟨log, .children ht hrun, hlog⟩

theorem Performs.follow {l : Label} {id : Uuid}
    (h : Performs m noteDescription (.reference id) w w') :
    Performs m noteDescription (.below (.reference l id)) w w' := by
  obtain ⟨log, hrun, hlog⟩ := h
  exact ⟨log, .follow hrun, hlog⟩

theorem Performs.other {t : TypeTree} (ht : ∀ l entries, t ≠ .object l entries)
    (h : Performs m noteDescription (.below t) w w') (description : Option String) :
    Performs m noteDescription (.node description t) w w' := by
  obtain ⟨log, hrun, hlog⟩ := h
  exact ⟨log, .other ht hrun, hlog⟩

theorem Performs.object {l : Label} {entries : List (String × TypeTree)}
    {description : Option String}
    (h : Performs m noteDescription (.below (.object l entries))
      (w.ask (.entity (.object l entries) description)) w') :
    Performs m noteDescription (.node description (.object l entries)) w w' := by
  obtain ⟨log, hrun, hlog⟩ := h
  exact ⟨_, .object hrun, by simpa [ask] using hlog⟩

theorem Performs.entered {id : Uuid} {s : Schema} (hid : id ∉ w.visited)
    (hs : m.schema? id = some s)
    (h : Performs m noteDescription (.below s.type)
      (({ w with visited := w.visited ++ [id] } : Walk).ask
        (declarationOf noteDescription s.type)) w') :
    Performs m noteDescription (.reference id) w w' := by
  obtain ⟨log, hrun, hlog⟩ := h
  exact ⟨_, .entered hid hs hrun, by simpa [ask] using hlog⟩

/-- A node that the walk does not look into. -/
theorem Performs.leaf {t : TypeTree} (hr : ∀ l id, t ≠ .reference l id) (ht : walked t = [])
    (w : Walk) : Performs m noteDescription (.below t) w w :=
  .children hr (ht ▸ .nil w)

section Node

variable {steps : Nat} {follow : Uuid → Walk → Walk}

mutual

/-- The bounded walk over a tree is a run of the recursion. -/
theorem node_performs (hf : Simulates m noteDescription steps follow) :
    ∀ (t : TypeTree) (description : Option String) (w : Walk), Enough m steps w →
      Performs m noteDescription (.node description t) w (node follow description w t)
  | .object l entries, description, w, hw => by
    rw [node]
    exact .object (.children (by simp) (nodesOfEntries_performs hf entries _ hw))
  | .reference l id, description, w, hw => by
    rw [node]
    exact .other (by simp) (.follow (hf id w hw)) description
  | .wrapper l kind c, description, w, hw => by
    rw [node]
    refine .other (by simp) (.children (by simp) ?_) description
    split
    · next hk =>
      subst hk
      exact .nil w
    · next hk =>
      have hwalked : walked (.wrapper l kind c) = [c] := by
        cases kind <;> first | rfl | exact absurd rfl hk
      rw [hwalked]
      exact .cons (node_performs hf c none w hw) (.nil _)
  | .mapOf l k v, description, w, hw => by
    rw [node]
    have hk := node_performs hf k none w hw
    have hv := node_performs hf v none _ (hk.enough hw)
    exact .other (by simp) (.children (by simp) (.cons hk (.cons hv (.nil _)))) description
  | .scalar l kind, description, w, _ => .other (by simp) (.leaf (by simp) rfl w) description
  | .combined l kind members, description, w, _ =>
    .other (by simp) (.leaf (by simp) rfl w) description
  | .enumeration l symbols, description, w, _ =>
    .other (by simp) (.leaf (by simp) rfl w) description
  | .pattern l expression, description, w, _ =>
    .other (by simp) (.leaf (by simp) rfl w) description
  | .unset l, description, w, _ => .other (by simp) (.leaf (by simp) rfl w) description

theorem nodesOfEntries_performs (hf : Simulates m noteDescription steps follow) :
    ∀ (entries : List (String × TypeTree)) (w : Walk), Enough m steps w →
      Performs m noteDescription (.nodes (entries.map Prod.snd)) w
        (nodesOfEntries follow w entries)
  | [], w, _ => .nil w
  | (name, t) :: rest, w, hw => by
    rw [nodesOfEntries]
    have ht := node_performs hf t none w hw
    exact .cons ht (nodesOfEntries_performs hf rest _ (ht.enough hw))

end

/-- Below the root of a schema the bounded walk goes on as the recursion does. -/
theorem enter_performs (hf : Simulates m noteDescription steps follow) (root : TypeTree)
    (hw : Enough m steps w) :
    Performs m noteDescription (.below root) (w.ask (declarationOf noteDescription root))
      (enter follow noteDescription w root) := by
  have hask : Enough m steps (w.ask (declarationOf noteDescription root)) := hw
  cases root with
  | enumeration l symbols => exact .leaf (by simp) rfl _
  | reference l id => exact .follow (hf id _ hask)
  | object l entries => exact .children (by simp) (nodesOfEntries_performs hf entries _ hask)
  | scalar l kind | wrapper l kind c | mapOf l k v | combined l kind members
  | pattern l expression | unset l =>
    obtain ⟨log, hrun, hlog⟩ := node_performs hf _ none _ hask
    cases hrun with
    | other _ hrun => exact ⟨log, hrun, hlog⟩

end Node

/-- With a step for each schema that was not visited, following references is a run of the
recursion: the steps are never used up. -/
theorem follow_simulates (m : Model) (noteDescription : Option String) (steps : Nat) :
    Simulates m noteDescription steps (follow m noteDescription steps) := by
  induction steps with
  | zero => exact fun id w hw => absurd hw (Nat.not_lt_zero _)
  | succ steps ih =>
    intro id w hw
    rw [follow]
    split
    · next hid => exact ⟨[], .seen hid, by simp⟩
    · next hid =>
      cases hs : m.schema? id with
      | none => exact ⟨[], .unknown hid hs, by simp⟩
      | some s =>
        refine .entered hid hs (enter_performs ih s.type ?_)
        have hvisited : id ∈ ({ w with visited := w.visited ++ [id] } : Walk).visited := by simp
        have hlt := remaining_lt (List.subset_append_left _ _) hs hid hvisited
        exact Nat.lt_of_lt_of_le hlt (Nat.le_of_lt_succ hw)

/-- The walk over a tree that has visited nothing before. -/
def ofTree (m : Model) (noteDescription description : Option String) (t : TypeTree) : Walk :=
  node (follow m noteDescription (m.schemas.size + 1)) description ⟨[], []⟩ t

end Walk

/-- The walk over a tree is a run of the recursion. -/
theorem exists_runs (m : Model) (noteDescription description : Option String) (t : TypeTree) :
    ∃ log, Runs m noteDescription (.node description t) []
        (Walk.ofTree m noteDescription description t).visited log ∧
      (Walk.ofTree m noteDescription description t).demands = log.map Declared.demand := by
  have hbound : Walk.Enough m (m.schemas.size + 1) ⟨[], []⟩ := by
    refine Nat.lt_succ_of_le (Nat.le_trans (List.length_filter_le _ _) ?_)
    simp [Dict.keys, Dict.size]
  exact Walk.node_performs (Walk.follow_simulates m noteDescription _) t description ⟨[], []⟩ hbound

end EventForge.Java
