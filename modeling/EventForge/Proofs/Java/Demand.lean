import EventForge.Java.ClassDraft
import EventForge.Proofs.Java.Resolve
import EventForge.Proofs.Java.Walk

/-!
# A walk asks for every name

Whatever tree a walk starts from, it asks for the declaration of every generated class and enum that
the tree names, and for every class it asks for it does the same below (`Runs.settles`, by induction
on the run). The invariant: each schema that the run has visited is asked for (`Answers`), so a
reference that leads back to a visited schema needs nothing more. Asking only adds, so all of it is
said of the demands that the whole walk ends with.
-/

namespace EventForge.Java

/-- The entries that a class made from a tree has fields for. -/
def fieldTrees (t : TypeTree) : List (String × TypeTree) :=
  ClassSource.entries ⟨t.name, none, some t⟩

theorem ClassSource.entries_eq {s : ClassSource} {t : TypeTree} (h : s.root = some t) :
    s.entries = fieldTrees t := by
  obtain ⟨name, description, root⟩ := s
  cases h
  cases t <;> rfl

/-- A declaration of this name is asked for. -/
def AsksFor (ds : List Demand) (n : String) : Prop := ∃ d ∈ ds, typeName d.type.name = n

/-- Every generated class or enum that a tree names is asked for. -/
def Covers (m : Model) (ds : List Demand) (t : TypeTree) : Prop :=
  ∀ node ∈ Resolve.reached t, ∀ n, Resolve.entityOf m node = .ok (some n) → AsksFor ds n

/-- Every name in the fields of a class made from a tree is asked for. -/
def CoversFields (m : Model) (ds : List Demand) (t : TypeTree) : Prop :=
  ∀ e ∈ fieldTrees t, Covers m ds e.2

/-- What the class that a demand leads to needs is asked for; an enum needs nothing. -/
def Settles (m : Model) (ds : List Demand) : Demand → Prop
  | .entity t _ => CoversFields m ds t
  | .enum _ _ => True

/-- The schema, if the model has it, is asked for. -/
def Answers (m : Model) (ds : List Demand) (id : Uuid) : Prop :=
  ∀ s, m.schema? id = some s → AsksFor ds (typeName s.type.name)

/-- What a call has to ask for. -/
def Call.Covered (m : Model) (ds : List Demand) : Call → Prop
  | .node _ t => Covers m ds t ∧ CoversFields m ds t
  | .below t => CoversFields m ds t
  | .nodes ts => ∀ t ∈ ts, Covers m ds t
  | .reference id => Answers m ds id

variable {m : Model} {ds : List Demand}

theorem covers_reference {l : Label} {id : Uuid} (h : Answers m ds id) :
    Covers m ds (.reference l id) := by
  intro node hnode n hn
  obtain rfl : node = .reference l id := by simpa [Resolve.reached] using hnode
  cases Resolve.namesEntity_iff.2 hn with
  | reference hs => exact h _ hs

theorem covers_object {l : Label} {entries : List (String × TypeTree)}
    (h : AsksFor ds (typeName l.name)) : Covers m ds (.object l entries) := by
  intro node hnode n hn
  obtain rfl : node = .object l entries := by simpa [Resolve.reached] using hnode
  cases Resolve.namesEntity_iff.2 hn with
  | object => exact h

/-- A class looks below a node at the trees that a walk goes on to, but not into an object. -/
theorem reached_eq_cons {t : TypeTree} (ho : ∀ l entries, t ≠ .object l entries) :
    Resolve.reached t = t :: (walked t).flatMap Resolve.reached := by
  cases t with
  | object l entries => exact absurd rfl (ho l entries)
  | wrapper l kind c => cases kind <;> simp [Resolve.reached, walked]
  | mapOf l k v => simp [Resolve.reached, walked]
  | scalar l kind | reference l id | combined l kind members | enumeration l symbols
  | pattern l expression | unset l =>
    simp [Resolve.reached, walked]

/-- A node that names nothing itself is covered when the trees below it are. -/
theorem covers_of_walked {t : TypeTree} (hr : ∀ l id, t ≠ .reference l id)
    (ho : ∀ l entries, t ≠ .object l entries) (h : ∀ c ∈ walked t, Covers m ds c) :
    Covers m ds t := by
  have hnone : Resolve.entityOf m t = .ok none := by
    cases t <;> first | rfl | exact absurd rfl (ho _ _) | exact absurd rfl (hr _ _)
  intro node hnode n hn
  rw [reached_eq_cons ho, List.mem_cons, List.mem_flatMap] at hnode
  obtain rfl | ⟨c, hc, hnode⟩ := hnode
  · simp [hnone] at hn
  · exact h c hc node hnode n hn

/-- A tree that is no object is the only field of its class. -/
theorem coversFields_iff {t : TypeTree} (ho : ∀ l entries, t ≠ .object l entries) :
    CoversFields m ds t ↔ Covers m ds t := by
  have hf : fieldTrees t = [(t.name, t)] := by
    cases t <;> first | rfl | exact absurd rfl (ho _ _)
  simp only [CoversFields, hf, List.mem_singleton, forall_eq]

theorem coversFields_of_walked {t : TypeTree} (hr : ∀ l id, t ≠ .reference l id)
    (h : ∀ c ∈ walked t, Covers m ds c) : CoversFields m ds t := by
  by_cases ho : ∃ l entries, t = .object l entries
  · obtain ⟨l, entries, rfl⟩ := ho
    exact fun e he => h e.2 (List.mem_map_of_mem he)
  · simp only [not_exists] at ho
    exact (coversFields_iff ho).2 (covers_of_walked hr ho h)

theorem settles_declarationOf {root : TypeTree} (h : CoversFields m ds root)
    (description : Option String) : Settles m ds (declarationOf description root) := by
  cases root <;> first | exact h | trivial

/-- Let all that a run asks for be among the demands, and let the schemas visited before it be asked
for. Then so are those visited after it, every class it asks for is settled, and its call is
covered. -/
theorem Runs.settles {noteDescription : Option String} {c : Call} {v v' : List Uuid}
    {log : List Declared} (h : Runs m noteDescription c v v' log)
    (hlog : ∀ e ∈ log, e.demand ∈ ds) (hv : ∀ id ∈ v, Answers m ds id) :
    (∀ id ∈ v', Answers m ds id) ∧ (∀ e ∈ log, Settles m ds e.demand) ∧ c.Covered m ds := by
  induction h with
  | object _ ih =>
    obtain ⟨hasked, hlog⟩ := List.forall_mem_cons.1 hlog
    obtain ⟨hv', hsettled, hfields⟩ := ih hlog hv
    exact ⟨hv', List.forall_mem_cons.2 ⟨hfields, hsettled⟩, covers_object ⟨_, hasked, rfl⟩, hfields⟩
  | other ht _ ih =>
    obtain ⟨hv', hsettled, hfields⟩ := ih hlog hv
    exact ⟨hv', hsettled, (coversFields_iff ht).1 hfields, hfields⟩
  | follow _ ih =>
    obtain ⟨hv', hsettled, hanswered⟩ := ih hlog hv
    exact ⟨hv', hsettled, (coversFields_iff (by simp)).2 (covers_reference hanswered)⟩
  | children ht _ ih =>
    obtain ⟨hv', hsettled, hcovered⟩ := ih hlog hv
    exact ⟨hv', hsettled, coversFields_of_walked ht hcovered⟩
  | nil => exact ⟨hv, by simp, by simp [Call.Covered]⟩
  | cons _ _ ih ih' =>
    obtain ⟨hlog, hlog'⟩ := List.forall_mem_append.1 hlog
    obtain ⟨hv', hsettled, hcovered, -⟩ := ih hlog hv
    obtain ⟨hv'', hsettled', hcovered'⟩ := ih' hlog' hv'
    exact ⟨hv'', List.forall_mem_append.2 ⟨hsettled, hsettled'⟩,
      List.forall_mem_cons.2 ⟨hcovered, hcovered'⟩⟩
  | seen hid => exact ⟨hv, by simp, hv _ hid⟩
  | @unknown id _ _ hs =>
    have hanswered : Answers m ds id := by simp [Answers, hs]
    exact ⟨List.forall_mem_append.2 ⟨hv, by simpa using hanswered⟩, by simp, hanswered⟩
  | @entered id s v v' log _ hs _ ih =>
    obtain ⟨hasked, hlog⟩ := List.forall_mem_cons.1 hlog
    -- The schema is asked for before the run goes on below its root.
    have hanswered : Answers m ds id := by
      intro s' hs'
      obtain rfl : s = s' := Option.some.inj (hs ▸ hs')
      exact ⟨_, hasked, by rw [type_declarationOf]⟩
    obtain ⟨hv', hsettled, hfields⟩ :=
      ih hlog (List.forall_mem_append.2 ⟨hv, by simpa using hanswered⟩)
    exact ⟨hv', List.forall_mem_cons.2 ⟨settles_declarationOf hfields _, hsettled⟩, hanswered⟩

/-- What a note asks for is settled by what it asks for, and so are the fields of the note's own
class. -/
theorem demands_settled (m : Model) (note : Note) (schema : Schema) :
    (∀ d ∈ demands m note schema, Settles m (demands m note schema) d) ∧
      CoversFields m (demands m note schema) schema.type := by
  obtain ⟨log, hrun, hlog⟩ := exists_runs m note.description schema.description schema.type
  have hlog : demands m note schema = log.map Declared.demand := hlog
  rw [hlog]
  obtain ⟨-, hsettled, -, hfields⟩ :=
    hrun.settles (fun e he => List.mem_map_of_mem he) (by simp)
  exact ⟨List.forall_mem_map.2 hsettled, hfields⟩

end EventForge.Java
