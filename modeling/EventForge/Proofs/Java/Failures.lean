import EventForge.Proofs.Java.Offenders
import EventForge.Proofs.Java.Parts
import EventForge.Proofs.Lint

/-!
# Failures are foreseen

A class is given up only for a reference to a schema that is not in the model. The trees that
classes are made from are the types of schemas and parts of them, so each such reference is one that
the lint finds when it looks over the whole type of a schema (`failed_foreseen`).
-/

namespace EventForge.Java

open TypeTree

namespace Resolve

/-- The tree has a reference to this identifier, which is that of no schema. -/
def Dangles (m : Model) (t : TypeTree) (id : Uuid) : Prop :=
  id ∈ references t ∧ m.schema? id = none

/-- The nodes that are looked into have only references of the tree. -/
theorem references_subset_of_within {node t : TypeTree} (h : Within node t) :
    references node ⊆ references t := by
  induction h with
  | here => exact List.Subset.refl _
  | child _ _ ih => exact fun id hid => by simpa [references] using ih hid
  | key _ ih => exact fun id hid => by simp [references, ih hid]
  | value _ ih => exact fun id hid => by simp [references, ih hid]

end Resolve

/-- An entry that costs its class refers to an unknown schema. -/
theorem dangles_of_costsClass {m : Model} {e : String × TypeTree} {id : Uuid}
    (h : CostsClass m e id) : Resolve.Dangles m e.2 id := by
  obtain ⟨l, hnode⟩ := h
  have hoffends : Resolve.offends m (.reference l id) = true := List.find?_some hnode
  have hwithin : Resolve.Within (.reference l id) e.2 :=
    Resolve.mem_reached_iff.1 (List.mem_of_find?_eq_some hnode)
  refine ⟨Resolve.references_subset_of_within hwithin (by simp [references]), ?_⟩
  simpa [Resolve.offends, Resolve.isDangling, Resolve.isUntyped, TypeTree.shape] using hoffends

theorem references_subset_of_mem {entries : List (String × TypeTree)} {entry : String × TypeTree}
    (h : entry ∈ entries) : references entry.2 ⊆ referencesOfEntries entries := by
  induction entries with
  | nil => cases h
  | cons e entries ih =>
    intro id hid
    rw [referencesOfEntries, List.mem_append]
    rcases List.mem_cons.1 h with rfl | h
    · exact .inl hid
    · exact .inr (ih h hid)

/-- The fields of a class have only references of the tree that it is made from. -/
theorem ClassSource.references_subset {s : ClassSource} {entry : String × TypeTree}
    (h : entry ∈ s.entries) : ∃ root, s.root = some root ∧ references entry.2 ⊆ references root := by
  obtain ⟨name, description, root⟩ := s
  cases root with
  | none => cases h
  | some root =>
    refine ⟨root, rfl, ?_⟩
    cases root with
    | object l entries =>
      rw [references]
      exact references_subset_of_mem h
    | _ =>
      obtain rfl := List.mem_singleton.1 h
      exact fun _ hid => hid

theorem Project.dangles_of_classFile {p : Project} {kind : PackageKind} {source : ClassSource}
    {mutability : Mutability} {fault : ResolveFault}
    (h : (p.classFile kind source mutability).2 = .error fault) :
    ∃ root id, source.root = some root ∧ fault = .unknownSchema id ∧
      Resolve.Dangles p.model root id := by
  have hfirst := (fault?_classFile p kind source mutability).symm.trans (fault?_eq_some.2 h)
  obtain ⟨entry, hentry, hfatal⟩ := List.exists_of_findSome?_eq_some hfirst
  obtain ⟨id, hcosts, hfault⟩ := ClassDraft.fatal?_eq_some.1 hfatal
  obtain ⟨hmem, hnone⟩ := dangles_of_costsClass hcosts
  obtain ⟨root, hroot, hsub⟩ := ClassSource.references_subset hentry
  exact ⟨root, id, hroot, hfault, hsub hmem, hnone⟩

/-- All references of the tree are references of the type of one schema. -/
def OfSchema (m : Model) (t : TypeTree) : Prop :=
  ∃ s ∈ m.schemas.values, references t ⊆ references s.type

theorem OfSchema.mono {m : Model} {t t' : TypeTree} (h : OfSchema m t)
    (hsub : references t' ⊆ references t) : OfSchema m t' := by
  obtain ⟨s, hs, hrefs⟩ := h
  exact ⟨s, hs, List.Subset.trans hsub hrefs⟩

theorem ofSchema_type {m : Model} {id : Uuid} {s : Schema} (h : m.schema? id = some s) :
    OfSchema m s.type :=
  ⟨s, Dict.mem_values_of_get? h, fun _ hid => hid⟩

/-- The trees that a walk goes on to have only references of the tree above them. -/
theorem references_subset_of_walked {t c : TypeTree} (hc : c ∈ walked t) :
    references c ⊆ references t := by
  cases t with
  | object l entries =>
    obtain ⟨entry, hentry, rfl⟩ := List.mem_map.1 hc
    rw [references]
    exact references_subset_of_mem hentry
  | wrapper l kind child =>
    cases kind with
    | not => cases hc
    | _ =>
      obtain rfl := List.mem_singleton.1 hc
      simp [references]
  | mapOf l key value =>
    obtain rfl | rfl : c = key ∨ c = value := by simpa [walked] using hc
    · exact fun id hid => by simp [references, hid]
    · exact fun id hid => by simp [references, hid]
  | _ => cases hc

theorem heldByParts_ofSchema (m : Model) : HeldByParts m (OfSchema m) where
  schemas := ofSchema_type
  below ht hc := ht.mono (references_subset_of_walked hc)

namespace ContextFiles

variable {p : Project} {fs : ContextFiles}

/-- The failure is that of a reference in the type of a schema, which leads to no schema. -/
def Foreseen (m : Model) (x : FailedFile) : Prop :=
  ∃ s ∈ m.schemas.values, ∃ id ∈ s.type.references, m.schema? id = none ∧
    x.error = (ResolveFault.unknownSchema id).message

/-- Every failure so far is foreseen. -/
def AllForeseen (m : Model) (fs : ContextFiles) : Prop := ∀ x ∈ fs.failed, Foreseen m x

theorem allForeseen_ofContext (p : Project) (c : Context) :
    (ofContext p c).AllForeseen p.model := by
  intro x hx
  obtain ⟨e, he, fault, hfault, rfl⟩ := exists_failing hx
  cases e with
  | «class» kind source mutability =>
    obtain ⟨root, id, hroot, rfl, hmem, hnone⟩ := Project.dangles_of_classFile hfault
    obtain ⟨s, hs, hsub⟩ := (heldByParts_ofSchema p.model).emissions he hroot
    exact ⟨s, hs, id, hsub hmem, hnone, rfl⟩
  | enum root description => cases hfault

/-- Every class that fails fails for a reference to an unknown schema which the lint reports for some
schema of the model; so when the lint is silent nothing fails, wherever the files go and however
they are laid out. -/
theorem failed_foreseen (p : Project) (c : Context) :
    (∀ x ∈ (ofContext p c).failed, ∃ s ∈ p.model.schemas.values, ∃ id ∈ s.type.references,
      p.model.schema? id = none ∧ x.error = (ResolveFault.unknownSchema id).message ∧
        Lint.unknownReference s id ∈ Lint.unresolvedReference.check p.model) ∧
      (Lint.unresolvedReference.check p.model = [] → (ofContext p c).failed = []) := by
  have hall : ∀ x ∈ (ofContext p c).failed, ∃ s ∈ p.model.schemas.values,
      ∃ id ∈ s.type.references, p.model.schema? id = none ∧
        x.error = (ResolveFault.unknownSchema id).message ∧
          Lint.unknownReference s id ∈ Lint.unresolvedReference.check p.model := by
    intro x hx
    obtain ⟨s, hs, id, hid, hnone, herror⟩ := allForeseen_ofContext p c x hx
    exact ⟨s, hs, id, hid, hnone, herror, Lint.mem_unresolvedReference hs hid hnone⟩
  refine ⟨hall, fun hsilent => List.eq_nil_iff_forall_not_mem.2 fun x hx => ?_⟩
  obtain ⟨s, -, id, -, -, -, hreport⟩ := hall x hx
  rw [hsilent] at hreport
  cases hreport

def orderSchema : Schema :=
  ⟨.uniform 1, "Order", "shop", none,
    .object ⟨"Order", none⟩
      [("buyers", .wrapper ⟨"buyers", none⟩ .set (.reference ⟨"buyers", none⟩ (.uniform 2)))]⟩

def buyerSchema : Schema := ⟨.uniform 2, "Buyer", "shop", none, .object ⟨"Buyer", none⟩ []⟩

/-- One event with an order, which refers to buyers. -/
def orderProject (schemas : List Schema) : Project where
  model :=
    { Model.empty with
      schemas := Dict.ofList (schemas.map fun s => (s.id, s))
      events := Dict.ofList [(.uniform 3, ⟨.uniform 3, "Placed", none, some (.uniform 1)⟩)]
      placements := Dict.ofList
        [(.uniform 4, ⟨.uniform 4, 0, .event, .uniform 3, .stream, none⟩)] }
  layout := ⟨"Orders", "main.orders", ⟨""⟩, .useExisting⟩
  indent := .tab

def orderContext : Context := ⟨none, "Orders", [.uniform 4]⟩

def placedFailure : FailedFile :=
  ⟨"Placed", "reference to unknown schema 22222222-2222-2222-2222-222222222222"⟩

/-- Without the schema of buyers the class of the event fails for a reference two levels down, and
the lint names it; with that schema the lint is silent and nothing fails. -/
theorem failed_foreseen_orders :
    (placedFailure ∈ (ofContext (orderProject [orderSchema]) orderContext).failed ∧
      ∃ s ∈ (orderProject [orderSchema]).model.schemas.values, ∃ id ∈ s.type.references,
        (orderProject [orderSchema]).model.schema? id = none ∧
          placedFailure.error = (ResolveFault.unknownSchema id).message ∧
            Lint.unknownReference s id
              ∈ Lint.unresolvedReference.check (orderProject [orderSchema]).model) ∧
      Lint.unresolvedReference.check (orderProject [orderSchema, buyerSchema]).model = [] ∧
        (ofContext (orderProject [orderSchema, buyerSchema]) orderContext).failed = [] := by
  have hfailed : placedFailure ∈ (ofContext (orderProject [orderSchema]) orderContext).failed := by
    decide
  have hsilent :
      Lint.unresolvedReference.check (orderProject [orderSchema, buyerSchema]).model = [] := by
    decide
  exact ⟨⟨hfailed, (failed_foreseen (orderProject [orderSchema]) orderContext).1 _ hfailed⟩,
    hsilent, (failed_foreseen (orderProject [orderSchema, buyerSchema]) orderContext).2 hsilent⟩

end ContextFiles

end EventForge.Java
