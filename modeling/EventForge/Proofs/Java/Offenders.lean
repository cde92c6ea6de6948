import EventForge.Proofs.Java.KeptFields
import EventForge.Proofs.Model

/-!
# Which fault of a class wins

A tree has no type because of the leftmost node that has none: a reference to an unknown schema, or
a node of an unsupported shape. The reference costs the whole class, the shape only the field. So a
class is given up for the first entry whose leftmost offending node is a reference, whatever else is
wrong in it or in other entries; without such an entry the class has a field for every entry in
which no node offends, and a warning for every other one (`class_resolution`).
-/

namespace EventForge.Java

section Outcome

variable {α β ε : Type}

/-- Why there is no result. -/
def fault? : Except ε α → Option ε
  | .error e => some e
  | .ok _ => none

theorem fault?_eq_some {x : Except ε α} {e : ε} : fault? x = some e ↔ x = .error e := by
  cases x <;> simp [fault?]

theorem fault?_eq_none {x : Except ε α} : fault? x = none ↔ ∃ a, x = .ok a := by
  cases x <;> simp [fault?]

@[simp]
theorem fault?_map (x : Except ε α) (f : α → β) : fault? (x.map f) = fault? x := by
  cases x <;> rfl

/-- The first step of two that fails is why both fail. -/
theorem fault?_bind {x : Except ε α} {f : α → Except ε β} {later : Option ε}
    (h : ∀ a, fault? (f a) = later) : fault? (x.bind f) = (fault? x).or later := by
  cases x with
  | error e => rfl
  | ok a => exact h a

theorem fault?_mapM (f : α → Except ε β) (xs : List α) :
    fault? (xs.mapM f) = xs.findSome? fun x => fault? (f x) := by
  induction xs with
  | nil => rfl
  | cons x xs ih =>
    have hrest : ∀ y : β, fault? (xs.mapM f >>= fun ys => pure (y :: ys)) =
        fault? (xs.mapM f) := fun y => fault?_map (xs.mapM f) (List.cons y)
    rw [List.mapM_cons, List.findSome?_cons, ← ih]
    refine (fault?_bind hrest).trans ?_
    cases fault? (f x) <;> rfl

end Outcome

namespace Resolve

open TypeTree

variable {m : Model} {t : TypeTree}

/-- Nodes of the shape have no type, whatever is below them. -/
def isUntyped : Shape → Bool
  | .wrapper .not => true
  | .combinator _ => true
  | .unknown => true
  | _ => false

/-- The node refers to a schema that the model does not have. -/
def isDangling (m : Model) : TypeTree → Bool
  | reference _ id => (m.schema? id).isNone
  | _ => false

def offends (m : Model) (node : TypeTree) : Bool := isDangling m node || isUntyped node.shape

/-- The leftmost offending node among those that are looked into. -/
def offender? (m : Model) (t : TypeTree) : Option TypeTree := (reached t).find? (offends m)

/-- What is wrong with an offending node. -/
def faultOf : TypeTree → ResolveFault
  | reference _ id => .unknownSchema id
  | t => .unsupported t.name t.shape

theorem fault?_targetName (id : Uuid) : fault? (targetName m id) =
    if (m.schema? id).isNone then some (.unknownSchema id) else none := by
  rw [targetName]
  cases m.schema? id <;> rfl

/-- A tree has no type exactly when a node in it offends, for what is wrong with the leftmost. -/
theorem fault?_typeRef : ∀ t : TypeTree, fault? (typeRef m t) = (offender? m t).map faultOf
  | .reference l id => by
    have hnode : offends m (.reference l id) = (m.schema? id).isNone := Bool.or_false _
    have hself : reached (.reference l id) = [.reference l id] := rfl
    rw [typeRef, fault?_map, fault?_targetName, offender?, hself, List.find?_singleton, hnode]
    split <;> rfl
  | .mapOf l k v => by
    have hnode : offends m (.mapOf l k v) = false := rfl
    have hvalue : ∀ key : TypeRef, fault? ((typeRef m v).map fun value => TypeRef.map key value) =
        fault? (typeRef m v) := fun key => fault?_map _ _
    rw [typeRef, fault?_bind hvalue, fault?_typeRef k, fault?_typeRef v, offender?, offender?,
      offender?, reached, List.find?_cons_of_neg (by simp [hnode]), List.find?_append,
      Option.map_or]
  | .wrapper l .vector c | .wrapper l .sequential c | .wrapper l .set c | .wrapper l .maybe c => by
    have hnode : ∀ kind : Wrapper, kind ≠ .not → offends m (.wrapper l kind c) = false := by
      intro kind hkind
      cases kind <;> first | rfl | exact absurd rfl hkind
    rw [typeRef, fault?_map, fault?_typeRef c, offender?, offender?, reached,
      List.find?_cons_of_neg (by simp [hnode])]
    simp
  | .wrapper l .not c | .combined l kind members | .unset l => rfl
  | .scalar l kind | .pattern l expression | .object l entries | .enumeration l symbols => rfl

theorem typeRef_isOk_iff : (typeRef m t).isOk ↔ offender? m t = none := by
  rw [← Option.map_eq_none_iff (f := faultOf), ← fault?_typeRef, fault?_eq_none]
  cases typeRef m t <;> simp [Except.isOk, Except.toBool]

/-- The names of a tree that has a type can be found out: its references lead to schemas. -/
theorem fault?_entities (h : offender? m t = none) : fault? (entities m t) = none := by
  rw [entities, fault?_map, fault?_mapM, List.findSome?_eq_none_iff]
  intro node hnode
  have hsound : ¬ offends m node = true := List.find?_eq_none.1 h node hnode
  cases node with
  | reference l id =>
    have hknown : ¬ (m.schema? id).isNone = true := fun hnone =>
      hsound (Bool.or_eq_true_iff.2 (.inl hnone))
    rw [entityOf, fault?_map, fault?_targetName, if_neg hknown]
  | _ => rfl

end Resolve

/-- The entries that become fields are those in which no node offends. -/
theorem ClassSource.keptEntries_eq (m : Model) (s : ClassSource) :
    s.keptEntries m = s.entries.filter fun e => (Resolve.offender? m e.2).isNone :=
  List.filter_congr fun _ _ => Bool.eq_iff_iff.2 <|
    Resolve.typeRef_isOk_iff.trans Option.isNone_iff_eq_none.symm

/-- The entry costs its class: it has no type for a reference to this unknown schema. -/
def CostsClass (m : Model) (e : String × TypeTree) (id : Uuid) : Prop :=
  ∃ l, Resolve.offender? m e.2 = some (.reference l id)

/-- The diagnostic for an entry that is left out of a class for an offending node. -/
def omission (className : String) (e : String × TypeTree) (node : TypeTree) : Diagnostic where
  severity := .warning
  phase := "emit"
  message := "field '" ++ fieldName e.1 ++ "' omitted: "
    ++ (ResolveFault.unsupported node.name node.shape).message
  location := some (className ++ "." ++ fieldName e.1)

/-- The diagnostic is about a field that was left out. The other diagnostics of a class are about
its nested enums. -/
def isOmission (x : Diagnostic) : Bool := "field '".toList.isPrefixOf x.message.toList

namespace ClassDraft

open Resolve

variable {m : Model} {d : ClassDraft} {e : String × TypeTree} {es : List (String × TypeTree)}

/-- Why an entry costs its class. -/
def fatal? (m : Model) (e : String × TypeTree) : Option ResolveFault :=
  ((offender? m e.2).map faultOf).filter fun fault => !fault.isFieldLocal

theorem fatal?_eq_some {fault : ResolveFault} :
    fatal? m e = some fault ↔ ∃ id, CostsClass m e id ∧ fault = .unknownSchema id := by
  rw [fatal?]
  constructor
  · intro h
    obtain ⟨hfault, hlocal⟩ := Option.filter_eq_some_iff.1 h
    obtain ⟨node, hnode, rfl⟩ := Option.map_eq_some_iff.1 hfault
    cases node with
    | reference l id => exact ⟨id, ⟨l, hnode⟩, rfl⟩
    | _ => cases hlocal
  · rintro ⟨id, ⟨l, hnode⟩, rfl⟩
    rw [hnode]
    rfl

theorem fatal?_eq_none : fatal? m e = none ↔ ∀ id, ¬ CostsClass m e id := by
  rw [Option.eq_none_iff_forall_ne_some]
  simp only [ne_eq, fatal?_eq_some, not_exists, not_and]
  exact ⟨fun h id hcosts => h _ id hcosts rfl, fun h fault id hcosts _ => h id hcosts⟩

/-- The outcome of one entry: it costs the class, is left out or becomes a field. -/
theorem addField_cases (m : Model) (d : ClassDraft) (e : String × TypeTree) :
    (∃ fault, fatal? m e = some fault ∧ d.addField m e = (d, some fault)) ∨
      (fatal? m e = none ∧ ∃ node, offender? m e.2 = some node ∧
        d.addField m e = (d.leaveOut (fieldName e.1) (faultOf node), none)) ∨
      (fatal? m e = none ∧ offender? m e.2 = none ∧ ∃ type names,
        d.addField m e = (d.keep (fieldName e.1) e.2 type names, none)) := by
  have hfault := fault?_typeRef (m := m) e.2
  cases hnode : offender? m e.2 with
  | some node =>
    rw [hnode] at hfault
    have htype := fault?_eq_some.1 hfault
    cases hlocal : (faultOf node).isFieldLocal with
    | false =>
      refine .inl ⟨faultOf node, ?_, ?_⟩
      · simp [fatal?, hnode, hlocal]
      · simp [addField, htype, hlocal]
    | true =>
      refine .inr (.inl ⟨?_, node, rfl, ?_⟩)
      · simp [fatal?, hnode, hlocal]
      · simp [addField, htype, hlocal]
  | none =>
    rw [hnode] at hfault
    obtain ⟨type, htype⟩ := fault?_eq_none.1 hfault
    obtain ⟨names, hnames⟩ := fault?_eq_none.1 (fault?_entities hnode)
    refine .inr (.inr ⟨?_, rfl, type, names, ?_⟩)
    · simp [fatal?, hnode]
    · simp [addField, htype, hnames]

/-- The class is given up for the first entry that costs it. -/
theorem addFields_snd : (d.addFields m es).2 = es.findSome? (fatal? m) := by
  induction es generalizing d with
  | nil => rfl
  | cons e es ih =>
    rw [addFields, List.findSome?_cons]
    obtain ⟨fault, hfatal, hstep⟩ | ⟨hfatal, node, -, hstep⟩ | ⟨hfatal, -, type, names, hstep⟩ :=
      addField_cases m d e
    · rw [hstep, hfatal]
    · rw [hstep, hfatal]
      exact ih
    · rw [hstep, hfatal]
      exact ih

/-- What was left out so far. -/
def omissions (d : ClassDraft) : List Diagnostic := d.diagnostics.filter isOmission

theorem omissions_addEnum (field : String) (d : ClassDraft) (e : String × List String) :
    (d.addEnum field e).omissions = d.omissions := by
  rw [addEnum]
  split
  · rfl
  · split
    · rfl
    · simp [omissions, warning, isOmission, List.isPrefixOf]

theorem omissions_keep (field : String) (t : TypeTree) (type : TypeRef) (names : List String) :
    (d.keep field t type names).omissions = d.omissions :=
  List.foldlRecOn (motive := fun d' : ClassDraft => d'.omissions = d.omissions)
    (Resolve.enums t).entries (addEnum field) rfl
    fun d' hd' e _ => (omissions_addEnum field d' e).trans hd'

theorem omissions_leaveOut {node : TypeTree} (h : fatal? m e = none)
    (hnode : offender? m e.2 = some node) :
    (d.leaveOut (fieldName e.1) (faultOf node)).omissions =
      d.omissions ++ [omission d.name e node] := by
  have hfault : faultOf node = .unsupported node.name node.shape := by
    cases node with
    | reference l id => exact absurd ⟨l, hnode⟩ (fatal?_eq_none.1 h id)
    | _ => rfl
  have hkind : isOmission (omission d.name e node) := by simp [isOmission, omission]
  have hkept : [omission d.name e node].filter isOmission = [omission d.name e node] :=
    List.filter_eq_self.2 (by simpa using hkind)
  rw [leaveOut, hfault, omissions, omissions, List.filter_append, ← hkept]
  rfl

/-- The entries in which a node offends are reported in order. -/
theorem omissions_addFields (h : es.findSome? (fatal? m) = none) :
    (d.addFields m es).1.omissions =
      d.omissions ++ es.filterMap fun e => (offender? m e.2).map (omission d.name e) := by
  induction es generalizing d with
  | nil => simp [addFields]
  | cons e es ih =>
    rw [List.findSome?_cons] at h
    have hname := name_addField m d e
    obtain ⟨fault, hfatal, -⟩ | ⟨hfatal, node, hnode, hstep⟩ |
      ⟨hfatal, hnode, type, names, hstep⟩ := addField_cases m d e
    · simp [hfatal] at h
    · rw [hfatal] at h
      rw [hstep] at hname
      rw [addFields, hstep, List.filterMap_cons, hnode]
      dsimp only at hname ⊢
      rw [ih h, hname, omissions_leaveOut hfatal hnode, List.append_assoc]
      rfl
    · rw [hfatal] at h
      rw [hstep] at hname
      rw [addFields, hstep, List.filterMap_cons, hnode]
      dsimp only at hname ⊢
      rw [ih h, hname, omissions_keep]
      rfl

end ClassDraft

namespace Project

theorem fault?_classFile (p : Project) (kind : PackageKind) (source : ClassSource)
    (mutability : Mutability) : fault? (p.classFile kind source mutability).2 =
    source.entries.findSome? (ClassDraft.fatal? p.model) := by
  rw [← ClassDraft.addFields_snd (d := ⟨typeName source.name, [], ∅, []⟩), classFile]
  split <;> next heq => rw [heq]; rfl

theorem omissions_classFile {p : Project} {kind : PackageKind} {source : ClassSource}
    {mutability : Mutability} {file : SourceFile}
    (h : (p.classFile kind source mutability).2 = .ok file) :
    (p.classFile kind source mutability).1.filter isOmission =
      source.entries.filterMap fun e =>
        (Resolve.offender? p.model e.2).map (omission (typeName source.name) e) := by
  have hsound : source.entries.findSome? (ClassDraft.fatal? p.model) = none := by
    rw [← fault?_classFile p kind source mutability, h]
    rfl
  have hdraft :=
    ClassDraft.omissions_addFields (d := ⟨typeName source.name, [], ∅, []⟩) hsound
  dsimp only at hdraft
  rw [classFile]
  split <;> next heq => rw [heq] at hdraft; exact hdraft

/-- A class is given up exactly when the leftmost offending node of some entry is a reference to an
unknown schema, and then for the first such entry. Otherwise it has a field for every entry in which
no node offends and one warning for every other entry, both in the order of the entries. The names
of a tree that has a type can always be found out. -/
theorem class_resolution (p : Project) (kind : PackageKind) (source : ClassSource)
    (mutability : Mutability) :
    ((∃ fault, (p.classFile kind source mutability).2 = .error fault) ↔
      ∃ e ∈ source.entries, ∃ id, CostsClass p.model e id) ∧
    (∀ fault, (p.classFile kind source mutability).2 = .error fault →
      ∃ before e after id, source.entries = before ++ e :: after ∧
        (∀ e' ∈ before, ∀ id, ¬ CostsClass p.model e' id) ∧ CostsClass p.model e id ∧
        fault = .unknownSchema id) ∧
    (∀ file, (p.classFile kind source mutability).2 = .ok file →
      ∃ decl, file.declaration = .class decl ∧
        List.Forall₂ (fun e field => field.name = fieldName e.1 ∧
            Resolve.typeRef p.model e.2 = .ok field.type ∧ field.comment = propertyComment e.2)
          (source.entries.filter fun e => (Resolve.offender? p.model e.2).isNone) decl.fields ∧
        (p.classFile kind source mutability).1.filter isOmission =
          source.entries.filterMap fun e =>
            (Resolve.offender? p.model e.2).map (omission decl.name e)) ∧
    ∀ e ∈ source.entries, (Resolve.typeRef p.model e.2).isOk →
      ∃ names, Resolve.importedNames p.model e.2 = .ok names := by
  have hfault := fault?_classFile p kind source mutability
  refine ⟨?_, fun fault h => ?_, fun file h => ?_, fun e _ htype => ?_⟩
  · simp only [← fault?_eq_some, hfault, ← Option.isSome_iff_exists, List.findSome?_isSome_iff]
    simp only [Option.isSome_iff_exists, ClassDraft.fatal?_eq_some]
    refine exists_congr fun e => and_congr_right fun _ => ?_
    exact ⟨fun ⟨_, id, hcosts, _⟩ => ⟨id, hcosts⟩, fun ⟨id, hcosts⟩ => ⟨_, id, hcosts, rfl⟩⟩
  · rw [← fault?_eq_some, hfault, List.findSome?_eq_some_iff] at h
    obtain ⟨before, e, after, hentries, hfatal, hbefore⟩ := h
    obtain ⟨id, hcosts, rfl⟩ := ClassDraft.fatal?_eq_some.1 hfatal
    exact ⟨before, e, after, id, hentries,
      fun e' he' => ClassDraft.fatal?_eq_none.1 (hbefore e' he'), hcosts, rfl⟩
  · have hreports := omissions_classFile h
    obtain ⟨d, hd, rfl⟩ := exists_draft h
    refine ⟨d.declaration source mutability, rfl, List.forall₂_map_right_iff.2 ?_, ?_⟩
    · rw [← source.keptEntries_eq]
      exact hd.fields.imp fun _ _ hfield => ⟨hfield.name, hfield.type, hfield.comment⟩
    · rw [hreports, ← hd.name]
      rfl
  · have hsound := Resolve.typeRef_isOk_iff.1 htype
    exact fault?_eq_none.1 ((fault?_map _ _).trans (Resolve.fault?_entities hsound))

/-- A class with a map from a list of choices to a reference that leads nowhere. -/
def ragged : ClassSource where
  name := "Ragged"
  description := none
  root := some <| .object ⟨"Ragged", none⟩
    [("note", .scalar ⟨"Ragged", none⟩ .string),
      ("choice", .mapOf ⟨"Ragged", none⟩ (.combined ⟨"RaggedKey", none⟩ .or [])
        (.reference ⟨"RaggedValue", none⟩ (.uniform 7)))]

/-- The same, with the two sides of the map exchanged in two more entries. -/
def torn : ClassSource where
  name := "Torn"
  description := none
  root := some <| .object ⟨"Torn", none⟩ <| ragged.entries ++
    [("first", .mapOf ⟨"Torn", none⟩ (.reference ⟨"TornKey", none⟩ (.uniform 8))
        (.combined ⟨"TornValue", none⟩ .or [])),
      ("second", .reference ⟨"Torn", none⟩ (.uniform 9))]

def raggedProject : Project :=
  ⟨Model.empty, ⟨"Orders", "main.orders", ⟨""⟩, .useExisting⟩, .tab⟩

/-- The unsupported key hides the reference behind it, and the class is kept; a reference that comes
first costs the class, and the first such reference is named. -/
theorem class_resolution_ragged :
    (∃ file decl, (raggedProject.classFile .events ragged .immutable).2 = .ok file ∧
      file.declaration = .class decl ∧ decl.fields.length = 1) ∧
    (raggedProject.classFile .events ragged .immutable).1.filter isOmission =
      [⟨.warning, "emit", "field 'choice' omitted: 'RaggedKey' has unsupported shape 'or'",
        some "Ragged.choice"⟩] ∧
    (raggedProject.classFile .events torn .immutable).2 = .error (.unknownSchema (.uniform 8)) ∧
    ∃ e ∈ torn.entries, ∃ id, CostsClass raggedProject.model e id := by
  have htorn : (raggedProject.classFile .events torn .immutable).2 =
      .error (.unknownSchema (.uniform 8)) := by decide
  obtain ⟨file, hfile⟩ := fault?_eq_none.1
    (by decide : fault? (raggedProject.classFile .events ragged .immutable).2 = none)
  obtain ⟨decl, hdecl, hfields, -⟩ :=
    (class_resolution raggedProject .events ragged .immutable).2.2.1 file hfile
  refine ⟨⟨file, decl, hfile, hdecl, ?_⟩, by decide, htorn, ?_⟩
  · rw [← hfields.length_eq]
    decide
  · exact (class_resolution raggedProject .events torn .immutable).1.1 ⟨_, htorn⟩

end Project

end EventForge.Java
