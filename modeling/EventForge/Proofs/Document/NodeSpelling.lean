import EventForge.Proofs.Document.TypeNode
import Mathlib.Data.List.Nodup
import Mathlib.Logic.Relation

/-!
# The canonical spelling of a type node

The canonical spelling of a node has its type, its properties as text and all its children, and
leaves out the members that the grammar does not know. A tree is written as its node is spelled when
the properties and the children agree (`printType_eq_canonicalNode`); the properties do unless two
of them have one key (`properties_eq_iff`).
-/

namespace EventForge

/-- How many children a shape takes, if it takes a fixed number of them. -/
def Shape.arity? : Shape → Option Nat
  | scalar _ => some 0
  | unknown => some 0
  | wrapper _ => some 1
  | re => some 1
  | ref => some 1
  | mapOf => some 2
  | combinator _ => none
  | map => none
  | enum => none

namespace Document

open Reading TypeTree

/-- The shape that a node declares. -/
def declaredShape? (fields : List (String × Json)) : Option Shape :=
  match find? fields "type" with
  | some (.string declared) => Shape.ofTag? (normalizeTag declared)
  | _ => none

/-- The items of an array member, none when there is no such member. -/
def itemsOf (fields : List (String × Json)) (key : String) : List Json :=
  match find? fields key with
  | some (.array items) => items
  | _ => []

theorem sizeOf_lt_of_mem_itemsOf {fields : List (String × Json)} {key : String} {item : Json}
    (h : item ∈ itemsOf fields key) : sizeOf item < sizeOf fields := by
  rw [itemsOf] at h
  split at h
  · next items hitems =>
    have hfields := sizeOf_find?_lt hitems
    have hitem := List.sizeOf_lt_of_mem h
    simp only [Json.array.sizeOf_spec] at hfields
    omega
  · cases h

/-- An object with only one of its members, rewritten. -/
def onlyMember (key : String) (rewrite : Json → Json) : Json → Json
  | .object fields => .object (optionalField key ((find? fields key).map rewrite))
  | other => other

/-- A scalar as its text. -/
def scalarAsText (json : Json) : Json :=
  match json.scalarText? with
  | some text => .string text
  | none => json

/-- An identifier in its canonical spelling. -/
def canonicalId : Json → Json
  | .string s => (Uuid.ofText? s).elim (.string s) printId
  | other => other

/-- A property with its value as text. -/
def canonicalProperty : Json → Json
  | .object fields =>
    .object (optionalField "key" (find? fields "key") ++
      optionalField "value" ((find? fields "value").map scalarAsText))
  | other => other

/-- All properties of a node, in order. -/
def canonicalProperties (fields : List (String × Json)) : Option Json :=
  match find? fields "properties" with
  | some (.array items) => some (.array (items.map canonicalProperty))
  | _ => none

/-- A child of a node of some shape; nodes in it are rewritten by `canonicalPart`. -/
def canonicalChild (shape : Shape) (child : Json)
    (canonicalPart : (part : Json) → sizeOf part ≤ sizeOf child → Json) : Json :=
  match shape with
  | .wrapper _ => canonicalPart child (Nat.le_refl _)
  | .mapOf => canonicalPart child (Nat.le_refl _)
  | .combinator _ => canonicalPart child (Nat.le_refl _)
  | .map =>
    match child with
    | .object entry =>
      match h : find? entry "schema" with
      | some schema =>
        .object (optionalField "entry" (find? entry "entry") ++
          [("schema", canonicalPart schema (by
            have := sizeOf_find?_lt h
            simp only [Json.object.sizeOf_spec]
            omega))])
      | none => .object entry
    | other => other
  | .enum => onlyMember "symbol" id child
  | .re => onlyMember "expression" id child
  | .ref => onlyMember "reference" canonicalId child
  | .scalar _ => child
  | .unknown => child

/-- The member for the children of a node; it is left out for shapes without children. -/
def canonicalChildren (shape : Shape) (children : List Json) : Option Json :=
  if shape.arity? = some 0 ∧ children.length = 0 then none else some (.array children)

/-- A node in its canonical spelling: its type, its properties and its children. -/
def canonicalNode (node : Json) : Json :=
  match node with
  | .object fields =>
    match declaredShape? fields with
    | some shape =>
      .object <| ("type", .string (":" ++ shape.text)) ::
        (optionalField "properties" (canonicalProperties fields) ++
          optionalField "children"
            (canonicalChildren shape ((itemsOf fields "children").attach.map fun child =>
              canonicalChild shape child.1 fun part _ => canonicalNode part)))
    | none => .object fields
  | other => other
termination_by sizeOf node
decreasing_by
  have := sizeOf_lt_of_mem_itemsOf child.2
  simp only [Json.object.sizeOf_spec]
  omega

/-- The key of a property. -/
def propertyKey? : Json → Option Json
  | .object fields => find? fields "key"
  | _ => none

/-- The node of an entry of a map. -/
def entrySchema? : Json → Option Json
  | .object entry => find? entry "schema"
  | _ => none

/-- The nodes right below a node. -/
def subnodes : Json → List Json
  | .object fields =>
    match declaredShape? fields with
    | some (.wrapper _) => itemsOf fields "children"
    | some .mapOf => itemsOf fields "children"
    | some (.combinator _) => itemsOf fields "children"
    | some .map => (itemsOf fields "children").filterMap entrySchema?
    | _ => []
  | _ => []

/-- The node has no more children than its shape takes, and no two properties with one key. -/
structure Exact (fields : List (String × Json)) : Prop where
  children : ∀ shape, declaredShape? fields = some shape → ∀ n ∈ shape.arity?,
    (itemsOf fields "children").length ≤ n
  properties : ((itemsOf fields "properties").map propertyKey?).Nodup

/-- The node or a node below it, at any depth. -/
abbrev Within : Json → Json → Prop := Relation.ReflTransGen fun node part => part ∈ subnodes node

/-- Nothing is surplus in the node, nor in a node below it. -/
def ExactThroughout (node : Json) : Prop := ∀ fields, Within node (.object fields) → Exact fields

theorem exactThroughout_object {fields : List (String × Json)} :
    ExactThroughout (.object fields) ↔
      Exact fields ∧ ∀ part ∈ subnodes (.object fields), ExactThroughout part := by
  constructor
  · intro h
    exact ⟨h fields .refl, fun part hpart below hbelow => h below (hbelow.head hpart)⟩
  · rintro ⟨hexact, hparts⟩ below hbelow
    rcases hbelow.cases_head with heq | ⟨part, hpart, hrest⟩
    · exact Json.object.inj heq ▸ hexact
    · exact hparts part hpart below hrest

/-- What is printed as the children of a tree. -/
def printChildren : TypeTree → Option (List Json)
  | .scalar _ _ => none
  | .wrapper _ _ child => some [printType child]
  | .mapOf _ key value => some [printType key, printType value]
  | .combined _ _ members => some (printMembers members)
  | .object _ entries => some (printEntries entries)
  | .enumeration _ symbols => some (symbols.map fun s => .object [("symbol", .string s)])
  | .pattern _ expression => some [.object [("expression", .string expression)]]
  | .reference _ target => some [.object [("reference", printId target)]]
  | .unset _ => none

theorem printType_eq (t : TypeTree) :
    printType t = printNode t.shape t.label (printChildren t) := by
  cases t <;> rfl

theorem printMembers_eq_map (members : List TypeTree) :
    printMembers members = members.map printType := by
  induction members with
  | nil => rfl
  | cons t members ih => rw [printMembers, List.map_cons, ih]

theorem printEntries_eq_map (entries : List (String × TypeTree)) :
    printEntries entries = entries.map fun e =>
      .object [("entry", .string e.1), ("schema", printType e.2)] := by
  induction entries with
  | nil => rfl
  | cons e entries ih => rw [printEntries, List.map_cons, ih]

/-- A child of a node of some shape in its canonical spelling. -/
def canonicalChildOf (shape : Shape) (child : Json) : Json :=
  canonicalChild shape child fun part _ => canonicalNode part

/-- The children of these shapes are nodes themselves. -/
theorem canonicalChildOf_wrapper (kind : Wrapper) :
    canonicalChildOf (.wrapper kind) = canonicalNode := rfl

theorem canonicalChildOf_mapOf : canonicalChildOf .mapOf = canonicalNode := rfl

theorem canonicalChildOf_combinator (kind : Combinator) :
    canonicalChildOf (.combinator kind) = canonicalNode := rfl

/-- The children of a map are entries. -/
theorem canonicalChildOf_map {entry : List (String × Json)} {schema : Json}
    (h : find? entry "schema" = some schema) :
    canonicalChildOf .map (.object entry) =
      .object (optionalField "entry" (find? entry "entry") ++
        [("schema", canonicalNode schema)]) := by
  simp only [canonicalChildOf, canonicalChild]
  split
  · next schema' hschema =>
    obtain rfl : schema = schema' := by simpa [h] using hschema
    rfl
  · next hnone => simp [h] at hnone

theorem canonicalNode_object {fields : List (String × Json)} {shape : Shape}
    (h : declaredShape? fields = some shape) :
    canonicalNode (.object fields) = .object (("type", .string (":" ++ shape.text)) ::
      (optionalField "properties" (canonicalProperties fields) ++
        optionalField "children" (canonicalChildren shape
          ((itemsOf fields "children").map (canonicalChildOf shape))))) := by
  have hattach : ((itemsOf fields "children").attach.map fun child =>
      canonicalChildOf shape child.1) = (itemsOf fields "children").map (canonicalChildOf shape) :=
    List.attach_map_val
  rw [canonicalNode, h]
  simp only [← hattach]
  rfl

theorem optionalFields_inj {properties properties' children children' : Option Json} :
    optionalField "properties" properties ++ optionalField "children" children
        = optionalField "properties" properties' ++ optionalField "children" children' ↔
      properties = properties' ∧ children = children' := by
  cases properties <;> cases properties' <;> cases children <;> cases children' <;>
    simp [optionalField]

/-- The two spellings of a node agree when its properties and its children do. -/
theorem printType_eq_canonicalNode {fields : List (String × Json)} {t : TypeTree}
    (h : declaredShape? fields = some t.shape) :
    printType t = canonicalNode (.object fields) ↔
      (t.label.properties.map fun bag => .array (bag.entries.map printProperty))
          = canonicalProperties fields ∧
        (printChildren t).map .array = canonicalChildren t.shape
          ((itemsOf fields "children").map (canonicalChildOf t.shape)) := by
  rw [printType_eq, printNode, canonicalNode_object h, Json.object.injEq, List.cons.injEq,
    optionalFields_inj]
  simp

/-- Two lists of images agree when each item of one has what makes its images agree. -/
theorem map_eq_map_iff_of_forall₂ {α β γ : Type} {f : β → γ} {g : α → γ} {P : α → Prop}
    {xs : List α} {ys : List β} (h : List.Forall₂ (fun x y => f y = g x ↔ P x) xs ys) :
    ys.map f = xs.map g ↔ ∀ x ∈ xs, P x := by
  induction h with
  | nil => simp
  | cons hx _ ih => rw [List.map_cons, List.map_cons, List.cons.injEq, hx, ih, List.forall_mem_cons]

section Properties

variable {location : String}

theorem readProperty_eq_read_nil {bag next : Dict String String} {item : Json}
    (h : readProperty location bag item = .read next []) :
    ∃ e : String × String, (propertyKey? item = some (.string e.1) ∧
      canonicalProperty item = printProperty e) ∧ next = bag.insert e.1 e.2 := by
  rw [readProperty] at h
  obtain ⟨entry, hentry, h⟩ := lift_bind_eq_read_iff.1 h
  obtain ⟨key, hkey, h⟩ := lift_bind_eq_read_iff.1 h
  obtain ⟨hitem, -⟩ := Fields.ofJson_eq_ok_iff.1 hentry
  rw [Fields.text_eq_ok_iff] at hkey
  rw [hitem]
  split at h
  · next value hvalue =>
    obtain ⟨json, hjson, hscalar⟩ := Option.bind_eq_some_iff.1 hvalue
    rw [Fields.value?] at hjson
    refine ⟨(key, value), ⟨hkey, ?_⟩, (pure_eq_read_iff.1 h).1.symm⟩
    simp [canonicalProperty, printProperty, hkey, hjson, scalarAsText, hscalar, optionalField]
  · obtain ⟨_, hwarn, -⟩ := bind_eq_read_nil_iff.1 h
    cases hwarn

theorem printProperty_injective : Function.Injective printProperty := by
  rintro ⟨key, value⟩ ⟨key', value'⟩ h
  simpa [printProperty] using h

/-- The properties that are kept are all properties, unless a key is repeated. -/
theorem properties_eq_iff {node : Fields} {bag : Option (Dict String String)}
    (h : readProperties node = .read bag []) :
    (bag.map fun bag => Json.array (bag.entries.map printProperty))
        = canonicalProperties node.fields ↔
      ((itemsOf node.fields "properties").map propertyKey?).Nodup := by
  rw [readProperties] at h
  obtain ⟨items?, harray, h⟩ := lift_bind_eq_read_iff.1 h
  cases items? with
  | none =>
    obtain ⟨rfl, -⟩ := pure_eq_read_iff.1 h
    rcases Fields.array?_eq_ok_none_iff.1 harray with hnone | hnull
    · simp [canonicalProperties, itemsOf, hnone]
    · simp [canonicalProperties, itemsOf, hnull]
  | some items =>
    obtain ⟨bag', hfold, hpure⟩ := bind_eq_read_nil_iff.1 h
    obtain ⟨rfl, -⟩ := pure_eq_read_iff.1 hpure
    obtain ⟨es, hread, hbag⟩ := foldlM_eq_read_nil hfold fun _ _ _ => readProperty_eq_read_nil
    have hfind := Fields.array?_eq_ok_some_iff.1 harray
    have hkeys : items.map propertyKey? = (es.map Prod.fst).map fun key => some (.string key) := by
      rw [List.map_map]
      exact map_eq_map_of_forall₂ (hread.imp fun _ _ h => h.1)
    have hitems : items.map canonicalProperty = es.map printProperty :=
      map_eq_map_of_forall₂ (hread.imp fun _ _ h => h.2)
    have hinj : Function.Injective fun key : String => some (Json.string key) := by
      intro a b hab
      simpa using hab
    have hofList : bag' = Dict.ofList es := hbag
    simp only [canonicalProperties, itemsOf, hfind, Option.map_some, Option.some.injEq,
      Json.array.injEq, hitems, hkeys, List.nodup_map_iff hinj,
      (List.map_injective_iff.2 printProperty_injective).eq_iff, hofList,
      Dict.entries_ofList_eq_iff]

end Properties

end Document

end EventForge
