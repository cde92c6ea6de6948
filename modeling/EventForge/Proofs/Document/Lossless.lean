import EventForge.Proofs.Document.NodeReading
import EventForge.Proofs.Document.NodeSpelling

/-!
# What a type tree keeps of its node

A node that is read without a warning has a tree that is written as the node is spelled, unless
something in it was passed over: children behind those that a shape takes, or an earlier property
of a repeated key (`printType_eq_canonicalNode_iff`). The induction is on the node: each shape keeps
its own children, given what holds of the nodes among them.
-/

namespace EventForge.Document

open Reading TypeTree

theorem childrenOf_eq_ok {node : Fields} {parts : List (Part node.fields)}
    (h : childrenOf node = .ok parts) :
    parts.map Subtype.val = itemsOf node.fields "children" := by
  rw [childrenOf] at h
  rw [itemsOf]
  split at h
  · next hnone =>
    obtain rfl := Except.ok.inj h
    simp [hnone]
  · next hnull =>
    obtain rfl := Except.ok.inj h
    simp [hnull]
  · next items hitems =>
    obtain rfl := Except.ok.inj h
    simp [hitems]
  · cases h

theorem declaredShape?_eq {fields : List (String × Json)} {declared : String} {shape : Shape}
    (htype : find? fields "type" = some (.string declared))
    (hshape : Shape.ofTag? (normalizeTag declared) = some shape) :
    declaredShape? fields = some shape := by
  rw [declaredShape?, htype]
  exact hshape

/-- A node that is read without a warning is written in its canonical spelling exactly when nothing
in it is surplus. -/
def Faithful (node : Json) : Prop :=
  ∀ inherited nested location t, readNode node inherited nested location = .read t [] →
    (printType t = canonicalNode node ↔ ExactThroughout node)

section Children

variable {fields : List (String × Json)} {part : Part fields} {parts rest : List (Part fields)}
  {label : Label} {name place location : String} {t : TypeTree}

/-- What reading the children of a node leads to: a tree of the shape and the label whose children
are all those of the node exactly when none is surplus here or further down. -/
structure KeepsChildren (fields : List (String × Json)) (shape : Shape) (label : Label)
    (t : TypeTree) : Prop where
  sameShape : t.shape = shape
  sameLabel : t.label = label
  children : (printChildren t).map .array = canonicalChildren shape
      ((itemsOf fields "children").map (canonicalChildOf shape)) ↔
    (∀ n ∈ shape.arity?, (itemsOf fields "children").length ≤ n) ∧
      ∀ part ∈ subnodes (.object fields), ExactThroughout part

/-- How the parts of a node are read. -/
def readPart (part : Part fields) (name place : String) : Reading TypeTree :=
  readNode part.1 name true place

theorem canonicalChildren_of_arity {shape : Shape} (h : shape.arity? ≠ some 0)
    (children : List Json) : canonicalChildren shape children = some (.array children) := by
  rw [canonicalChildren, if_neg fun hzero => h hzero.1]

theorem keepsChildren_wrapper (ih : ∀ part : Part fields, Faithful part.1) {kind : Wrapper}
    (hshape : declaredShape? fields = some (.wrapper kind))
    (hparts : (part :: rest).map Subtype.val = itemsOf fields "children")
    (hchild : readPart part name place = .read t []) :
    KeepsChildren fields (.wrapper kind) label (.wrapper label kind t) := by
  have hpart := ih part _ _ _ _ hchild
  refine ⟨rfl, rfl, ?_⟩
  rw [canonicalChildren_of_arity (by simp [Shape.arity?]), subnodes, hshape, ← hparts]
  simp only [printChildren, canonicalChildOf_wrapper]
  cases rest with
  | nil => simpa [Shape.arity?] using hpart
  | cons second rest => simp [Shape.arity?]

theorem keepsChildren_mapOf (ih : ∀ part : Part fields, Faithful part.1) {k v : Part fields}
    {key value : TypeTree} {name' place' : String} (hshape : declaredShape? fields = some .mapOf)
    (hparts : (k :: v :: rest).map Subtype.val = itemsOf fields "children")
    (hkey : readPart k name place = .read key [])
    (hvalue : readPart v name' place' = .read value []) :
    KeepsChildren fields .mapOf label (.mapOf label key value) := by
  have hk := ih k _ _ _ _ hkey
  have hv := ih v _ _ _ _ hvalue
  refine ⟨rfl, rfl, ?_⟩
  rw [canonicalChildren_of_arity (by simp [Shape.arity?]), subnodes, hshape, ← hparts]
  simp only [printChildren, canonicalChildOf_mapOf]
  cases rest with
  | nil => simp [Shape.arity?, hk, hv]
  | cons third rest => simp [Shape.arity?]

theorem keepsChildren_combined (ih : ∀ part : Part fields, Faithful part.1) {kind : Combinator}
    {members : List TypeTree} (hshape : declaredShape? fields = some (.combinator kind))
    (hparts : parts.map Subtype.val = itemsOf fields "children")
    (hmembers : List.Forall₂ (fun part member => ∃ new,
      readPart part.1 name (location ++ "." ++ Text.decimal part.2) = .read member new ∧ new ⊆ [])
      parts.zipIdx members) :
    KeepsChildren fields (.combinator kind) label (.combined label kind members) := by
  have hindexed : (parts.zipIdx.map fun part => part.1.1) = itemsOf fields "children" := by
    rw [← hparts, ← List.zipIdx_map_fst 0 parts, List.map_map, List.zipIdx_map_fst]
    rfl
  have hagree : List.Forall₂ (fun child member => printType member = canonicalNode child ↔
      ExactThroughout child) (itemsOf fields "children") members := by
    rw [← hindexed, List.forall₂_map_left_iff]
    refine hmembers.imp ?_
    rintro part member ⟨new, hread, hnew⟩
    rw [List.subset_nil.1 hnew] at hread
    exact ih part.1 _ _ _ _ hread
  refine ⟨rfl, rfl, ?_⟩
  rw [canonicalChildren_of_arity (by simp [Shape.arity?]), subnodes, hshape]
  simp only [printChildren, printMembers_eq_map, canonicalChildOf_combinator, Option.map_some,
    Option.some.injEq, Json.array.injEq, map_eq_map_iff_of_forall₂ hagree, Shape.arity?]
  simp

theorem addEntry_eq_read_nil {entries next : List (String × TypeTree)}
    {child : Part fields} (h : addEntry location readPart name entries child = .read next []) :
    ∃ e : String × TypeTree, (∃ part place, readEntry child location = .ok (e.1, part) ∧
      readPart part name place = .read e.2 []) ∧ next = entries ++ [e] := by
  rw [addEntry] at h
  obtain ⟨⟨key, part⟩, hentry, h⟩ := lift_bind_eq_read_iff.1 h
  obtain ⟨type, htype, h⟩ := bind_eq_read_nil_iff.1 h
  dsimp only at h
  split at h
  · obtain ⟨_, hwarn, -⟩ := bind_eq_read_nil_iff.1 h
    cases hwarn
  · next hfresh =>
    rw [find?_isSome_iff] at hfresh
    obtain ⟨rfl, -⟩ := pure_eq_read_iff.1 h
    exact ⟨(key, type), ⟨part, _, hentry, htype⟩, upsert_of_not_mem hfresh type⟩

theorem keepsChildren_map (ih : ∀ part : Part fields, Faithful part.1)
    (hshape : declaredShape? fields = some .map)
    (hparts : parts.map Subtype.val = itemsOf fields "children")
    {entries : List (String × TypeTree)}
    (hentries : parts.foldlM (addEntry location readPart name) [] = .read entries []) :
    KeepsChildren fields .map label (.object label entries) := by
  obtain ⟨es, hread, hfold⟩ := foldlM_eq_read_nil hentries fun _ _ _ => addEntry_eq_read_nil
  obtain rfl : entries = es := by simpa [← List.flatMap_def] using hfold
  have hagree : List.Forall₂ (fun child (e : String × TypeTree) =>
      .object [("entry", .string e.1), ("schema", printType e.2)] = canonicalChildOf .map child ↔
        ∀ part ∈ entrySchema? child, ExactThroughout part)
      (itemsOf fields "children") entries := by
    rw [← hparts, List.forall₂_map_left_iff]
    refine hread.imp ?_
    rintro child ⟨key, type⟩ ⟨part, place, hentry, htype⟩
    obtain ⟨entry, hchild, hkey, hschema⟩ := readEntry_eq_ok hentry
    have hpart := ih part _ _ _ _ htype
    rw [hchild, canonicalChildOf_map hschema, hkey]
    simp [optionalField, entrySchema?, hschema, hpart]
  refine ⟨rfl, rfl, ?_⟩
  rw [canonicalChildren_of_arity (by simp [Shape.arity?]), subnodes, hshape]
  simp only [printChildren, printEntries_eq_map, Option.map_some, Option.some.injEq,
    Json.array.injEq, map_eq_map_iff_of_forall₂ hagree, Shape.arity?, Option.not_mem_none,
    IsEmpty.forall_iff, implies_true, true_and, List.mem_filterMap]
  constructor
  · rintro h part ⟨child, hchild, hpart⟩
    exact h child hchild part hpart
  · exact fun h child hchild part hpart => h part ⟨child, hchild, hpart⟩

theorem keepsChildren_enum {symbols : List String} (hshape : declaredShape? fields = some .enum)
    (hparts : parts.map Subtype.val = itemsOf fields "children")
    (hsymbols : List.Forall₂ (fun part symbol => childText part.1 "symbol" location = .ok symbol)
      parts symbols) : KeepsChildren fields .enum label (.enumeration label symbols) := by
  have hagree : List.Forall₂ (fun child symbol =>
      canonicalChildOf .enum child = .object [("symbol", .string symbol)])
      (itemsOf fields "children") symbols := by
    rw [← hparts, List.forall₂_map_left_iff]
    refine hsymbols.imp fun child symbol hread => ?_
    obtain ⟨entry, hchild, hsymbol⟩ := childText_eq_ok hread
    simp [hchild, canonicalChildOf, canonicalChild, onlyMember, hsymbol, optionalField]
  refine ⟨rfl, rfl, ?_⟩
  rw [canonicalChildren_of_arity (by simp [Shape.arity?]), subnodes, hshape,
    map_eq_map_of_forall₂ hagree]
  simp [printChildren, Shape.arity?]

/-- A shape with one child that is no node keeps it when its canonical spelling is the one that the
tree is written with. -/
theorem keepsChildren_text {shape : Shape} {child : Json}
    (hone : shape.arity? = some 1)
    (hparts : (part :: rest).map Subtype.val = itemsOf fields "children")
    (hbelow : subnodes (.object fields) = []) (hprint : printChildren t = some [child])
    (hchild : canonicalChildOf shape part.1 = child) (hsame : t.shape = shape)
    (hlabel : t.label = label) : KeepsChildren fields shape label t := by
  refine ⟨hsame, hlabel, ?_⟩
  rw [canonicalChildren_of_arity (by simp [hone]), hbelow, hprint, ← hparts]
  cases rest with
  | nil => simp [hchild, hone]
  | cons second rest => simp [hone]

theorem keepsChildren_re {expression : String} (hshape : declaredShape? fields = some .re)
    (hparts : (part :: rest).map Subtype.val = itemsOf fields "children")
    (h : childText part.1 "expression" location = .ok expression) :
    KeepsChildren fields .re label (.pattern label expression) := by
  obtain ⟨entry, hchild, hfind⟩ := childText_eq_ok h
  refine keepsChildren_text rfl hparts (by simp [subnodes, hshape]) rfl ?_ rfl rfl
  simp [hchild, canonicalChildOf, canonicalChild, onlyMember, hfind, optionalField]

theorem keepsChildren_ref {written : String} {target : Uuid}
    (hshape : declaredShape? fields = some .ref)
    (hparts : (part :: rest).map Subtype.val = itemsOf fields "children")
    (hwritten : childText part.1 "reference" location = .ok written)
    (htarget : readId written location = .ok target) :
    KeepsChildren fields .ref label (.reference label target) := by
  obtain ⟨entry, hchild, hfind⟩ := childText_eq_ok hwritten
  have hid : canonicalId (.string written) = printId target := by
    rw [canonicalId, readId_eq_ok_iff.1 htarget]
    rfl
  refine keepsChildren_text rfl hparts (by simp [subnodes, hshape]) rfl ?_ rfl rfl
  simp [hchild, canonicalChildOf, canonicalChild, onlyMember, hfind, hid, optionalField]

theorem keepsChildren_scalar {kind : Scalar} (hshape : declaredShape? fields = some (.scalar kind))
    (hparts : [] = itemsOf fields "children") :
    KeepsChildren fields (.scalar kind) label (.scalar label kind) := by
  refine ⟨rfl, rfl, ?_⟩
  rw [subnodes, hshape, ← hparts]
  simp [printChildren, canonicalChildren, Shape.arity?]

/-- Whatever its shape, a node that is read without a warning keeps its children exactly when none of
them is surplus. -/
theorem keepsChildren {shape : Shape} {ws : List Diagnostic}
    (ih : ∀ part : Part fields, Faithful part.1) (hshape : declaredShape? fields = some shape)
    (hparts : parts.map Subtype.val = itemsOf fields "children")
    (h : ShapeRead readPart label location shape parts t ws) (hws : ws = []) :
    KeepsChildren fields shape label t := by
  cases h with
  | childless _ _ | surplus => cases hws
  | wrapper hchild => exact keepsChildren_wrapper ih hshape hparts (hws ▸ hchild)
  | mapOf hkey hvalue =>
    obtain ⟨rfl, rfl⟩ := List.append_eq_nil_iff.1 hws
    exact keepsChildren_mapOf ih hshape hparts hkey hvalue
  | combined hmembers => exact keepsChildren_combined ih hshape hparts (hws ▸ hmembers)
  | map hentries => exact keepsChildren_map ih hshape hparts (hws ▸ hentries)
  | enum hsymbols => exact keepsChildren_enum hshape hparts hsymbols
  | re h => exact keepsChildren_re hshape hparts h
  | ref hwritten htarget => exact keepsChildren_ref hshape hparts hwritten htarget
  | scalar => exact keepsChildren_scalar hshape hparts

end Children

/-- What holds of all parts of a node holds of the node. -/
theorem Faithful.object {fields : List (String × Json)}
    (ih : ∀ part : Part fields, Faithful part.1) : Faithful (.object fields) := by
  intro inherited nested location t h
  rw [readNode] at h
  generalize hws : ([] : List Diagnostic) = ws at h
  cases nodeRead_of_readObject h with
  | unknown _ _ _ => simp at hws
  | known htype hshape hbag hparts hread =>
    obtain ⟨rfl, rfl⟩ := List.append_eq_nil_iff.1 hws.symm
    have hdecl := declaredShape?_eq htype hshape
    have hkeeps := keepsChildren ih hdecl (childrenOf_eq_ok hparts) hread rfl
    rw [printType_eq_canonicalNode (hkeeps.sameShape ▸ hdecl), hkeeps.sameLabel,
      hkeeps.sameShape, properties_eq_iff hbag, hkeeps.children, exactThroughout_object]
    constructor
    · rintro ⟨hkeys, hcount, hparts⟩
      exact ⟨⟨fun s hs => Option.some.inj (hdecl.symm.trans hs) ▸ hcount, hkeys⟩, hparts⟩
    · rintro ⟨⟨hcount, hkeys⟩, hparts⟩
      exact ⟨hkeys, hcount _ hdecl, hparts⟩

theorem faithful (node : Json) : Faithful node := by
  match node with
  | .object fields => exact .object fun part => faithful part.1
  | .null | .bool _ | .number _ | .string _ | .array _ =>
    intro inherited nested location t h
    simp [readNode] at h
termination_by sizeOf node
decreasing_by
  have := part.2
  simp only [Json.object.sizeOf_spec]
  omega

/-- A node that is read without a warning loses nothing of its type, properties and children, at any
depth, exactly when no node in it has more children than its shape takes or repeats the key of a
property. -/
theorem printType_eq_canonicalNode_iff {node : Json} {inherited location : String} {nested : Bool}
    {t : TypeTree} (h : readNode node inherited nested location = .read t []) :
    printType t = canonicalNode node ↔ ExactThroughout node :=
  faithful node inherited nested location t h

/-- A node with a given type and children, and nothing else. -/
def bareNode (declared : String) (children : List Json) : Json :=
  .object [("type", .string declared), ("children", .array children)]

theorem readNode_bareNode {declared : String} {shape : Shape} (children : List Json)
    (hshape : Shape.ofTag? (normalizeTag declared) = some shape) (inherited location : String)
    (nested : Bool) :
    ∃ (fields : List (String × Json)) (parts : List (Part fields)),
      parts.map Subtype.val = children ∧
        readNode (bareNode declared children) inherited nested location =
          readShape shape ⟨nodeName shape nested inherited, none⟩ location parts
            fun part name place => readNode part.1 name true place := by
  have hchildren : find? [("type", Json.string declared), ("children", Json.array children)]
      "children" = (some children).map .array := by simp
  exact ⟨_, readNode_object (by simp) hshape rfl hchildren⟩

/-- Whatever follows the first child of a wrapper has no effect, not even a warning. -/
theorem readNode_wrapper_surplus {declared : String} {kind : Wrapper}
    (hshape : Shape.ofTag? (normalizeTag declared) = some (.wrapper kind)) (child : Json)
    (surplus : List Json) (inherited location : String) (nested : Bool) :
    readNode (bareNode declared (child :: surplus)) inherited nested location =
      readNode (bareNode declared [child]) inherited nested location := by
  obtain ⟨fields, parts, hvals, hread⟩ :=
    readNode_bareNode (child :: surplus) hshape inherited location nested
  obtain ⟨fields', parts', hvals', hread'⟩ :=
    readNode_bareNode [child] hshape inherited location nested
  obtain ⟨part, rest, rfl, rfl, -⟩ := List.map_eq_cons_iff.1 hvals
  obtain ⟨part', rfl, hpart⟩ := eq_singleton_of_map hvals'
  rw [hread, hread']
  unfold readShape
  simp only [hpart]

theorem ofTag?_vector : ∀ declared ∈ ["Vector", ":vector"],
    Shape.ofTag? (normalizeTag declared) = some (.wrapper .vector) := by
  decide +kernel

theorem readNode_scalar (name : String) (kind : Scalar) (nested : Bool) (location : String) :
    readNode (printType (.scalar ⟨name, none⟩ kind)) name nested location
      = .read (.scalar ⟨name, none⟩ kind) [] :=
  readNode_printType (by simp [wellFormed]) location

theorem exactThroughout_scalar (name : String) (kind : Scalar) :
    ExactThroughout (printType (.scalar ⟨name, none⟩ kind)) := by
  have hshape : declaredShape? [("type", .string (":" ++ (Shape.scalar kind).text))]
      = some (.scalar kind) := ofTag?_normalizeTag (by cases kind <;> decide)
  have hnode : printType (.scalar ⟨name, none⟩ kind) =
      .object [("type", .string (":" ++ (Shape.scalar kind).text))] := rfl
  rw [hnode]
  refine exactThroughout_object.2 ⟨⟨?_, ?_⟩, ?_⟩
  · simp [itemsOf]
  · simp [itemsOf]
  · simp [subnodes, hshape]

/-- A vector of integers with a number as its property and a member that is not known. -/
def boundedVector : List (String × Json) :=
  [("type", .string "Vector"), ("note", .bool true),
    ("properties", .array [.object [("key", .string "min"), ("value", .number (.integer 1))]]),
    ("children", .array [printType (.scalar ⟨"Values", none⟩ .int)])]

theorem readProperties_boundedVector :
    readProperties ⟨boundedVector, "schemas"⟩ = .read (some (Dict.ofList [("min", "1")])) [] := by
  have hvalue : Text.decimal 1 = "1" := by decide +kernel
  simp [boundedVector, readProperties, Fields.array?, Fields.value?, readProperty, Fields.ofJson,
    Fields.text, Fields.text?, Json.scalarText?, Json.Number.toText, pure_eq, hvalue]
  rfl

theorem readNode_boundedVector :
    readNode (.object boundedVector) "Values" false "schemas" =
      .read (.wrapper ⟨"Values", some (Dict.ofList [("min", "1")])⟩ .vector
        (.scalar ⟨"Values", none⟩ .int)) [] := by
  have hchildren : find? boundedVector "children" =
      (some [printType (.scalar ⟨"Values", none⟩ .int)]).map .array := by simp [boundedVector]
  obtain ⟨parts, hvals, hread⟩ := @readNode_object boundedVector "Values" "schemas" "Vector" false
    _ _ _ (by simp [boundedVector]) (ofTag?_vector "Vector" (by simp))
    readProperties_boundedVector hchildren
  obtain ⟨part, rfl, hpart⟩ := eq_singleton_of_map hvals
  rw [hread]
  unfold readShape
  simp only [nodeName, hpart, readNode_scalar, read_nil_bind]
  rfl

theorem exactThroughout_boundedVector : ExactThroughout (.object boundedVector) := by
  have hshape : declaredShape? boundedVector = some (.wrapper .vector) :=
    ofTag?_vector "Vector" (by simp)
  have hchildren : itemsOf boundedVector "children" =
      [printType (.scalar ⟨"Values", none⟩ .int)] := by
    simp [itemsOf, boundedVector]
  refine exactThroughout_object.2 ⟨⟨?_, ?_⟩, ?_⟩
  · intro shape h n hn
    obtain rfl := Option.some.inj (hshape.symm.trans h)
    obtain rfl := Option.some.inj hn
    simp [hchildren]
  · simp [itemsOf, boundedVector]
  · rw [subnodes, hshape]
    simp only [hchildren, List.mem_singleton, forall_eq]
    exact exactThroughout_scalar "Values" .int

theorem printType_eq_canonicalNode_boundedVector :
    ∃ t, readNode (.object boundedVector) "Values" false "schemas" = .read t [] ∧
      printType t = canonicalNode (.object boundedVector) :=
  ⟨_, readNode_boundedVector,
    (printType_eq_canonicalNode_iff readNode_boundedVector).2 exactThroughout_boundedVector⟩

/-- A vector that declares integers and strings as its children. -/
def mixedVector : Json :=
  bareNode ":vector" [printType (.scalar ⟨"Values", none⟩ .int),
    printType (.scalar ⟨"Values", none⟩ .string)]

/-- The vector is read as one of integers, and no warning tells of the strings. -/
theorem mixedVector_loses_child :
    ∃ t, readNode mixedVector "Values" false "schemas" = .read t [] ∧
      t = .wrapper ⟨"Values", none⟩ .vector (.scalar ⟨"Values", none⟩ .int) ∧
        printType t ≠ canonicalNode mixedVector := by
  have hshape := ofTag?_vector ":vector" (by simp)
  have hread : readNode mixedVector "Values" false "schemas" =
      .read (.wrapper ⟨"Values", none⟩ .vector (.scalar ⟨"Values", none⟩ .int)) [] := by
    obtain ⟨fields, parts, hvals, hread⟩ := readNode_bareNode
      [printType (.scalar ⟨"Values", none⟩ .int)] hshape "Values" "schemas" false
    obtain ⟨part, rfl, hpart⟩ := eq_singleton_of_map hvals
    rw [mixedVector, readNode_wrapper_surplus hshape, hread]
    unfold readShape
    simp only [nodeName, hpart, readNode_scalar, read_nil_bind]
    rfl
  refine ⟨_, hread, rfl, fun hkept => ?_⟩
  have hexact := (exactThroughout_object.1 ((faithful _ _ _ _ _ hread).1 hkept)).1
  have htwo : 2 ≤ 1 := hexact.children _ hshape 1 rfl
  omega

end EventForge.Document
