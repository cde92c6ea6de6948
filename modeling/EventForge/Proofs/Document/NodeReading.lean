import EventForge.Document.Reader
import EventForge.Proofs.Document.Fields
import EventForge.Proofs.Document.Reading

/-!
# How type nodes and schemas are read

Reading a type node ends in one of a few ways: one for a shape that is not known (`NodeRead`), and
for every known shape one or two more (`ShapeRead`). What is to be known of the trees that are read
follows by cases on these, and by induction on the document (`readNode_induction`). The type of a
schema is read from the node in its entry (`SchemaRead`).
-/

namespace EventForge.Document

open Reading
open TypeTree (nameFor)

section Reads

variable {fields : List (String × Json)}

/-- What a node of a shape is read as from its children, with the warnings raised. -/
inductive ShapeRead (readPart : Part fields → String → String → Reading TypeTree) (label : Label)
    (location : String) :
    Shape → List (Part fields) → TypeTree → List Diagnostic → Prop where
  | childless {shape : Shape} {parts : List (Part fields)} (hmap : shape ≠ .map)
      (henum : shape ≠ .enum) :
      ShapeRead readPart label location shape parts (.unset label)
        [warning ("shape '" ++ shape.text ++ "' is missing its children, left unset") location]
  | wrapper {kind : Wrapper} {part : Part fields} {rest : List (Part fields)} {child : TypeTree}
      {ws : List Diagnostic} (h : readPart part label.name (location ++ ".0") = .read child ws) :
      ShapeRead readPart label location (.wrapper kind) (part :: rest) (.wrapper label kind child)
        ws
  | mapOf {k v : Part fields} {rest : List (Part fields)} {key value : TypeTree}
      {ws ws' : List Diagnostic}
      (hk : readPart k (nameFor label.name .key) (location ++ ".key") = .read key ws)
      (hv : readPart v (nameFor label.name .value) (location ++ ".value") = .read value ws') :
      ShapeRead readPart label location .mapOf (k :: v :: rest) (.mapOf label key value)
        (ws ++ ws')
  | combined {kind : Combinator} {parts : List (Part fields)} {members : List TypeTree}
      {ws : List Diagnostic}
      (h : List.Forall₂ (fun part member => ∃ new,
        readPart part.1 label.name (location ++ "." ++ Text.decimal part.2) = .read member new ∧
          new ⊆ ws) parts.zipIdx members) :
      ShapeRead readPart label location (.combinator kind) parts (.combined label kind members) ws
  | map {parts : List (Part fields)} {entries : List (String × TypeTree)} {ws : List Diagnostic}
      (h : parts.foldlM (addEntry location readPart label.name) [] = .read entries ws) :
      ShapeRead readPart label location .map parts (.object label entries) ws
  | enum {parts : List (Part fields)} {symbols : List String}
      (h : List.Forall₂ (fun part symbol => childText part.1 "symbol" location = .ok symbol)
        parts symbols) :
      ShapeRead readPart label location .enum parts (.enumeration label symbols) []
  | re {part : Part fields} {rest : List (Part fields)} {expression : String}
      (h : childText part.1 "expression" location = .ok expression) :
      ShapeRead readPart label location .re (part :: rest) (.pattern label expression) []
  | ref {part : Part fields} {rest : List (Part fields)} {written : String} {target : Uuid}
      (hwritten : childText part.1 "reference" location = .ok written)
      (htarget : readId written location = .ok target) :
      ShapeRead readPart label location .ref (part :: rest) (.reference label target) []
  | scalar {kind : Scalar} :
      ShapeRead readPart label location (.scalar kind) [] (.scalar label kind) []
  | surplus {kind : Scalar} {part : Part fields} {rest : List (Part fields)} :
      ShapeRead readPart label location (.scalar kind) (part :: rest) (.scalar label kind)
        [warning ("shape '" ++ (Shape.scalar kind).text ++ "' does not take children, ignored")
          location]

/-- What a node with these fields is read as, with the warnings raised. -/
inductive NodeRead (fields : List (String × Json)) (inherited : String) (nested : Bool)
    (location : String) (readPart : Part fields → String → String → Reading TypeTree) :
    TypeTree → List Diagnostic → Prop where
  | unknown {declared : String} {bag : Option (Dict String String)} {ws : List Diagnostic}
      (htype : find? fields "type" = some (.string declared))
      (hshape : Shape.ofTag? (normalizeTag declared) = none)
      (hbag : readProperties ⟨fields, location⟩ = .read bag ws) :
      NodeRead fields inherited nested location readPart (.unset ⟨inherited, bag⟩)
        (ws ++ [warning ("unknown shape '" ++ declared ++ "', left unset") location])
  | known {declared : String} {shape : Shape} {bag : Option (Dict String String)}
      {parts : List (Part fields)} {t : TypeTree} {ws ws' : List Diagnostic}
      (htype : find? fields "type" = some (.string declared))
      (hshape : Shape.ofTag? (normalizeTag declared) = some shape)
      (hbag : readProperties ⟨fields, location⟩ = .read bag ws)
      (hparts : childrenOf ⟨fields, location⟩ = .ok parts)
      (hread :
        ShapeRead readPart ⟨nodeName shape nested inherited, bag⟩ location shape parts t ws') :
      NodeRead fields inherited nested location readPart t (ws ++ ws')

variable {readPart : Part fields → String → String → Reading TypeTree} {label : Label}
  {inherited location : String} {nested : Bool} {t : TypeTree} {ws : List Diagnostic}

theorem readEntry_eq_ok {child part : Part fields} {key : String}
    (h : readEntry child location = .ok (key, part)) :
    ∃ entry, child.1 = .object entry ∧ find? entry "entry" = some (.string key) ∧
      find? entry "schema" = some part.1 := by
  rw [readEntry] at h
  split at h
  · next entry hchild =>
    split at h
    · cases h
    · next name hname =>
      split at h
      · cases h
      · next schema hschema =>
        cases h
        exact ⟨entry, hchild, Fields.text_eq_ok_iff.1 hname, hschema⟩
  · cases h

theorem childText_eq_ok {child : Json} {key text : String}
    (h : childText child key location = .ok text) :
    ∃ entry, child = .object entry ∧ find? entry key = some (.string text) := by
  cases child with
  | object entry => exact ⟨entry, rfl, Fields.text_eq_ok_iff.1 h⟩
  | _ => cases h

/-- An entry of a map with the tree that its node was read as. -/
def EntryRead (readPart : Part fields → String → String → Reading TypeTree) (name location : String)
    (child : Part fields) (e : String × TypeTree) (ws : List Diagnostic) : Prop :=
  ∃ part new, readEntry child location = .ok (e.1, part) ∧
    readPart part name (location ++ "." ++ e.1) = .read e.2 new ∧ new ⊆ ws

theorem addEntry_eq_read {name : String} {entries next : List (String × TypeTree)}
    {child : Part fields} (h : addEntry location readPart name entries child = .read next ws) :
    ∃ e : String × TypeTree, EntryRead readPart name location child e ws ∧
      next = upsert entries e.1 e.2 := by
  rw [addEntry] at h
  obtain ⟨⟨key, part⟩, hentry, hrest⟩ := lift_bind_eq_read_iff.1 h
  obtain ⟨type, new, _, htype, hadd, rfl⟩ := bind_eq_read_iff.1 hrest
  refine ⟨(key, type), ⟨part, new, hentry, htype, by simp⟩, ?_⟩
  dsimp only at hadd
  split at hadd
  · obtain ⟨_, hpure, -⟩ := warn_bind_eq_read_iff.1 hadd
    exact (pure_eq_read_iff.1 hpure).1.symm
  · exact (pure_eq_read_iff.1 hadd).1.symm

theorem shapeRead_of_childless {shape : Shape} {parts : List (Part fields)}
    (hmap : shape ≠ .map) (henum : shape ≠ .enum)
    (h : childless label shape location = .read t ws) :
    ShapeRead readPart label location shape parts t ws := by
  obtain ⟨_, hpure, rfl⟩ := warn_bind_eq_read_iff.1 h
  obtain ⟨rfl, rfl⟩ := pure_eq_read_iff.1 hpure
  exact .childless hmap henum

theorem shapeRead_of_readShape {shape : Shape} {parts : List (Part fields)}
    (h : readShape shape label location parts readPart = .read t ws) :
    ShapeRead readPart label location shape parts t ws := by
  unfold readShape at h
  split at h
  · obtain ⟨child, _, _, hchild, hpure, rfl⟩ := bind_eq_read_iff.1 h
    obtain ⟨rfl, rfl⟩ := pure_eq_read_iff.1 hpure
    rw [List.append_nil]
    exact .wrapper hchild
  · obtain ⟨key, _, _, hkey, hrest, rfl⟩ := bind_eq_read_iff.1 h
    obtain ⟨value, _, _, hvalue, hpure, rfl⟩ := bind_eq_read_iff.1 hrest
    obtain ⟨rfl, rfl⟩ := pure_eq_read_iff.1 hpure
    rw [List.append_nil]
    exact .mapOf hkey hvalue
  · obtain ⟨members, _, _, hmembers, hpure, rfl⟩ := bind_eq_read_iff.1 h
    obtain ⟨rfl, rfl⟩ := pure_eq_read_iff.1 hpure
    rw [List.append_nil]
    exact .combined (mapM_eq_read hmembers)
  · obtain ⟨entries, _, _, hentries, hpure, rfl⟩ := bind_eq_read_iff.1 h
    obtain ⟨rfl, rfl⟩ := pure_eq_read_iff.1 hpure
    rw [List.append_nil]
    exact .map hentries
  · obtain ⟨symbols, _, _, hread, hpure, rfl⟩ := bind_eq_read_iff.1 h
    obtain ⟨rfl, rfl⟩ := pure_eq_read_iff.1 hpure
    obtain ⟨hsymbols, rfl⟩ := mapM_lift_eq_read hread
    exact .enum hsymbols
  · obtain ⟨expression, hexpression, hpure⟩ := lift_bind_eq_read_iff.1 h
    obtain ⟨rfl, rfl⟩ := pure_eq_read_iff.1 hpure
    exact .re hexpression
  · obtain ⟨written, hwritten, hrest⟩ := lift_bind_eq_read_iff.1 h
    obtain ⟨target, htarget, hpure⟩ := lift_bind_eq_read_iff.1 hrest
    obtain ⟨rfl, rfl⟩ := pure_eq_read_iff.1 hpure
    exact .ref hwritten htarget
  · obtain ⟨rfl, rfl⟩ := pure_eq_read_iff.1 h
    exact .scalar
  · obtain ⟨_, hpure, rfl⟩ := warn_bind_eq_read_iff.1 h
    obtain ⟨rfl, rfl⟩ := pure_eq_read_iff.1 hpure
    exact .surplus
  · next hmap henum _ _ _ _ _ _ => exact shapeRead_of_childless hmap henum h

theorem nodeRead_of_readObject
    (h : readObject fields inherited nested location readPart = .read t ws) :
    NodeRead fields inherited nested location readPart t ws := by
  rw [readObject] at h
  obtain ⟨declared, hdeclared, hrest⟩ := lift_bind_eq_read_iff.1 h
  obtain ⟨bag, _, _, hbag, hshaped, rfl⟩ := bind_eq_read_iff.1 hrest
  have htype := Fields.text_eq_ok_iff.1 hdeclared
  split at hshaped
  · next hshape =>
    obtain ⟨_, hpure, rfl⟩ := warn_bind_eq_read_iff.1 hshaped
    obtain ⟨rfl, rfl⟩ := pure_eq_read_iff.1 hpure
    exact .unknown htype hshape hbag
  · next shape hshape =>
    obtain ⟨parts, hparts, hread⟩ := lift_bind_eq_read_iff.1 hshaped
    exact .known htype hshape hbag hparts (shapeRead_of_readShape hread)

end Reads

/-- What holds of a node whenever it holds of its parts holds of every node that is read. -/
theorem readNode_induction
    {motive : Json → String → Bool → String → TypeTree → List Diagnostic → Prop}
    (object : ∀ (fields : List (String × Json)) inherited nested location t ws,
      (∀ (part : Part fields) name place t ws,
        readNode part.1 name true place = .read t ws → motive part.1 name true place t ws) →
      NodeRead fields inherited nested location
        (fun part name place => readNode part.1 name true place) t ws →
      motive (.object fields) inherited nested location t ws)
    (node : Json) : ∀ inherited nested location t ws,
      readNode node inherited nested location = .read t ws →
        motive node inherited nested location t ws := by
  match node with
  | .object fields =>
    intro inherited nested location t ws h
    rw [readNode] at h
    exact object fields inherited nested location t ws
      (fun part name => readNode_induction object part.1 name true) (nodeRead_of_readObject h)
  | .null | .bool _ | .number _ | .string _ | .array _ =>
    intro inherited nested location t ws h
    simp [readNode] at h
termination_by sizeOf node
decreasing_by
  have := part.2
  simp only [Json.object.sizeOf_spec]
  omega

/-- The type node of a schema. -/
def schemaNode? : Json → Option Json
  | .object fields => find? fields "schema/schema"
  | _ => none

/-- What an entry of the schemas is read as: its name is part of a qualified name, and its type is
read from its node. -/
structure SchemaRead (ws : List Diagnostic) (entry : Keyed) (s : Schema) : Prop where
  name : ∃ qualified, s.name = (Model.splitQualified qualified).2
  type : ∃ node new, schemaNode? entry.value = some node ∧ new ⊆ ws ∧
    readNode node s.name false entry.location = .read s.type new

theorem readSchema_eq_read {read schemas : Dict Uuid Schema} {entry : Keyed} {ws : List Diagnostic}
    (h : readSchema read entry = .read schemas ws) :
    ∃ s, SchemaRead ws entry s ∧ schemas = read.insert entry.key s := by
  rw [readSchema] at h
  obtain ⟨o, ho, h⟩ := lift_bind_eq_read_iff.1 h
  obtain ⟨id, -, h⟩ := lift_bind_eq_read_iff.1 h
  obtain ⟨_, _, _, -, hnamed, rfl⟩ := bind_eq_read_iff.1 h
  obtain ⟨written, -, hnamed⟩ := lift_bind_eq_read_iff.1 hnamed
  obtain ⟨hobject, -⟩ := Fields.ofJson_eq_ok_iff.1 ho
  dsimp only at hnamed
  split at hnamed
  · cases hnamed
  · next node hnode =>
    obtain ⟨type, new, _, htype, hrest, rfl⟩ := bind_eq_read_iff.1 hnamed
    obtain ⟨description, -, hpure⟩ := lift_bind_eq_read_iff.1 hrest
    obtain ⟨rfl, rfl⟩ := pure_eq_read_iff.1 hpure
    have hfound : schemaNode? entry.value = some node := by
      rw [hobject]
      exact hnode
    exact ⟨_, ⟨⟨written, rfl⟩, node, new, hfound, fun d hd => by simp [hd], htype⟩, rfl⟩

end EventForge.Document
