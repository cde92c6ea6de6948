import EventForge.Proofs.Document.NodeReading
import EventForge.Proofs.Document.Sections
import EventForge.Proofs.Text.Split

/-!
# The names of type nodes

The name of a type node is never written in a document: it is derived from the name of the schema
and the way down to the node. In every tree that was read, with or without warnings, each node has
the derived name, and the entries of a map have names of their own. The name of a schema is what
stands behind the last slash of its qualified name, so none of these names has a slash.
-/

namespace EventForge.Document

open Reading
open TypeTree (nameFor)

/-- The nodes directly below a node, each with the name handed down to it. -/
def handedDown : TypeTree → List (String × TypeTree)
  | .wrapper l _ child => [(l.name, child)]
  | .mapOf l key value => [(nameFor l.name .key, key), (nameFor l.name .value, value)]
  | .combined l _ members => members.map fun t => (l.name, t)
  | .object l entries => entries.map fun e => (l.name, e.2)
  | _ => []

/-- The names of the entries of a map. -/
def entryNames : TypeTree → List String
  | .object _ entries => entries.map Prod.fst
  | _ => []

/-- Every node has the name derived from the one that the tree inherits, and the entries of each map
have names of their own. -/
inductive NamedFrom : String → Bool → TypeTree → Prop where
  | intro {inherited : String} {nested : Bool} {t : TypeTree}
      (name : t.name = nodeName t.shape nested inherited) (entries : (entryNames t).Nodup)
      (below : ∀ c ∈ handedDown t, NamedFrom c.1 true c.2) : NamedFrom inherited nested t

theorem NamedFrom.name {inherited : String} {nested : Bool} {t : TypeTree}
    (h : NamedFrom inherited nested t) : t.name = nodeName t.shape nested inherited := by
  cases h with
  | intro name _ _ => exact name

theorem NamedFrom.entries {inherited : String} {nested : Bool} {t : TypeTree}
    (h : NamedFrom inherited nested t) : (entryNames t).Nodup := by
  cases h with
  | intro _ entries _ => exact entries

theorem NamedFrom.children {inherited : String} {nested : Bool} {t : TypeTree}
    (h : NamedFrom inherited nested t) {name : String} {c : TypeTree}
    (hc : (name, c) ∈ handedDown t) : NamedFrom name true c := by
  cases h with
  | intro _ _ below => exact below (name, c) hc

section Shape

variable {fields : List (String × Json)}
  {readPart : Part fields → String → String → Reading TypeTree}
  {inherited location : String} {nested : Bool} {label : Label} {t : TypeTree}
  {ws : List Diagnostic}

/-- The children of a node are read as trees with derived names. -/
def ReadsNamed (readPart : Part fields → String → String → Reading TypeTree) : Prop :=
  ∀ part name place t ws, readPart part name place = .read t ws → NamedFrom name true t

/-- A node without children only needs its own name. -/
theorem NamedFrom.leaf (hname : t.name = nodeName t.shape nested inherited)
    (hentries : entryNames t = []) (hbelow : handedDown t = []) : NamedFrom inherited nested t :=
  .intro hname (by simp [hentries]) (by simp [hbelow])

/-- Adding an entry keeps the names of the entries apart: a repeated name takes its old place. -/
theorem namedFrom_addEntry (hpart : ReadsNamed readPart) {name : String}
    {entries next : List (String × TypeTree)} {child : Part fields}
    (hnodup : (entries.map Prod.fst).Nodup) (hentries : ∀ e ∈ entries, NamedFrom name true e.2)
    (h : addEntry location readPart name entries child = .read next ws) :
    (next.map Prod.fst).Nodup ∧ ∀ e ∈ next, NamedFrom name true e.2 := by
  obtain ⟨⟨key, type⟩, ⟨part, _, -, htype, -⟩, rfl⟩ := addEntry_eq_read h
  refine ⟨upsert_keys_nodup hnodup key type, fun e he => ?_⟩
  obtain rfl | he := mem_upsert he
  · exact hpart _ _ _ _ _ htype
  · exact hentries e he

theorem nodeName_of_ne {shape : Shape} (hmap : shape ≠ .map) (henum : shape ≠ .enum)
    (nested : Bool) (inherited : String) : nodeName shape nested inherited = inherited := by
  cases shape <;> first | rfl | exact absurd rfl hmap | exact absurd rfl henum

theorem namedFrom_shapeRead (hpart : ReadsNamed readPart) {shape : Shape}
    {parts : List (Part fields)} (hlabel : label.name = nodeName shape nested inherited)
    (h : ShapeRead readPart label location shape parts t ws) : NamedFrom inherited nested t := by
  cases h with
  | childless hmap henum => exact .leaf (hlabel.trans (nodeName_of_ne hmap henum _ _)) rfl rfl
  | wrapper hchild =>
    have hnamed := hpart _ _ _ _ _ hchild
    exact .intro hlabel List.nodup_nil (by simpa [handedDown] using hnamed)
  | mapOf hkey hvalue =>
    have hnamed := And.intro (hpart _ _ _ _ _ hkey) (hpart _ _ _ _ _ hvalue)
    exact .intro hlabel List.nodup_nil (by simpa [handedDown] using hnamed)
  | @combined _ _ members _ hmembers =>
    have hnamed : ∀ member ∈ members, NamedFrom label.name true member := by
      intro member hmember
      obtain ⟨part, -, _, hread, -⟩ := exists_mem_of_forall₂ hmembers hmember
      exact hpart _ _ _ _ _ hread
    exact .intro hlabel List.nodup_nil (by simpa [handedDown] using hnamed)
  | map hentries =>
    obtain ⟨hnodup, hnamed⟩ := foldlM_induction
      (motive := fun entries _ => (entries.map Prod.fst).Nodup ∧
        ∀ e ∈ entries, NamedFrom label.name true e.2) hentries (by simp)
      fun _ _ _ _ _ _ hbefore hstep => namedFrom_addEntry hpart hbefore.1 hbefore.2 hstep
    refine .intro hlabel hnodup fun c hc => ?_
    obtain ⟨e, he, rfl⟩ := List.mem_map.1 hc
    exact hnamed e he
  | enum _ | re _ | ref _ _ | scalar | surplus => exact .leaf hlabel rfl rfl

end Shape

/-- Every tree that is read has the names derived from the one it inherits. -/
theorem namedFrom_readNode (node : Json) : ∀ (inherited : String) (nested : Bool)
    (location : String) (t : TypeTree) (ws : List Diagnostic),
    readNode node inherited nested location = .read t ws → NamedFrom inherited nested t := by
  refine readNode_induction (motive := fun _ inherited nested _ t _ =>
    NamedFrom inherited nested t) (fun fields inherited nested location t ws ih h => ?_) node
  cases h with
  | unknown _ _ _ => exact .leaf rfl rfl rfl
  | known _ _ _ _ hread => exact namedFrom_shapeRead ih rfl hread

/-- The name behind the last slash has none. -/
theorem slash_not_mem_splitQualified (qualified : String) :
    '/' ∉ (Model.splitQualified qualified).2.toList := by
  rw [Model.splitQualified]
  split
  · next hcut =>
    rw [String.toList_ofList]
    exact Text.not_mem_of_cutLast? hcut
  · next hcut => exact Text.not_mem_of_cutLast?_eq_none hcut

/-- What the name of a schema and the names of its nodes are like. -/
structure SchemaNames (s : Schema) : Prop where
  plain : '/' ∉ s.name.toList
  nodes : NamedFrom s.name false s.type

theorem SchemaRead.names {ws : List Diagnostic} {entry : Keyed} {s : Schema}
    (h : SchemaRead ws entry s) : SchemaNames s where
  plain := by
    obtain ⟨qualified, hname⟩ := h.name
    exact hname ▸ slash_not_mem_splitQualified qualified
  nodes := by
    obtain ⟨node, new, -, -, htype⟩ := h.type
    exact namedFrom_readNode node _ _ _ _ _ htype

theorem Accepted.schemaNames {m : Model} {ws : List Diagnostic} (h : Accepted m ws) {s : Schema}
    (hs : s ∈ m.schemas.values) : SchemaNames s := by
  obtain ⟨document, _, _, hread, -⟩ := h.sectionsRead
  have hschemas := hread.schemas
  rw [readSchemas] at hschemas
  obtain ⟨items, -, hschemas⟩ := lift_bind_eq_read_iff.1 hschemas
  obtain ⟨entry, hentry, rfl⟩ := List.mem_map.1 hs
  refine foldlM_induction (motive := fun (schemas : Dict Uuid Schema) _ =>
    ∀ e ∈ schemas.entries, SchemaNames e.2) hschemas (by simp) ?_ entry hentry
  intro item _ before _ after _ hbefore hstep e he
  obtain ⟨s, hs, rfl⟩ := readSchema_eq_read hstep
  obtain rfl | he := Dict.mem_entries_insert he
  · exact hs.names
  · exact hbefore e he

/-- In an accepted document the nodes of each schema are named from the name of the schema. -/
theorem Accepted.namedFrom {m : Model} {ws : List Diagnostic} (h : Accepted m ws) {s : Schema}
    (hs : s ∈ m.schemas.values) : NamedFrom s.name false s.type :=
  (h.schemaNames hs).nodes

/-- The names handed down are made from the name of the node. -/
theorem exists_role_of_mem_handedDown {t c : TypeTree} {name : String}
    (h : (name, c) ∈ handedDown t) : ∃ role, name = nameFor t.name role := by
  have hinherit : ∀ s : String, s = nameFor s .inherit := fun s => by
    simp [nameFor, TypeTree.NameRole.suffix]
  cases t with
  | wrapper l kind child =>
    obtain ⟨rfl, -⟩ := Prod.mk.inj (List.mem_singleton.1 h)
    exact ⟨.inherit, hinherit _⟩
  | mapOf l key value =>
    rcases List.mem_cons.1 h with h | h
    · exact ⟨.key, (Prod.mk.inj h).1⟩
    · exact ⟨.value, (Prod.mk.inj (List.mem_singleton.1 h)).1⟩
  | combined l kind members =>
    obtain ⟨member, -, h⟩ := List.mem_map.1 h
    obtain ⟨rfl, -⟩ := Prod.mk.inj h
    exact ⟨.inherit, hinherit _⟩
  | object l entries =>
    obtain ⟨e, -, h⟩ := List.mem_map.1 h
    obtain ⟨rfl, -⟩ := Prod.mk.inj h
    exact ⟨.inherit, hinherit _⟩
  | scalar l kind | enumeration l symbols | pattern l expression | reference l target | unset l =>
    exact absurd h List.not_mem_nil

theorem slash_not_mem_nameFor {parent : String} (h : '/' ∉ parent.toList)
    (role : TypeTree.NameRole) : '/' ∉ (nameFor parent role).toList := by
  rw [nameFor, String.toList_append, List.mem_append, not_or]
  refine ⟨h, ?_⟩
  cases role <;> decide

/-- Trees named from a name without slashes have no slash in their names. -/
theorem NamedFrom.slash_not_mem {inherited : String} {nested : Bool} {t : TypeTree}
    (h : NamedFrom inherited nested t) (hslash : '/' ∉ inherited.toList) : '/' ∉ t.name.toList := by
  rw [h.name]
  unfold nodeName
  split
  · exact slash_not_mem_nameFor hslash .object
  · exact slash_not_mem_nameFor hslash .enum
  · exact hslash

end EventForge.Document
