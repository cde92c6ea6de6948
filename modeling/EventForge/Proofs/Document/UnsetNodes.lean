import EventForge.Proofs.Document.Accounting
import EventForge.Proofs.Document.Lossless
import EventForge.Proofs.Document.Names

/-!
# Where nodes are left unset

A node of a type tree is found by the steps that lead down to it, and so is the node of the
document that it was read from. Under the same steps an unset node has a warning at its place, and a
reference the identifier that its node spells (`Traced`). Of entries with one name only the last one
is left in the tree, so only its node is looked up. The induction is on the document; a node is
traced when the nodes right below it are (`Traced.of_below`).
-/

namespace EventForge.Document

open Reading

/-! ## Ways down -/

/-- The steps that lead from a node to one below it. -/
inductive Leads {α : Type} (below : α → List (String × α)) : α → List String → α → Prop where
  | here (a : α) : Leads below a [] a
  | step {a b c : α} {s : String} {path : List String} :
      (s, b) ∈ below a → Leads below b path c → Leads below a (s :: path) c

/-- The nodes right below a node of a type tree. -/
def branches : TypeTree → List (String × TypeTree)
  | .wrapper _ _ child => [("0", child)]
  | .mapOf _ key value => [("key", key), ("value", value)]
  | .combined _ _ members => members.zipIdx.map fun (t, i) => (Text.decimal i, t)
  | .object _ entries => entries
  | _ => []

/-- The name and the node of an entry of a map. -/
def namedPart? : Json → Option (String × Json)
  | .object entry =>
    match find? entry "entry", find? entry "schema" with
    | some (.string name), some schema => some (name, schema)
    | _, _ => none
  | _ => none

/-- The type nodes right below a type node; of entries with one name the last one. -/
def nodesBelow : Json → List (String × Json)
  | .object fields =>
    match declaredShape? fields, itemsOf fields "children" with
    | some (.wrapper _), child :: _ => [("0", child)]
    | some .mapOf, key :: value :: _ => [("key", key), ("value", value)]
    | some (.combinator _), members => members.zipIdx.map fun (c, i) => (Text.decimal i, c)
    | some .map, entries => (Dict.ofList (entries.filterMap namedPart?)).entries
    | _, _ => []
  | _ => []

/-- The place that steps lead to from a place. -/
def dotted (location : String) : List String → String
  | [] => location
  | s :: path => dotted (location ++ "." ++ s) path

/-- What is said of a type node that is left unset. -/
def unsetMessage? : Json → Option String
  | .object fields =>
    match find? fields "type" with
    | some (.string declared) =>
      match Shape.ofTag? (normalizeTag declared) with
      | none => some ("unknown shape '" ++ declared ++ "', left unset")
      | some shape => some ("shape '" ++ shape.text ++ "' is missing its children, left unset")
    | _ => none
  | _ => none

/-- The identifier that the node of a reference spells. -/
def writtenTarget? : Json → Option Uuid
  | .object fields =>
    match declaredShape? fields, itemsOf fields "children" with
    | some .ref, .object child :: _ =>
      match find? child "reference" with
      | some (.string id) => Uuid.ofText? id
      | _ => none
    | _, _ => none
  | _ => none

/-- Unset nodes of a tree that was read from a node at a place have a warning with their own place,
and references the identifier that is written there. -/
structure Traced (ws : List Diagnostic) (node : Json) (location : String) (t : TypeTree) :
    Prop where
  unset : ∀ path label, Leads branches t path (.unset label) →
    ∃ n message, Leads nodesBelow node path n ∧ unsetMessage? n = some message ∧
      warning message (dotted location path) ∈ ws
  reference : ∀ path label target, Leads branches t path (.reference label target) →
    ∃ n, Leads nodesBelow node path n ∧ writtenTarget? n = some target

/-- The tree owes nothing for its own node. -/
def Settled : TypeTree → Prop
  | .unset _ | .reference _ _ => False
  | _ => True

namespace Traced

variable {ws ws' : List Diagnostic} {node : Json} {location : String} {t : TypeTree}
  {label : Label}

theorem mono (h : Traced ws node location t) (hsub : ws ⊆ ws') : Traced ws' node location t where
  unset path label hpath := by
    obtain ⟨n, message, hn, hmessage, hmem⟩ := h.unset path label hpath
    exact ⟨n, message, hn, hmessage, hsub hmem⟩
  reference := h.reference

/-- A node is traced when it accounts for itself and the nodes right below it are traced. -/
theorem of_below
    (hunset : ∀ label, t = .unset label →
      ∃ message, unsetMessage? node = some message ∧ warning message location ∈ ws)
    (hreference : ∀ label target, t = .reference label target → writtenTarget? node = some target)
    (hbelow : ∀ s c, (s, c) ∈ branches t →
      ∃ n, (s, n) ∈ nodesBelow node ∧ Traced ws n (location ++ "." ++ s) c) :
    Traced ws node location t where
  unset path label hpath := by
    cases hpath with
    | here =>
      obtain ⟨message, hmessage, hmem⟩ := hunset label rfl
      exact ⟨node, message, .here node, hmessage, hmem⟩
    | step hs hrest =>
      obtain ⟨n, hn, htraced⟩ := hbelow _ _ hs
      obtain ⟨n', message, hn', hmessage, hmem⟩ := htraced.unset _ _ hrest
      exact ⟨n', message, .step hn hn', hmessage, hmem⟩
  reference path label target hpath := by
    cases hpath with
    | here => exact ⟨node, .here node, hreference label target rfl⟩
    | step hs hrest =>
      obtain ⟨n, hn, htraced⟩ := hbelow _ _ hs
      obtain ⟨n', hn', htarget⟩ := htraced.reference _ _ _ hrest
      exact ⟨n', .step hn hn', htarget⟩

/-- A node that is neither unset nor a reference only needs the nodes below it. -/
theorem inner (hsettled : Settled t)
    (hbelow : ∀ s c, (s, c) ∈ branches t →
      ∃ n, (s, n) ∈ nodesBelow node ∧ Traced ws n (location ++ "." ++ s) c) :
    Traced ws node location t := by
  refine of_below (fun _ h => ?_) (fun _ _ h => ?_) hbelow
  · rw [h] at hsettled
    exact hsettled.elim
  · rw [h] at hsettled
    exact hsettled.elim

theorem of_unset {message : String} (hmessage : unsetMessage? node = some message)
    (hmem : warning message location ∈ ws) : Traced ws node location (.unset label) := by
  refine of_below (fun _ _ => ⟨message, hmessage, hmem⟩) (fun _ _ h => ?_) fun _ _ h => ?_
  · cases h
  · cases h

theorem of_reference {target : Uuid} (htarget : writtenTarget? node = some target) :
    Traced ws node location (.reference label target) := by
  refine of_below (fun _ h => ?_) (fun _ _ h => ?_) fun _ _ h => ?_
  · cases h
  · cases h
    exact htarget
  · cases h

/-- A node without nodes below it that is neither unset nor a reference. -/
theorem of_leaf (hsettled : Settled t) (hbelow : branches t = []) : Traced ws node location t := by
  refine inner hsettled fun _ _ h => ?_
  rw [hbelow] at h
  cases h

end Traced

section Shape

variable {fields : List (String × Json)}
  {readPart : Part fields → String → String → Reading TypeTree} {parts : List (Part fields)}
  {shape : Shape} {label : Label} {location : String} {t : TypeTree} {ws : List Diagnostic}

/-- The children of a node are read as trees that are traced. -/
def ReadsTraced (readPart : Part fields → String → String → Reading TypeTree) : Prop :=
  ∀ part name place t ws, readPart part name place = .read t ws → Traced ws part.1 place t

/-- A node whose children are read as `parts`. -/
structure Parted (fields : List (String × Json)) (shape : Shape) (parts : List (Part fields)) :
    Prop where
  shape : declaredShape? fields = some shape
  parts : parts.map Subtype.val = itemsOf fields "children"

theorem unsetMessage?_of_declaredShape? (h : declaredShape? fields = some shape) :
    unsetMessage? (.object fields) =
      some ("shape '" ++ shape.text ++ "' is missing its children, left unset") := by
  rw [declaredShape?] at h
  cases htype : find? fields "type" with
  | none => simp [htype] at h
  | some declared =>
    cases declared with
    | string tag =>
      simp only [htype] at h
      simp only [unsetMessage?, htype, h]
    | _ => simp [htype] at h

theorem append_step (location : String) {step s : String} (h : step = "." ++ s) :
    location ++ step = location ++ "." ++ s := by
  rw [h, String.append_assoc]

theorem traced_wrapper {kind : Wrapper} {part : Part fields} {rest : List (Part fields)}
    {name : String} (hpart : ReadsTraced readPart)
    (hnode : Parted fields (.wrapper kind) (part :: rest))
    (hchild : readPart part name (location ++ ".0") = .read t ws) :
    Traced ws (.object fields) location (.wrapper label kind t) := by
  refine .inner trivial fun s c hc => ?_
  obtain ⟨rfl, rfl⟩ := Prod.mk.inj (List.mem_singleton.1 hc)
  rw [append_step location (s := "0") (by decide)] at hchild
  refine ⟨part.1, ?_, hpart _ _ _ _ _ hchild⟩
  simp [nodesBelow, hnode.shape, ← hnode.parts]

theorem traced_mapOf {k v : Part fields} {rest : List (Part fields)} {key value : TypeTree}
    {name name' : String} {ws' : List Diagnostic} (hpart : ReadsTraced readPart)
    (hnode : Parted fields .mapOf (k :: v :: rest))
    (hkey : readPart k name (location ++ ".key") = .read key ws)
    (hvalue : readPart v name' (location ++ ".value") = .read value ws') :
    Traced (ws ++ ws') (.object fields) location (.mapOf label key value) := by
  rw [append_step location (s := "key") (by decide)] at hkey
  rw [append_step location (s := "value") (by decide)] at hvalue
  have hnodes : nodesBelow (.object fields) = [("key", k.1), ("value", v.1)] := by
    simp [nodesBelow, hnode.shape, ← hnode.parts]
  refine .inner trivial fun s c hc => ?_
  rw [hnodes]
  rcases List.mem_cons.1 hc with hc | hc
  · obtain ⟨rfl, rfl⟩ := Prod.mk.inj hc
    exact ⟨k.1, by simp, (hpart _ _ _ _ _ hkey).mono (List.subset_append_left _ _)⟩
  · obtain ⟨rfl, rfl⟩ := Prod.mk.inj (List.mem_singleton.1 hc)
    exact ⟨v.1, by simp, (hpart _ _ _ _ _ hvalue).mono (List.subset_append_right _ _)⟩

theorem traced_combined {kind : Combinator} {members : List TypeTree} {name : String}
    (hpart : ReadsTraced readPart) (hnode : Parted fields (.combinator kind) parts)
    (hmembers : List.Forall₂ (fun part member => ∃ new,
      readPart part.1 name (location ++ "." ++ Text.decimal part.2) = .read member new ∧ new ⊆ ws)
      parts.zipIdx members) :
    Traced ws (.object fields) location (.combined label kind members) := by
  have hnodes : nodesBelow (.object fields) =
      (itemsOf fields "children").zipIdx.map fun (c, i) => (Text.decimal i, c) := by
    simp [nodesBelow, hnode.shape]
  refine .inner trivial fun s c hc => ?_
  obtain ⟨⟨member, i⟩, hmember, hstep⟩ := List.mem_map.1 hc
  obtain ⟨rfl, rfl⟩ := Prod.mk.inj hstep
  rw [List.mem_zipIdx_iff_getElem?] at hmember
  obtain ⟨hi, hget⟩ := List.getElem?_eq_some_iff.1 hmember
  have hi' : i < parts.zipIdx.length := by rwa [hmembers.length_eq]
  obtain ⟨new, hnew, hsub⟩ := hmembers.get hi' hi
  simp only [List.get_eq_getElem, List.getElem_zipIdx, Nat.zero_add] at hnew
  rw [hget] at hnew
  refine ⟨_, ?_, (hpart _ _ _ _ _ hnew).mono hsub⟩
  rw [hnodes, List.mem_map]
  refine ⟨(_, i), List.mem_zipIdx_iff_getElem?.2 ?_, rfl⟩
  rw [← hnode.parts]
  simp at hi'
  simp [hi']

theorem namedPart?_of_readEntry {child part : Part fields} {key : String}
    (h : readEntry child location = .ok (key, part)) :
    namedPart? child.1 = some (key, part.1) := by
  obtain ⟨entry, hchild, hkey, hschema⟩ := readEntry_eq_ok h
  simp [namedPart?, hchild, hkey, hschema]

/-- The entries of a map next to their nodes, before those with one name are brought together. -/
theorem related_entries (hpart : ReadsTraced readPart) {name : String}
    {ys : List ((String × TypeTree) × List Diagnostic)}
    (h : List.Forall₂ (fun child y => EntryRead readPart name location child y.1 y.2) parts ys) :
    List.Forall₂ (Related fun s n c => Traced (ys.flatMap Prod.snd) n (location ++ "." ++ s) c)
      ((parts.map Subtype.val).filterMap namedPart?) (ys.map Prod.fst) := by
  suffices hgen : ∀ all : List Diagnostic, ys.flatMap Prod.snd ⊆ all →
      List.Forall₂ (Related fun s n c => Traced all n (location ++ "." ++ s) c)
        ((parts.map Subtype.val).filterMap namedPart?) (ys.map Prod.fst) from
    hgen _ (List.Subset.refl _)
  intro all hall
  induction h with
  | nil => exact .nil
  | @cons child y parts ys hread _ ih =>
    obtain ⟨part, new, hentry, htype, hnew⟩ := hread
    rw [List.flatMap_cons, List.append_subset] at hall
    rw [List.map_cons, List.filterMap_cons_some (namedPart?_of_readEntry hentry), List.map_cons]
    exact .cons ⟨rfl, (hpart _ _ _ _ _ htype).mono (List.Subset.trans hnew hall.1)⟩ (ih hall.2)

theorem traced_map {entries : List (String × TypeTree)} {name : String}
    (hpart : ReadsTraced readPart) (hnode : Parted fields .map parts)
    (hentries : parts.foldlM (addEntry location readPart name) [] = .read entries ws) :
    Traced ws (.object fields) location (.object label entries) := by
  obtain ⟨ys, hys, rfl, rfl⟩ := foldlM_eq_read hentries fun _ _ _ _ => addEntry_eq_read
  have hnodes : nodesBelow (.object fields) =
      (Dict.ofList ((parts.map Subtype.val).filterMap namedPart?)).entries := by
    simp [nodesBelow, hnode.shape, hnode.parts]
  have hlast := Dict.forall₂_ofList (related_entries hpart hys)
  rw [Dict.entries_ofList (ys.map Prod.fst)] at hlast
  refine .inner trivial fun s c hc => ?_
  obtain ⟨⟨s', n⟩, hn, hname, htraced⟩ := exists_mem_of_forall₂ hlast hc
  obtain rfl : s' = s := hname
  exact ⟨n, hnodes ▸ hn, htraced⟩

theorem traced_ref {part : Part fields} {rest : List (Part fields)} {written : String}
    {target : Uuid} (hnode : Parted fields .ref (part :: rest))
    (hwritten : childText part.1 "reference" location = .ok written)
    (htarget : readId written location = .ok target) :
    Traced ws (.object fields) location (.reference label target) := by
  obtain ⟨child, hchild, hfind⟩ := childText_eq_ok hwritten
  refine .of_reference ?_
  simp [writtenTarget?, hnode.shape, ← hnode.parts, hchild, hfind, readId_eq_ok_iff.1 htarget]

theorem traced_shapeRead (hpart : ReadsTraced readPart) (hnode : Parted fields shape parts)
    (h : ShapeRead readPart label location shape parts t ws) :
    Traced ws (.object fields) location t := by
  cases h with
  | childless _ _ => exact .of_unset (unsetMessage?_of_declaredShape? hnode.shape) (by simp)
  | wrapper hchild => exact traced_wrapper hpart hnode hchild
  | mapOf hkey hvalue => exact traced_mapOf hpart hnode hkey hvalue
  | combined hmembers => exact traced_combined hpart hnode hmembers
  | map hentries => exact traced_map hpart hnode hentries
  | ref hwritten htarget => exact traced_ref hnode hwritten htarget
  | enum _ | re _ | scalar | surplus => exact .of_leaf trivial rfl

end Shape

/-- Every tree that is read is traced to its node. -/
theorem traced_readNode (node : Json) : ∀ (inherited : String) (nested : Bool) (location : String)
    (t : TypeTree) (ws : List Diagnostic), readNode node inherited nested location = .read t ws →
      Traced ws node location t := by
  refine readNode_induction (motive := fun node _ _ location t ws => Traced ws node location t)
    (fun fields inherited nested location t ws ih h => ?_) node
  cases h with
  | @unknown declared _ _ htype hshape _ =>
    have hmessage : unsetMessage? (.object fields) =
        some ("unknown shape '" ++ declared ++ "', left unset") := by
      simp only [unsetMessage?, htype, hshape]
    exact .of_unset hmessage (by simp)
  | known htype hshape _ hparts hread =>
    have hnode : Parted fields _ _ := ⟨declaredShape?_eq htype hshape, childrenOf_eq_ok hparts⟩
    exact (traced_shapeRead ih hnode hread).mono (List.subset_append_right _ _)

/-! ## Schemas -/

/-- A schema that was read from a member of its section, with its type traced to its type node. -/
structure SchemaTraced (ws : List Diagnostic) (member : String × Json) (e : Uuid × Schema) :
    Prop where
  key : Uuid.ofText? member.1 = some e.1
  type : ∃ node, schemaNode? member.2 = some node ∧
    Traced ws node (Section.schemas.text ++ "." ++ member.1) e.2.type

theorem SchemaTraced.mono {ws ws' : List Diagnostic} {member : String × Json} {e : Uuid × Schema}
    (h : SchemaTraced ws member e) (hsub : ws ⊆ ws') : SchemaTraced ws' member e where
  key := h.key
  type := by
    obtain ⟨node, hnode, htraced⟩ := h.type
    exact ⟨node, hnode, htraced.mono hsub⟩

theorem readMember_schema_eq_read {schemas next : Dict Uuid Schema} {member : String × Json}
    {ws : List Diagnostic}
    (h : readMember Section.schemas.text readSchema schemas member = .read next ws) :
    ∃ e, SchemaTraced ws member e ∧ next = schemas.insert e.1 e.2 := by
  obtain ⟨entry, hentry, hread⟩ := lift_bind_eq_read_iff.1 h
  obtain ⟨hkey, hvalue, hlocation⟩ := readKeyed_eq_ok hentry
  obtain ⟨s, hs, rfl⟩ := readSchema_eq_read hread
  obtain ⟨node, new, hnode, hnew, htype⟩ := hs.type
  have htraced := (traced_readNode _ _ _ _ _ _ htype).mono hnew
  rw [hlocation] at htraced
  exact ⟨(entry.key, s), ⟨hkey, node, hvalue ▸ hnode, htraced⟩, rfl⟩

theorem exists_schemaTraced {o : Fields} {schemas : Dict Uuid Schema} {ws : List Diagnostic}
    (h : readSchemas o = .read schemas ws) : ∀ e ∈ schemas.entries,
      ∃ member ∈ membersOf o.fields Section.schemas.member, SchemaTraced ws member e := by
  have hsection : readEntries .schemas readSchema ∅ o = .read schemas ws := h
  have hfold := (readEntries_eq_read hsection).1
  obtain ⟨ys, hys, rfl, rfl⟩ := foldlM_eq_read hfold fun _ _ _ _ => readMember_schema_eq_read
  intro e he
  obtain ⟨y, hy, rfl⟩ := List.mem_map.1 (Dict.mem_of_mem_ofList he)
  obtain ⟨member, hmember, htraced⟩ := exists_mem_of_forall₂ hys hy
  exact ⟨member, hmember, htraced.mono fun d hd => List.mem_flatMap.2 ⟨y, hy, hd⟩⟩

/-- Every unset node of a schema, at any depth, has a warning at its own place below the entry of
the schema, and every reference has the identifier that its node spells. So without warnings no node
is unset. -/
structure UnsetAccounted (document : Json) (m : Model) (ws : List Diagnostic) : Prop where
  traced : ∀ e ∈ m.schemas.entries,
    ∃ member ∈ membersOf (modelMembers document) Section.schemas.member, SchemaTraced ws member e
  quiet : ws = [] → ∀ s ∈ m.schemas.values, ∀ path label,
    ¬ Leads branches s.type path (.unset label)

theorem unsetAccounted_of_ofJson {document : Json} {m : Model} {ws : List Diagnostic}
    (h : ofJson document = .read m ws) : UnsetAccounted document m ws := by
  obtain ⟨_, o, version, parts, -, hparts, hfields, hws⟩ := exists_of_ofJson h
  have hsub : parts.schemas ⊆ ws := by
    rw [hws, SectionWarnings.all]
    intro d hd
    simp [hd]
  have htraced : ∀ e ∈ m.schemas.entries,
      ∃ member ∈ membersOf (modelMembers document) Section.schemas.member,
        SchemaTraced ws member e := by
    intro e he
    obtain ⟨member, hmember, hread⟩ := exists_schemaTraced hparts.schemas e he
    exact ⟨member, hfields ▸ hmember, hread.mono hsub⟩
  refine ⟨htraced, fun hnone s hs path label hpath => ?_⟩
  obtain ⟨e, he, rfl⟩ := List.mem_map.1 hs
  obtain ⟨member, -, hread⟩ := htraced e he
  obtain ⟨node, -, htype⟩ := hread.type
  obtain ⟨_, _, -, -, hmem⟩ := htype.unset path label hpath
  rw [hnone] at hmem
  cases hmem

/-- Nothing is left unset silently in an accepted document, be it a text or the value in it. -/
theorem unset_accounted :
    (∀ text m ws, ofText text = .read m ws →
      ∃ document, Json.ofText? text = some document ∧ UnsetAccounted document m ws) ∧
    ∀ document m ws, ofJson document = .read m ws → UnsetAccounted document m ws := by
  refine ⟨fun text m ws h => ?_, fun _ _ _ => unsetAccounted_of_ofJson⟩
  rw [ofText] at h
  split at h
  · next document hdocument => exact ⟨document, hdocument, unsetAccounted_of_ofJson h⟩
  · cases h

/-- A document with a list of lines whose type is not known. -/
def unknownLine : Json :=
  .object [("spec-version", .string "0.1.0-beta"), ("event-model", .object
    [("event-model/id", .string "11111111-1111-1111-1111-111111111111"),
      ("event-model/name", .string "Shop"),
      ("event-model/schemas", .object
        [("22222222-2222-2222-2222-222222222222", .object
          [("schema/id", .string "22222222-2222-2222-2222-222222222222"),
            ("schema/name", .string "Order"),
            ("schema/schema", bareNode ":map" [.object [("entry", .string "lines"),
              ("schema", bareNode ":vector" [bareNode ":money" []])]])])])])]

theorem exists_unset_of_shape {t : TypeTree} (h : t.shape = .unknown) :
    ∃ label, t = .unset label := by
  cases t with
  | unset label => exact ⟨label, rfl⟩
  | _ => cases h

theorem unset_accounted_unknownLine :
    ∃ m ws, ofJson unknownLine = .read m ws ∧
      (∃ s ∈ m.schemas.values, ∃ label, Leads branches s.type ["lines", "0"] (.unset label)) ∧
      ∃ message, warning message "schemas.22222222-2222-2222-2222-222222222222.lines.0" ∈ ws := by
  -- what is evaluated are the shapes of the nodes two steps below the type of each schema
  obtain ⟨m, ws, hread, hshapes⟩ := @exists_read_of_map Model _ (ofJson unknownLine)
    (fun e => e.1.schemas.entries.map fun entry =>
      (branches entry.2.type).map fun b => (b.1, (branches b.2).map fun c => (c.1, c.2.shape)))
    [[("lines", [("0", .unknown)])]] (by decide +kernel)
  obtain ⟨e, hentries, hlines⟩ := List.map_eq_singleton_iff.1 hshapes
  have he : e ∈ m.schemas.entries := by
    dsimp only at hentries
    simp [hentries]
  obtain ⟨⟨s, lines⟩, hbranches, hline⟩ := List.map_eq_singleton_iff.1 hlines
  obtain ⟨rfl, hitems⟩ := Prod.mk.inj hline
  obtain ⟨⟨s', line⟩, hbelow, hitem⟩ := List.map_eq_singleton_iff.1 hitems
  obtain ⟨rfl, hshape⟩ := Prod.mk.inj hitem
  obtain ⟨label, rfl⟩ := exists_unset_of_shape hshape
  have hleads : Leads branches e.2.type ["lines", "0"] (.unset label) :=
    .step (b := lines) (by simp [hbranches]) (.step (by simp [hbelow]) (.here _))
  obtain ⟨member, hmember, hschema⟩ := (unset_accounted.2 _ _ _ hread).traced e he
  obtain ⟨node, -, htype⟩ := hschema.type
  obtain ⟨_, message, -, -, hmem⟩ := htype.unset _ _ hleads
  have hkeys : (membersOf (modelMembers unknownLine) Section.schemas.member).map Prod.fst =
      ["22222222-2222-2222-2222-222222222222"] := by decide +kernel
  have hkey : member.1 = "22222222-2222-2222-2222-222222222222" := by
    have hmap := List.mem_map_of_mem (f := Prod.fst) hmember
    rw [hkeys] at hmap
    exact List.mem_singleton.1 hmap
  rw [hkey] at hmem
  exact ⟨m, ws, hread, ⟨e.2, List.mem_map_of_mem he, label, hleads⟩, message, hmem⟩

end EventForge.Document
