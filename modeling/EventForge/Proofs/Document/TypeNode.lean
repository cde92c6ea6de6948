import EventForge.Proofs.Document.Fields
import EventForge.Proofs.Text.Casing
import Mathlib.Data.List.Nodup

/-!
# Reading type nodes back

The printed node of a well-formed tree is read as that tree and raises no warning
(`readNode_printType`). The induction is on the tree; the names that a node hands down are those
that its children have, so the hypothesis passes from a tree to its parts.
-/

namespace EventForge.Document

open Reading TypeTree

/-- The letters of the texts of shapes are those of tags, and tell the shapes apart with `_` for `-`
as well. -/
theorem exists_letters_of_texts : ∃ css : List (List Char),
    List.Forall₂ (fun (shape : Shape) cs => shape.text = String.ofList cs) Shape.declarable css ∧
      (∀ cs ∈ css, cs.all Text.tagChars.contains) ∧
      (css.map fun cs => cs.map fun c => if c = '-' then '_' else c).Nodup := by
  apply Exists.intro
  refine ⟨?_, ?_, ?_⟩
  · unfold Shape.declarable
    repeat (apply List.Forall₂.cons; · rfl)
    exact .nil
  · decide
  · decide

theorem isTag_shape (shape : Shape) (h : shape ∈ Shape.declarable) : Text.isTag shape.text := by
  obtain ⟨css, hcss, hletters, -⟩ := exists_letters_of_texts
  obtain ⟨cs, hcs, htext⟩ := exists_mem_of_forall₂ hcss.flip h
  rw [htext, Text.isTag, String.toList_ofList]
  exact hletters cs hcs

theorem nodup_tags : (Shape.declarable.map Shape.tag).Nodup := by
  obtain ⟨css, hcss, -, hnodup⟩ := exists_letters_of_texts
  have htags : Shape.declarable.map Shape.tag =
      (css.map fun cs => cs.map fun c => if c = '-' then '_' else c).map String.ofList := by
    rw [List.map_map]
    refine map_eq_map_of_forall₂ (hcss.imp fun shape cs htext => ?_)
    rw [Shape.tag, Text.replaceChar, htext, String.toList_ofList]
    rfl
  rw [htags]
  exact hnodup.map fun _ _ h => String.ofList_injective h

theorem ofTag?_tag (shape : Shape) (h : shape ∈ Shape.declarable) :
    Shape.ofTag? shape.tag = some shape := by
  rw [Shape.ofTag?]
  cases hfound : Shape.declarable.find? fun s => s.tag = shape.tag with
  | none => simpa using List.find?_eq_none.1 hfound shape h
  | some found =>
    have htag : found.tag = shape.tag := by simpa using List.find?_some hfound
    rw [List.inj_on_of_nodup_map nodup_tags (List.mem_of_find?_eq_some hfound) h htag]

/-- The tag that is written for a shape leads back to it. -/
theorem ofTag?_normalizeTag {shape : Shape} (h : shape ∈ Shape.declarable) :
    Shape.ofTag? (normalizeTag (":" ++ shape.text)) = some shape := by
  have hbare : (":" ++ shape.text).toList = ':' :: shape.text.toList := by simp
  rw [normalizeTag, hbare]
  simp only [String.ofList_toList]
  rw [Text.lower_of_isTag (isTag_shape shape h)]
  exact ofTag?_tag shape h

theorem readProperty_printProperty (location : String) (bag : Dict String String)
    (entry : String × String) :
    readProperty location bag (printProperty entry) = .read (bag.insert entry.1 entry.2) [] := by
  have hkey : (Fields.mk [("key", .string entry.1), ("value", .string entry.2)] location).text "key"
      = .ok entry.1 := Fields.text_of_find (by simp)
  simp [readProperty, printProperty, Fields.ofJson, hkey, Fields.value?, Json.scalarText?, pure_eq]

theorem readProperties_of_find {node : Fields} {properties : Option (Dict String String)}
    (h : find? node.fields "properties"
      = properties.map fun bag => .array (bag.entries.map printProperty)) :
    readProperties node = .read properties [] := by
  have harray : node.array? "properties"
      = .ok (properties.map fun bag => bag.entries.map printProperty) := by
    refine Fields.array?_of_find _ (h.trans ?_)
    rw [Option.map_map]
    rfl
  rw [readProperties, harray, lift_ok, read_nil_bind]
  cases properties with
  | none => rfl
  | some bag =>
    simp only [Option.map_some]
    rw [foldlM_insert bag fun e _ acc => readProperty_printProperty _ acc e, read_nil_bind]
    rfl

/-- The children of a printed node, none for a shape without children. -/
theorem childrenOf_of_find (node : Fields) (children : Option (List Json))
    (h : find? node.fields "children" = children.map .array) :
    ∃ parts, childrenOf node = .ok parts ∧ parts.map Subtype.val = children.getD [] := by
  rw [childrenOf]
  split
  · next hnone =>
    cases children with
    | none => exact ⟨[], rfl, rfl⟩
    | some items => simp [hnone] at h
  · next hnull => cases children <;> simp [hnull] at h
  · next items hitems =>
    cases children with
    | none => simp [hitems] at h
    | some items' =>
      obtain rfl : items = items' := by simpa [hitems] using h
      exact ⟨_, rfl, by simp⟩
  · next harray hsome =>
    cases children with
    | none => simp [hsome] at h
    | some items => exact (harray items (Option.some.inj (hsome.symm.trans h))).elim

/-- A node of a known shape is read by what the shape does with its children. -/
theorem readNode_object {fields : List (String × Json)} {inherited location declared : String}
    {nested : Bool} {shape : Shape} {bag : Option (Dict String String)}
    {children : Option (List Json)} (htype : find? fields "type" = some (.string declared))
    (hshape : Shape.ofTag? (normalizeTag declared) = some shape)
    (hbag : readProperties ⟨fields, location⟩ = .read bag [])
    (hchildren : find? fields "children" = children.map .array) :
    ∃ parts : List (Part fields), parts.map Subtype.val = children.getD [] ∧
      readNode (.object fields) inherited nested location =
        readShape shape ⟨nodeName shape nested inherited, bag⟩ location parts
          fun part name place => readNode part.1 name true place := by
  have htext : (Fields.mk fields location).text "type" = .ok declared := Fields.text_of_find htype
  obtain ⟨parts, hparts, hvals⟩ := childrenOf_of_find ⟨fields, location⟩ children hchildren
  refine ⟨parts, hvals, ?_⟩
  rw [readNode]
  simp only [readObject, htext, hbag, hparts, lift_ok, read_nil_bind, hshape]

/-- A printed node is read by what its shape does with its children. -/
theorem readNode_printNode (shape : Shape) (hshape : shape ∈ Shape.declarable) (label : Label)
    (children : Option (List Json)) (inherited : String) (nested : Bool) (location : String) :
    ∃ (fields : List (String × Json)) (parts : List (Part fields)),
      parts.map Subtype.val = children.getD [] ∧
        readNode (printNode shape label children) inherited nested location =
          readShape shape ⟨nodeName shape nested inherited, label.properties⟩ location parts
            fun part name place => readNode part.1 name true place := by
  rw [printNode]
  generalize hfields : ("type", Json.string (":" ++ shape.text)) :: _ = fields
  have hbag : readProperties ⟨fields, location⟩ = .read label.properties [] :=
    readProperties_of_find (by simp [← hfields])
  have hchildren : find? fields "children" = children.map .array := by simp [← hfields]
  obtain ⟨parts, hvals, hread⟩ := readNode_object (by simp [← hfields])
    (ofTag?_normalizeTag hshape) hbag hchildren
  exact ⟨fields, parts, hvals, hread⟩

/-- The single child of a node. -/
theorem eq_singleton_of_map {fields : List (String × Json)} {parts : List (Part fields)}
    {json : Json} (h : parts.map Subtype.val = [json]) :
    ∃ part, parts = [part] ∧ part.1 = json := by
  obtain ⟨part, rest, rfl, hpart, hrest⟩ := List.map_eq_cons_iff.1 h
  exact ⟨part, by rw [List.map_eq_nil_iff.1 hrest], hpart⟩

/-- An entry of a printed map is cut into its name and its node. -/
theorem readEntry_of_eq {fields : List (String × Json)} {child : Part fields} {name : String}
    {node : Json} (h : child.1 = .object [("entry", .string name), ("schema", node)])
    (location : String) :
    ∃ part : Part fields, readEntry child location = .ok (name, part) ∧ part.1 = node := by
  obtain ⟨json, hlt⟩ := child
  dsimp only at h
  subst h
  have hname : (Fields.mk [("entry", .string name), ("schema", node)] location).text "entry"
      = .ok name := Fields.text_of_find (by simp)
  simp only [readEntry, hname]
  split
  · next hnone => simp at hnone
  · next schema hschema =>
    obtain rfl : node = schema := by simpa using hschema
    exact ⟨_, rfl, rfl⟩

theorem childText_of_eq {key text : String} (location : String) :
    childText (.object [(key, .string text)]) key location = .ok text :=
  Fields.text_of_find (by simp)

/-- The symbols of a printed enum. -/
theorem mapM_childText {fields : List (String × Json)} {parts : List (Part fields)}
    {symbols : List String}
    (h : parts.map Subtype.val = symbols.map fun s => .object [("symbol", .string s)])
    (location : String) :
    parts.mapM (fun c => (liftM (childText c.1 "symbol" location) : Reading String))
      = .read symbols [] := by
  induction symbols generalizing parts with
  | nil =>
    rw [List.map_eq_nil_iff.1 h]
    rfl
  | cons s symbols ih =>
    obtain ⟨part, rest, rfl, hpart, hrest⟩ := List.map_eq_cons_iff.1 h
    rw [List.mapM_cons, hpart, childText_of_eq, lift_ok, read_nil_bind, ih hrest, read_nil_bind]
    rfl

/-- What is read from a printed node. -/
def ReadsBack (t : TypeTree) : Prop :=
  ∀ (inherited : String) (nested : Bool) (location : String), t.wellFormed inherited nested →
    readNode (printType t) inherited nested location = .read t []

/-- The members of a printed combinator, the first of which is the one at `start`. -/
theorem mapM_readNode {fields : List (String × Json)} {parts : List (Part fields)}
    {members : List TypeTree} (hback : ∀ t ∈ members, ReadsBack t)
    (hvals : parts.map Subtype.val = printMembers members) {name : String}
    (hwell : wellFormedMembers name members) (location : String) (start : Nat) :
    (parts.zipIdx start).mapM (fun part : Part fields × Nat =>
      readNode part.1.1 name true (location ++ "." ++ Text.decimal part.2)) = .read members [] := by
  induction members generalizing parts start with
  | nil =>
    rw [printMembers, List.map_eq_nil_iff] at hvals
    rw [hvals]
    rfl
  | cons t members ih =>
    obtain ⟨part, rest, rfl, hpart, hrest⟩ := List.map_eq_cons_iff.1 hvals
    rw [wellFormedMembers, Bool.and_eq_true] at hwell
    rw [List.zipIdx_cons, List.mapM_cons, hpart, hback t (by simp) _ _ _ hwell.1, read_nil_bind,
      ih (fun t ht => hback t (by simp [ht])) hrest hwell.2, read_nil_bind]
    rfl

/-- The entries of a printed map, read behind others. -/
theorem foldlM_addEntry {fields : List (String × Json)} {parts : List (Part fields)}
    {entries : List (String × TypeTree)} (read : List (String × TypeTree))
    (hback : ∀ e ∈ entries, ReadsBack e.2)
    (hvals : parts.map Subtype.val = printEntries entries) {name : String}
    (hwell : wellFormedEntries name entries) (hkeys : ((read ++ entries).map Prod.fst).Nodup)
    (location : String) :
    parts.foldlM (addEntry location (fun part name place => readNode part.1 name true place) name)
      read = .read (read ++ entries) [] := by
  induction entries generalizing parts read with
  | nil =>
    rw [printEntries, List.map_eq_nil_iff] at hvals
    rw [hvals, List.append_nil]
    rfl
  | cons e entries ih =>
    obtain ⟨key, t⟩ := e
    obtain ⟨part, rest, rfl, hpart, hrest⟩ := List.map_eq_cons_iff.1 hvals
    rw [wellFormedEntries, Bool.and_eq_true] at hwell
    obtain ⟨node, hentry, hnode⟩ := readEntry_of_eq hpart location
    have hfresh : key ∉ read.map Prod.fst := by
      rw [List.map_append, List.map_cons, List.nodup_append] at hkeys
      exact fun hmem => hkeys.2.2 key hmem key (by simp) rfl
    have hunknown : (find? read key).isSome = false := by
      rw [Bool.eq_false_iff, ne_eq, find?_isSome_iff]
      exact hfresh
    have hstep : addEntry location (fun part name place => readNode part.1 name true place) name
        read part = .read (read ++ [(key, t)]) [] := by
      simp only [addEntry, hentry, lift_ok, read_nil_bind, hnode,
        hback (key, t) (by simp) _ _ _ hwell.1, hunknown, upsert_of_not_mem hfresh]
      rfl
    rw [List.foldlM_cons, hstep, read_nil_bind,
      ih (read ++ [(key, t)]) (fun e he => hback e (by simp [he])) hrest hwell.2
        (by simpa using hkeys)]
    simp

theorem ReadsBack.wrapper {child : TypeTree} (hchild : ReadsBack child) (l : Label)
    (kind : Wrapper) : ReadsBack (.wrapper l kind child) := by
  intro inherited nested location hwell
  simp only [wellFormed, Bool.and_eq_true, decide_eq_true_eq] at hwell
  obtain ⟨rfl, hwell⟩ := hwell
  obtain ⟨fields, parts, hvals, hread⟩ := readNode_printNode (.wrapper kind)
    (by cases kind <;> decide) l (some [printType child]) l.name nested location
  obtain ⟨part, rfl, hpart⟩ := eq_singleton_of_map hvals
  rw [printType, hread]
  unfold readShape
  simp only [nodeName, hpart, hchild _ _ _ hwell, read_nil_bind]
  rfl

theorem ReadsBack.mapOf {key value : TypeTree} (hkey : ReadsBack key) (hvalue : ReadsBack value)
    (l : Label) : ReadsBack (.mapOf l key value) := by
  intro inherited nested location hwell
  simp only [wellFormed, Bool.and_eq_true, decide_eq_true_eq] at hwell
  obtain ⟨⟨rfl, hwellKey⟩, hwellValue⟩ := hwell
  obtain ⟨fields, parts, hvals, hread⟩ := readNode_printNode .mapOf (by decide) l
    (some [printType key, printType value]) l.name nested location
  obtain ⟨k, rest, rfl, hk, hrest⟩ := List.map_eq_cons_iff.1 hvals
  obtain ⟨v, rfl, hv⟩ := eq_singleton_of_map hrest
  rw [printType, hread]
  unfold readShape
  simp only [nodeName, hk, hv, hkey _ _ _ hwellKey, hvalue _ _ _ hwellValue,
    read_nil_bind]
  rfl

theorem ReadsBack.combined {members : List TypeTree} (hmembers : ∀ t ∈ members, ReadsBack t)
    (l : Label) (kind : Combinator) : ReadsBack (.combined l kind members) := by
  intro inherited nested location hwell
  simp only [wellFormed, Bool.and_eq_true, decide_eq_true_eq] at hwell
  obtain ⟨rfl, hwell⟩ := hwell
  obtain ⟨fields, parts, hvals, hread⟩ := readNode_printNode (.combinator kind)
    (by cases kind <;> decide) l (some (printMembers members)) l.name nested location
  rw [printType, hread]
  unfold readShape
  simp only [nodeName, mapM_readNode hmembers hvals hwell, read_nil_bind]
  rfl

theorem ReadsBack.object {entries : List (String × TypeTree)}
    (hentries : ∀ e ∈ entries, ReadsBack e.2) (l : Label) : ReadsBack (.object l entries) := by
  intro inherited nested location hwell
  simp only [wellFormed, Bool.and_eq_true, decide_eq_true_eq] at hwell
  obtain ⟨⟨hname, hkeys⟩, hwell⟩ := hwell
  obtain ⟨fields, parts, hvals, hread⟩ := readNode_printNode .map (by decide) l
    (some (printEntries entries)) inherited nested location
  have hlabel : nodeName .map nested inherited = l.name := by
    cases nested <;> simp [nodeName, hname]
  rw [printType, hread]
  unfold readShape
  simp only [hlabel, foldlM_addEntry [] hentries hvals hwell hkeys, read_nil_bind]
  rfl

theorem readsBack_scalar (l : Label) (kind : Scalar) : ReadsBack (.scalar l kind) := by
  intro inherited nested location hwell
  simp only [wellFormed, decide_eq_true_eq] at hwell
  subst hwell
  obtain ⟨fields, parts, hvals, hread⟩ := readNode_printNode (.scalar kind)
    (by cases kind <;> decide) l none l.name nested location
  obtain rfl := List.map_eq_nil_iff.1 hvals
  rw [printType, hread]
  rfl

theorem readsBack_enumeration (l : Label) (symbols : List String) :
    ReadsBack (.enumeration l symbols) := by
  intro inherited nested location hwell
  simp only [wellFormed, decide_eq_true_eq] at hwell
  obtain ⟨fields, parts, hvals, hread⟩ := readNode_printNode .enum (by decide) l
    (some (symbols.map fun s => .object [("symbol", .string s)])) inherited nested location
  have hlabel : nodeName .enum nested inherited = l.name := by
    cases nested <;> simp [nodeName, hwell]
  rw [printType, hread]
  unfold readShape
  simp only [hlabel, mapM_childText hvals, read_nil_bind]
  rfl

theorem readsBack_pattern (l : Label) (expression : String) :
    ReadsBack (.pattern l expression) := by
  intro inherited nested location hwell
  simp only [wellFormed, decide_eq_true_eq] at hwell
  subst hwell
  obtain ⟨fields, parts, hvals, hread⟩ := readNode_printNode .re (by decide) l
    (some [.object [("expression", .string expression)]]) l.name nested location
  obtain ⟨part, rfl, hpart⟩ := eq_singleton_of_map hvals
  rw [printType, hread]
  unfold readShape
  simp only [nodeName, hpart, childText_of_eq, lift_ok, read_nil_bind]
  rfl

theorem readsBack_reference (l : Label) (target : Uuid) : ReadsBack (.reference l target) := by
  intro inherited nested location hwell
  simp only [wellFormed, decide_eq_true_eq] at hwell
  subst hwell
  obtain ⟨fields, parts, hvals, hread⟩ := readNode_printNode .ref (by decide) l
    (some [.object [("reference", printId target)]]) l.name nested location
  obtain ⟨part, rfl, hpart⟩ := eq_singleton_of_map hvals
  rw [printType, hread]
  unfold readShape
  simp only [nodeName, hpart, printId, childText_of_eq, readId_toText, lift_ok,
    read_nil_bind]
  rfl

mutual

theorem readsBack : (t : TypeTree) → ReadsBack t
  | .scalar l kind => readsBack_scalar l kind
  | .wrapper l kind child => (readsBack child).wrapper l kind
  | .mapOf l key value => (readsBack key).mapOf (readsBack value) l
  | .combined l kind members => .combined (readsBack_members members) l kind
  | .object l entries => .object (readsBack_entries entries) l
  | .enumeration l symbols => readsBack_enumeration l symbols
  | .pattern l expression => readsBack_pattern l expression
  | .reference l target => readsBack_reference l target
  | .unset _ => fun _ _ _ hwell => absurd hwell (by simp [wellFormed])

theorem readsBack_members : (members : List TypeTree) → ∀ t ∈ members, ReadsBack t
  | [] => by simp
  | t :: ts => List.forall_mem_cons.2 ⟨readsBack t, readsBack_members ts⟩

theorem readsBack_entries : (entries : List (String × TypeTree)) → ∀ e ∈ entries, ReadsBack e.2
  | [] => by simp
  | (_, t) :: es => List.forall_mem_cons.2 ⟨readsBack t, readsBack_entries es⟩

end

/-- The printed node of a well-formed tree is read as that tree, without a warning. -/
theorem readNode_printType {t : TypeTree} {inherited : String} {nested : Bool}
    (h : t.wellFormed inherited nested) (location : String) :
    readNode (printType t) inherited nested location = .read t [] :=
  readsBack t inherited nested location h

end EventForge.Document
