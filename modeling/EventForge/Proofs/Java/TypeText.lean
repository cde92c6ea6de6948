import EventForge.Proofs.Java.Resolve
import EventForge.Proofs.Model

/-!
# Reading types back

The text of a type is read from left to right: a name, and behind an opening bracket the arguments
of a container. The reader gives back the type without its optional values whenever the names in it
are plain (`ofText?_text_iff`), so types with one text are the same type but for optional values,
and the containers of a type tree stand in the text of its type (`text_readable`).
-/

namespace EventForge.Java

namespace Primitive

def all : List Primitive := [string, int, double, bool, uuid, any, nil]

/-- The primitive that is written with a name, boxed or not. -/
def ofText? (name : String) : Option Primitive :=
  all.find? fun p => p.text true = name ∨ p.text false = name

theorem ofText?_text (p : Primitive) (boxed : Bool) : ofText? (p.text boxed) = some p := by
  cases p <;> cases boxed <;> decide

theorem ofText?_eq_none_iff {name : String} :
    ofText? name = none ↔ ∀ (p : Primitive) (boxed : Bool), name ≠ p.text boxed := by
  have hall (p : Primitive) : p ∈ all := by cases p <;> decide
  rw [ofText?, List.find?_eq_none]
  constructor
  · intro h p boxed hname
    have hp := h p (hall p)
    cases boxed <;> simp [hname] at hp
  · intro h p _
    have htrue := h p true
    have hfalse := h p false
    simp [htrue.symm, hfalse.symm]

end Primitive

namespace Collection

/-- The collection that is written with a name. -/
def ofText? (name : String) : Option Collection :=
  [vector, sequence, set].find? fun kind => kind.text = name

theorem ofText?_text (kind : Collection) : ofText? kind.text = some kind := by
  cases kind <;> decide

end Collection

/-- A character that sets no type off from another. -/
def isNameChar (c : Char) : Bool := c ≠ '<' && c ≠ '>' && c ≠ ',' && c ≠ ' '

/-- A name of a class that cannot be taken for anything else in the text of a type. -/
structure PlainName (name : String) : Prop where
  nonempty : name ≠ ""
  unbroken : ∀ c ∈ name.toList, isNameChar c
  own : ∀ (p : Primitive) (boxed : Bool), name ≠ p.text boxed

/-- The containers in a type, and how they nest. -/
inductive Outline where
  | leaf
  | collection (kind : Collection) (element : Outline)
  | map (key value : Outline)
  deriving DecidableEq, Repr

namespace TypeRef

/-- The type without the optional values in it. -/
def required : TypeRef → TypeRef
  | primitive p => primitive p
  | named name => named name
  | collection kind element => collection kind element.required
  | map key value => map key.required value.required
  | optional inner => inner.required

/-- All names of classes in the type are plain. -/
def HasPlainNames (t : TypeRef) : Prop := ∀ name ∈ t.names, PlainName name

def outline : TypeRef → Outline
  | collection kind element => .collection kind element.outline
  | map key value => .map key.outline value.outline
  | optional inner => inner.outline
  | _ => .leaf

theorem names_required (t : TypeRef) : t.required.names = t.names := by
  induction t with
  | primitive | named => rfl
  | collection kind element ih => exact ih
  | map key value ihKey ihValue => simp only [required, names, ihKey, ihValue]
  | optional inner ih => exact ih

theorem hasPlainNames_required (t : TypeRef) : t.required.HasPlainNames ↔ t.HasPlainNames := by
  rw [HasPlainNames, names_required, HasPlainNames]

theorem hasPlainNames_map {key value : TypeRef} :
    (map key value).HasPlainNames ↔ key.HasPlainNames ∧ value.HasPlainNames :=
  List.forall_mem_append

theorem outline_required (t : TypeRef) : t.required.outline = t.outline := by
  induction t with
  | primitive | named => rfl
  | collection kind element ih => exact congrArg (Outline.collection kind) ih
  | map key value ihKey ihValue => simp only [required, outline, ihKey, ihValue]
  | optional inner ih => exact ih

/-! ## The reader -/

/-- The type that a name without arguments stands for. -/
def leaf (name : String) : TypeRef :=
  match Primitive.ofText? name with
  | some p => primitive p
  | none => named name

/-- Reads the arguments of a container, the closing bracket included. -/
def readArguments (readType : List Char → Option (TypeRef × List Char)) (container : String)
    (cs : List Char) : Option (TypeRef × List Char) :=
  match Collection.ofText? container with
  | some kind =>
    match readType cs with
    | some (element, '>' :: rest) => some (collection kind element, rest)
    | _ => none
  | none =>
    if container = "Map" then
      match readType cs with
      | some (key, ',' :: ' ' :: cs) =>
        match readType cs with
        | some (value, '>' :: rest) => some (map key value, rest)
        | _ => none
      | _ => none
    else none

/-- The name that stands in front. -/
def nameOf (cs : List Char) : String := String.ofList (cs.takeWhile isNameChar)

/-- Reads a type in which containers nest at most `n` deep, and gives what stands behind it. -/
def read? (n : Nat) (cs : List Char) : Option (TypeRef × List Char) :=
  match cs.dropWhile isNameChar, n with
  | '<' :: inner, n + 1 => readArguments (read? n) (nameOf cs) inner
  | '<' :: _, 0 => none
  | rest, _ => if nameOf cs = "" then none else some (leaf (nameOf cs), rest)

/-- The type that a whole text spells; it has no optional values. -/
def ofText? (s : String) : Option TypeRef :=
  match read? s.length s.toList with
  | some (t, []) => some t
  | _ => none

/-! ## Names and what ends them -/

/-- What stands behind the text of a type: nothing, or the end of an argument. -/
def Ends (rest : List Char) : Prop := ∀ c ∈ rest.head?, c = '>' ∨ c = ','

theorem nameOf_append {name : String} (hname : ∀ c ∈ name.toList, isNameChar c)
    (rest : List Char) (hrest : ∀ c ∈ rest.head?, ¬ isNameChar c) :
    nameOf (name.toList ++ rest) = name ∧
      (name.toList ++ rest).dropWhile isNameChar = rest := by
  rw [nameOf, List.takeWhile_append_of_pos hname, List.dropWhile_append_of_pos hname]
  cases rest with
  | nil => simp
  | cons c rest => simp [hrest c rfl]

/-- A name of characters, followed by the end of the type, stands alone. -/
theorem read?_leaf {name : String} (hne : name ≠ "") (hname : ∀ c ∈ name.toList, isNameChar c)
    {rest : List Char} (hrest : Ends rest) (n : Nat) :
    read? n (name.toList ++ rest) = some (leaf name, rest) := by
  obtain ⟨htake, hdrop⟩ := nameOf_append hname rest fun c hc => by
    rcases hrest c hc with rfl | rfl <;> decide
  have hbracket : ∀ inner, rest ≠ '<' :: inner := by
    rintro inner rfl
    rcases hrest '<' rfl with h | h <;> exact absurd h (by decide)
  unfold read?
  rw [htake, hdrop]
  split
  · next h => exact absurd rfl (hbracket _)
  · next h => exact absurd rfl (hbracket _)
  · exact if_neg hne

/-- A name in front of a bracket is that of a container. -/
theorem read?_container {container : String}
    (hname : ∀ c ∈ container.toList, isNameChar c) (n : Nat) (inner : List Char) :
    read? (n + 1) (container.toList ++ '<' :: inner) = readArguments (read? n) container inner := by
  obtain ⟨htake, hdrop⟩ := nameOf_append hname ('<' :: inner) fun c hc => by
    obtain rfl := Option.some.inj hc
    decide
  conv => lhs; unfold read?
  rw [htake, hdrop]
  rfl

theorem ends_close (rest : List Char) : Ends ('>' :: rest) := by
  rintro c ⟨⟩
  exact .inl rfl

theorem ends_comma (rest : List Char) : Ends (',' :: rest) := by
  rintro c ⟨⟩
  exact .inr rfl

/-! ## Reading a text back -/

theorem leaf_text (p : Primitive) (boxed : Bool) : leaf (p.text boxed) = primitive p := by
  rw [leaf, Primitive.ofText?_text]

theorem leaf_of_plain {name : String} (h : PlainName name) : leaf name = named name := by
  rw [leaf, Primitive.ofText?_eq_none_iff.2 h.own]

theorem read?_primitive (p : Primitive) (boxed : Bool) {rest : List Char} (hrest : Ends rest)
    (n : Nat) : read? n ((p.text boxed).toList ++ rest) = some (primitive p, rest) := by
  have hname : p.text boxed ≠ "" ∧ (p.text boxed).toList.all isNameChar := by
    cases p <;> cases boxed <;> decide
  rw [read?_leaf hname.1 (List.all_eq_true.1 hname.2) hrest, leaf_text]

/-- The text of a type as an argument, followed by its end, is read as the type without its optional
values. The induction is on the type; what stands behind an argument is what its container adds. -/
theorem read?_boxedText {t : TypeRef} (ht : t.HasPlainNames) {n : Nat} (hn : t.required.depth ≤ n)
    {rest : List Char} (hrest : Ends rest) :
    read? n (t.boxedText.toList ++ rest) = some (t.required, rest) := by
  induction t generalizing n rest with
  | primitive p => exact read?_primitive p true hrest n
  | named name =>
    have hplain := ht name (List.mem_singleton_self name)
    show read? n (name.toList ++ rest) = some (named name, rest)
    rw [read?_leaf hplain.nonempty hplain.unbroken hrest, leaf_of_plain hplain]
  | collection kind element ih =>
    obtain ⟨n, rfl⟩ : ∃ k, n = k + 1 := ⟨n - 1, by simp only [required, depth] at hn; omega⟩
    have hname : kind.text.toList.all isNameChar := by cases kind <;> decide
    have hshape : (collection kind element).boxedText.toList ++ rest =
        kind.text.toList ++ '<' :: (element.boxedText.toList ++ '>' :: rest) := by
      simp [boxedText]
    have helement := ih ht (by simpa [required, depth] using hn) (ends_close rest)
    rw [hshape, read?_container (List.all_eq_true.1 hname), readArguments, Collection.ofText?_text]
    simp only [helement]
    rfl
  | map key value ihKey ihValue =>
    obtain ⟨n, rfl⟩ : ∃ k, n = k + 1 := ⟨n - 1, by simp only [required, depth] at hn; omega⟩
    have hshape : (map key value).boxedText.toList ++ rest = "Map".toList ++ '<' ::
        (key.boxedText.toList ++ ',' :: ' ' :: (value.boxedText.toList ++ '>' :: rest)) := by
      simp [boxedText]
    simp only [required, depth] at hn
    obtain ⟨htKey, htValue⟩ := hasPlainNames_map.1 ht
    have hkey := ihKey htKey (n := n) (by omega)
      (ends_comma (' ' :: (value.boxedText.toList ++ '>' :: rest)))
    have hvalue := ihValue htValue (n := n) (by omega) (ends_close rest)
    have hname : "Map".toList.all isNameChar := by decide
    have hnone : Collection.ofText? "Map" = none := by decide
    rw [hshape, read?_container (List.all_eq_true.1 hname), readArguments, hnone]
    simp only [hkey, hvalue]
    rfl
  | optional inner ih => exact ih ht hn hrest

/-- Every level of nesting is written. -/
theorem depth_required_le (t : TypeRef) : t.required.depth ≤ t.boxedText.length := by
  induction t with
  | primitive | named => exact Nat.zero_le _
  | collection kind element ih =>
    simp only [required, depth, boxedText, String.length_append]
    have : "<".length = 1 := rfl
    omega
  | map key value ihKey ihValue =>
    simp only [required, depth, boxedText, String.length_append]
    have : "Map<".length = 4 := rfl
    omega
  | optional inner ih => exact ih

/-- The text of the type of a field is read as the type without its optional values. -/
theorem ofText?_text {t : TypeRef} (ht : t.HasPlainNames) : ofText? t.text = some t.required := by
  have hnil : Ends [] := nofun
  have hread : read? t.text.length t.text.toList = some (t.required, []) := by
    rw [← List.append_nil t.text.toList]
    cases t with
    | primitive p => exact read?_primitive p false hnil _
    | named | collection | map | optional =>
      exact read?_boxedText ht (depth_required_le _) hnil
  rw [ofText?, hread]

/-! ## What is read -/

theorem hasPlainNames_leaf {name : String} (hne : name ≠ "")
    (hname : ∀ c ∈ name.toList, isNameChar c) : (leaf name).HasPlainNames := by
  rw [leaf]
  split
  · exact nofun
  · next hnone =>
    intro name' hname'
    obtain rfl := List.mem_singleton.1 hname'
    exact ⟨hne, hname, Primitive.ofText?_eq_none_iff.1 hnone⟩

theorem hasPlainNames_readArguments {readType : List Char → Option (TypeRef × List Char)}
    (hread : ∀ cs t rest, readType cs = some (t, rest) → t.HasPlainNames) {container : String}
    {cs rest : List Char} {t : TypeRef} (h : readArguments readType container cs = some (t, rest)) :
    t.HasPlainNames := by
  rw [readArguments] at h
  split at h
  · split at h
    · next element _ helement =>
      cases h
      exact hread _ element _ helement
    · cases h
  · split at h
    · split at h
      · next hkey =>
        split at h
        · next hvalue =>
          cases h
          exact hasPlainNames_map.2 ⟨hread _ _ _ hkey, hread _ _ _ hvalue⟩
        · cases h
      · cases h
    · cases h

theorem isNameChar_nameOf (cs : List Char) : ∀ c ∈ (nameOf cs).toList, isNameChar c := by
  rw [nameOf, String.toList_ofList]
  exact List.all_eq_true.1 List.all_takeWhile

/-- A type that is read is a name, or a container with its arguments one level further down. -/
theorem read?_eq_some {n : Nat} {cs rest : List Char} {t : TypeRef}
    (h : read? n cs = some (t, rest)) :
    (nameOf cs ≠ "" ∧ t = leaf (nameOf cs)) ∨
      ∃ k inner, n = k + 1 ∧ readArguments (read? k) (nameOf cs) inner = some (t, rest) := by
  unfold read? at h
  split at h
  · exact .inr ⟨_, _, rfl, h⟩
  · cases h
  · split at h
    · cases h
    · next hne =>
      cases h
      exact .inl ⟨hne, rfl⟩

/-- Only types with plain names are read. -/
theorem hasPlainNames_read? (n : Nat) : ∀ (cs : List Char) (t : TypeRef) (rest : List Char),
    read? n cs = some (t, rest) → t.HasPlainNames := by
  induction n with
  | zero =>
    intro cs t rest h
    rcases read?_eq_some h with ⟨hne, rfl⟩ | ⟨k, inner, hk, -⟩
    · exact hasPlainNames_leaf hne (isNameChar_nameOf cs)
    · cases hk
  | succ n ih =>
    intro cs t rest h
    rcases read?_eq_some h with ⟨hne, rfl⟩ | ⟨k, inner, hk, harguments⟩
    · exact hasPlainNames_leaf hne (isNameChar_nameOf cs)
    · obtain rfl : n = k := by omega
      exact hasPlainNames_readArguments ih harguments

/-- The text of a type is read back, but for optional values, exactly when its names are plain. -/
theorem ofText?_text_iff (t : TypeRef) : ofText? t.text = some t.required ↔ t.HasPlainNames := by
  refine ⟨fun h => ?_, ofText?_text⟩
  rw [ofText?] at h
  split at h
  · next hread =>
    rw [← hasPlainNames_required, ← Option.some.inj h]
    exact hasPlainNames_read? _ _ _ _ hread
  · cases h

end TypeRef

/-- The containers in a type tree, and how they nest; an optional value is no container. -/
def outlineOf : TypeTree → Outline
  | .wrapper _ .vector c => .collection .vector (outlineOf c)
  | .wrapper _ .sequential c => .collection .sequence (outlineOf c)
  | .wrapper _ .set c => .collection .set (outlineOf c)
  | .wrapper _ .maybe c => outlineOf c
  | .mapOf _ k v => .map (outlineOf k) (outlineOf v)
  | _ => .leaf

/-- The type of a tree has the containers of the tree. -/
theorem outline_typeRef {m : Model} {t : TypeTree} {type : TypeRef}
    (h : Resolve.typeRef m t = .ok type) : type.outline = outlineOf t := by
  fun_induction Resolve.typeRef m t generalizing type with
  | case1 | case2 | case8 | case9 =>
    cases h
    rfl
  | case3 l c ih | case4 l c ih | case5 l c ih =>
    obtain ⟨element, helement, rfl⟩ := Resolve.map_eq_ok h
    rw [TypeRef.outline, outlineOf, ih helement]
  | case6 l c ih =>
    obtain ⟨inner, hinner, rfl⟩ := Resolve.map_eq_ok h
    rw [TypeRef.outline, outlineOf, ih hinner]
  | case7 l k v ihKey ihValue =>
    obtain ⟨key, hkey, h⟩ := Resolve.bind_eq_ok h
    obtain ⟨value, hvalue, rfl⟩ := Resolve.map_eq_ok h
    rw [TypeRef.outline, outlineOf, ihKey hkey, ihValue hvalue]
  | case10 l id =>
    obtain ⟨name, -, rfl⟩ := Resolve.map_eq_ok h
    rfl
  | case11 | case12 | case13 => cases h

/-- Types with plain names and one text are the same but for their optional values. For every type
tree that has a type, the type is read back from its text exactly when its names are plain, and then
the text shows the containers of the tree, as they nest and in their order. -/
theorem text_readable :
    (∀ a b : TypeRef, a.HasPlainNames → b.HasPlainNames → a.text = b.text →
      a.required = b.required) ∧
    ∀ (m : Model) (t : TypeTree) (type : TypeRef), Resolve.typeRef m t = .ok type →
      (TypeRef.ofText? type.text = some type.required ↔ type.HasPlainNames) ∧
      (type.HasPlainNames →
        (TypeRef.ofText? type.text).map TypeRef.outline = some (outlineOf t)) := by
  constructor
  · intro a b ha hb htext
    have hread := TypeRef.ofText?_text ha
    rw [htext, TypeRef.ofText?_text hb] at hread
    exact (Option.some.inj hread).symm
  · intro m t type htype
    refine ⟨TypeRef.ofText?_text_iff type, fun hplain => ?_⟩
    rw [TypeRef.ofText?_text hplain, Option.map_some, TypeRef.outline_required,
      outline_typeRef htype]

/-- A list of maps whose values may be missing. -/
def stock : TypeTree :=
  .wrapper ⟨"Stock", none⟩ .sequential
    (.mapOf ⟨"Stock", none⟩ (.scalar ⟨"StockKey", none⟩ .uuid)
      (.wrapper ⟨"StockValue", none⟩ .maybe
        (.wrapper ⟨"StockValue", none⟩ .set (.object ⟨"StockValueObject", none⟩ []))))

/-- The type of `stock`. -/
def stockType : TypeRef :=
  .collection .sequence
    (.map (.primitive .uuid) (.optional (.collection .set (.named "StockValueObject"))))

theorem text_readable_stock :
    stockType.HasPlainNames ∧ stockType.text = "List<Map<UUID, Set<StockValueObject>>>" ∧
      stockType.text = stockType.required.text ∧ stockType.required = stockType.required.required ∧
      (TypeRef.ofText? stockType.text).map TypeRef.outline =
        some (.collection .sequence (.map .leaf (.collection .set .leaf))) := by
  have hplain : stockType.HasPlainNames := by
    intro name hname
    obtain rfl := List.mem_singleton.1 hname
    refine ⟨by decide, List.all_eq_true.1 (by decide), fun p boxed => ?_⟩
    cases p <;> cases boxed <;> decide
  have htype : Resolve.typeRef Model.empty stock = .ok stockType := by decide
  exact ⟨hplain, by decide, by decide,
    text_readable.1 _ _ hplain ((TypeRef.hasPlainNames_required _).2 hplain) (by decide),
    (text_readable.2 _ _ _ htype).2 hplain⟩

end EventForge.Java
