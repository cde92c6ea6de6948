import EventForge.Proofs.Document.TypeNode
import EventForge.Proofs.Java.Members

/-!
# What a field gathers

The patterns and the enums in a field are collected by names, so of two nodes of one name only one
would be left. In a tree with derived names that does not happen: the name of such a node tells the
sides of the maps on the way down to it, and no two patterns or enums are found on the same way.
This survives the loss of blanks, the upper-case start of a type name and the escape of reserved
words, none of which ends in `Enum`. So the collections have one entry for every node
(`gathered_exact`).
-/

namespace EventForge.Java

open Document (NamedFrom handedDown nodeName)
open TypeTree (NameRole nameFor)

theorem nameThrough_eq_append (name : String) (way : List NameRole) :
    nameThrough name way = name ++ nameThrough "" way := by
  induction way generalizing name with
  | nil => simp [nameThrough]
  | cons side way ih =>
    rw [nameThrough_cons, nameThrough_cons, ih, ih (nameFor "" side), nameFor, nameFor, String.empty_append,
      String.append_assoc]

/-- A suffix for a role has no blank and starts in upper case. -/
theorem titled_nameFor (name : String) (role : NameRole) :
    titled (nameFor name role) = titled name ++ role.suffix := by
  have hcompact : Text.compact (nameFor name role) = Text.compact name ++ role.suffix := by
    have hsuffix : Text.compact role.suffix = role.suffix := by cases role <;> decide
    rw [← String.toList_inj] at hsuffix ⊢
    rw [String.toList_append, ← hsuffix, nameFor, Text.toList_compact, String.toList_append,
      List.filter_append, Text.toList_compact, Text.toList_compact]
  have hstart : Text.capitalizeFirst role.suffix = role.suffix := by cases role <;> decide
  rw [titled, titled, hcompact]
  cases hchars : (Text.compact name).toList with
  | nil =>
    rw [String.toList_eq_nil_iff.1 hchars, String.empty_append, hstart]
    rfl
  | cons c cs =>
    rw [← String.toList_inj]
    simp [Text.capitalizeFirst, Text.mapFirst, hchars]

theorem titled_nameThrough (name : String) (way : List NameRole) :
    titled (nameThrough name way) = titled name ++ nameThrough "" way := by
  induction way generalizing name with
  | nil => simp [nameThrough]
  | cons side way ih =>
    rw [nameThrough_cons, nameThrough_cons, ih, titled_nameFor,
      nameThrough_eq_append (nameFor "" side), nameFor, String.empty_append, String.append_assoc]

/-- No reserved word ends like the name of a nested enum. -/
theorem typeName_nameFor_enum (name : String) :
    typeName (nameFor name .enum) = titled name ++ NameRole.enum.suffix := by
  have hwords : ∀ word ∈ reservedWords, ¬ NameRole.enum.suffix.toList <:+ word.toList := by
    decide
  have hfree : isReserved (titled name ++ NameRole.enum.suffix) = false := by
    rw [isReserved, Bool.eq_false_iff]
    intro hword
    refine hwords _ (List.contains_iff_mem.1 hword) ?_
    rw [String.toList_append]
    exact List.suffix_append _ _
  rw [typeName, titled_nameFor, safeName, hfree]
  rfl

/-- The sides that a name was handed down through can be read off the enum that has it. -/
theorem enumName_injective {name : String} {way way' : List NameRole} (hway : way ⊆ sides)
    (hway' : way' ⊆ sides) (h : typeName (nameFor (nameThrough name way) .enum) =
      typeName (nameFor (nameThrough name way') .enum)) : way = way' := by
  rw [typeName_nameFor_enum, typeName_nameFor_enum, String.append_left_inj, titled_nameThrough,
    titled_nameThrough, String.append_right_inj] at h
  exact nameThrough_injective hway hway' (congrArg constantPart h)

namespace Resolve

open TypeTree

/-- What a node adds to the patterns of a field: its name with its expression. -/
def patternOf? : TypeTree → Option (String × String)
  | pattern l expression => some (l.name, expression)
  | _ => none

/-- What a node adds to the enums of a field: the name of its type, its symbols without blanks. -/
def enumOf? : TypeTree → Option (String × List String)
  | enumeration l symbols => some (typeName l.name, symbols.map Text.compact)
  | _ => none

theorem patterns_eq_ofList (t : TypeTree) :
    patterns t = Dict.ofList ((reached t).filterMap patternOf?) := by
  rw [patterns_eq_foldl, Dict.ofList, List.foldl_filterMap]
  congr 1
  funext ps node
  cases node <;> simp only [addPattern, patternOf?]

theorem enums_eq_ofList (t : TypeTree) :
    enums t = Dict.ofList ((reached t).filterMap enumOf?) := by
  rw [enums_eq_foldl, Dict.ofList, List.foldl_filterMap]
  congr 1
  funext es node
  cases node <;> simp only [addNestedEnum, enumOf?]

/-- Leaves have entries under keys that are spelled from the name handed down to them, and a key
tells the sides of the maps on the way to it. -/
structure Keyed {ν : Type} (pick? : TypeTree → Option (String × ν))
    (spell : String → Bool → String) : Prop where
  mapOf : ∀ l k v, pick? (.mapOf l k v) = none
  wrapper : ∀ l kind c, pick? (.wrapper l kind c) = none
  key : ∀ {name nested node e}, NamedFrom name nested node → pick? node = some e →
    e.1 = spell name nested
  tells : ∀ {name way way'}, way ⊆ sides → way' ⊆ sides →
    spell (nameThrough name way) true = spell (nameThrough name way') true → way = way'

theorem keyed_patternOf? : Keyed patternOf? fun name _ => name where
  mapOf _ _ _ := rfl
  wrapper _ _ _ := rfl
  key {_ _ node _} hnamed he := by
    cases node with
    | pattern l expression =>
      obtain rfl := Option.some.inj he
      exact hnamed.name
    | _ => cases he
  tells hway hway' h := nameThrough_injective hway hway' (congrArg constantPart h)

theorem keyed_enumOf? : Keyed enumOf? fun name nested =>
    typeName (nodeName .enum nested name) where
  mapOf _ _ _ := rfl
  wrapper _ _ _ := rfl
  key {name nested node _} hnamed he := by
    cases node with
    | enumeration l symbols =>
      obtain rfl := Option.some.inj he
      have hname : l.name = nodeName .enum nested name := hnamed.name
      rw [hname]
    | _ => cases he
  tells hway hway' h := enumName_injective hway hway' h

section Keyed

variable {ν : Type} {pick? : TypeTree → Option (String × ν)} {spell : String → Bool → String}

/-- The keys of the entries that the nodes of a tree have, in the order of the nodes. -/
def keysOf (pick? : TypeTree → Option (String × ν)) (t : TypeTree) : List String :=
  ((reached t).filterMap pick?).map Prod.fst

theorem Keyed.exists_way (h : Keyed pick? spell) {t : TypeTree} {name x : String}
    (ht : NamedFrom name true t) (hx : x ∈ keysOf pick? t) :
    ∃ way ⊆ sides, x = spell (nameThrough name way) true := by
  obtain ⟨e, he, rfl⟩ := List.mem_map.1 hx
  obtain ⟨node, hnode, hentry⟩ := List.mem_filterMap.1 he
  obtain ⟨way, hway, nested, hnested, hnamed⟩ := namedFrom_within (mem_reached_iff.1 hnode) ht
  obtain rfl := hnested rfl
  exact ⟨way, hway, h.key hnamed hentry⟩

theorem nodup_keysOf_leaf {t : TypeTree} (h : reached t = [t]) : (keysOf pick? t).Nodup := by
  cases he : pick? t <;> simp [keysOf, h, he]

/-- No two nodes of a tree with derived names have one key. -/
theorem Keyed.nodup_keysOf (h : Keyed pick? spell) :
    ∀ {t : TypeTree} {name : String} {nested : Bool}, NamedFrom name nested t →
      (keysOf pick? t).Nodup
  | .mapOf l k v, name, nested, ht => by
    have hkey : NamedFrom (nameThrough l.name [.key]) true k := ht.children List.mem_cons_self
    have hvalue : NamedFrom (nameThrough l.name [.value]) true v :=
      ht.children (List.mem_cons_of_mem _ List.mem_cons_self)
    have hkeys : keysOf pick? (.mapOf l k v) = keysOf pick? k ++ keysOf pick? v := by
      simp [keysOf, reached, h.mapOf]
    rw [hkeys, List.nodup_append]
    refine ⟨h.nodup_keysOf hkey, h.nodup_keysOf hvalue, fun a ha b hb hsame => ?_⟩
    obtain ⟨way, hway, hspell⟩ := h.exists_way hkey ha
    obtain ⟨way', hway', hspell'⟩ := h.exists_way hvalue hb
    have hways : NameRole.key :: way = .value :: way' :=
      h.tells (List.cons_subset.2 ⟨by simp [sides], hway⟩)
        (List.cons_subset.2 ⟨by simp [sides], hway'⟩) (hspell.symm.trans (hsame.trans hspell'))
    cases hways
  | .wrapper l .vector c, name, nested, ht | .wrapper l .sequential c, name, nested, ht
  | .wrapper l .set c, name, nested, ht | .wrapper l .maybe c, name, nested, ht => by
    have hchild : NamedFrom l.name true c := ht.children (by simp [handedDown])
    rw [keysOf, reached, List.filterMap_cons_none (h.wrapper _ _ _)]
    · exact h.nodup_keysOf hchild
    · simp
  | .wrapper l .not c, name, nested, ht | .combined l kind members, name, nested, ht
  | .unset l, name, nested, ht | .scalar l kind, name, nested, ht
  | .pattern l expression, name, nested, ht | .object l entries, name, nested, ht
  | .enumeration l symbols, name, nested, ht | .reference l target, name, nested, ht =>
    nodup_keysOf_leaf rfl

end Keyed

variable {t : TypeTree}

theorem entries_patterns (h : HasDerivedNames t) :
    (patterns t).entries = (reached t).filterMap patternOf? := by
  obtain ⟨name, nested, hnamed⟩ := h
  rw [patterns_eq_ofList]
  exact Dict.entries_ofList_eq_iff.2 (keyed_patternOf?.nodup_keysOf hnamed)

theorem entries_enums (h : HasDerivedNames t) :
    (enums t).entries = (reached t).filterMap enumOf? := by
  obtain ⟨name, nested, hnamed⟩ := h
  rw [enums_eq_ofList]
  exact Dict.entries_ofList_eq_iff.2 (keyed_enumOf?.nodup_keysOf hnamed)

end Resolve

/-- In every field of a class that is made from a tree as it was read, there is one pattern for each
pattern node and one enum for each enum node, in the order of the nodes and with what the node says.
The class has one constant for each of these patterns, and those of one field differ in their
names. -/
theorem gathered_exact {node : Json} {name location : String} {nested : Bool} {t : TypeTree}
    {ws : List Diagnostic} (hread : Document.readNode node name nested location = .read t ws)
    {source : ClassSource} (hroot : source.root = some t) :
    (∀ e ∈ source.entries,
      (Resolve.patterns e.2).entries = (Resolve.reached e.2).filterMap Resolve.patternOf? ∧
      (Resolve.enums e.2).entries = (Resolve.reached e.2).filterMap Resolve.enumOf?) ∧
    ∀ (p : Project) (kind : PackageKind) (mutability : Mutability) (file : SourceFile),
      (p.classFile kind source mutability).2 = .ok file →
        ∃ decl groups, file.declaration = .class decl ∧ decl.constants = groups.flatten ∧
          List.Forall₂ (fun e constants =>
              constants.map Constant.value = ((Resolve.reached e.2).filterMap
                Resolve.patternOf?).map Prod.snd ∧
              (constants.map Constant.name).Nodup)
            (source.keptEntries p.model) groups := by
  have hnamed : ∀ e ∈ source.entries, HasDerivedNames e.2 := by
    refine fun e he => source.hasDerivedNames (fun root h => ?_) he
    obtain rfl := Option.some.inj (hroot.symm.trans h)
    exact ⟨name, nested, Document.namedFrom_readNode node name nested location _ ws hread⟩
  refine ⟨fun e he => ⟨Resolve.entries_patterns (hnamed e he),
    Resolve.entries_enums (hnamed e he)⟩, fun p kind mutability file h => ?_⟩
  obtain ⟨d, hd, rfl⟩ := Project.exists_draft h
  refine ⟨d.declaration source mutability, d.fields.map KeptField.constants, rfl,
    List.flatMap_def, List.forall₂_map_right_iff.2 ?_⟩
  have hkept : ∀ e ∈ source.keptEntries p.model, HasDerivedNames e.2 :=
    fun e he => hnamed e (List.mem_of_mem_filter he)
  refine ((List.forall₂_and_left _ _).2 ⟨hkept, hd.fields⟩).imp fun e f hf => ?_
  obtain ⟨hderived, hfield⟩ := hf
  constructor
  · rw [← Resolve.entries_patterns hderived, ← hfield.patterns, KeptField.constants, List.map_map]
    rfl
  · obtain ⟨_, _, hfrom⟩ := hderived
    rw [hfield.names_constants]
    exact nodup_constantNames hfrom

/-- An entry with two patterns and an enum on the sides of its maps. -/
def ledger : TypeTree :=
  .object ⟨"Ledger", none⟩
    [("codes", .mapOf ⟨"Ledger", none⟩ (.pattern ⟨"LedgerKey", none⟩ "[a-z]+")
      (.mapOf ⟨"LedgerValue", none⟩ (.enumeration ⟨"LedgerValueKeyEnum", none⟩ ["by hand", "auto"])
        (.wrapper ⟨"LedgerValueValue", none⟩ .vector
          (.pattern ⟨"LedgerValueValue", none⟩ "[0-9]+"))))]

def ledgerSource : ClassSource := ⟨"Ledger", none, some ledger⟩

/-- The printed tree is read as it is, and its field has both patterns and the enum. -/
theorem gathered_exact_ledger :
    Document.readNode (Document.printType ledger) "Ledger" false "schema" = .read ledger [] ∧
      ∀ e ∈ ledgerSource.entries,
        (Resolve.patterns e.2).entries =
            [("LedgerKey", "[a-z]+"), ("LedgerValueValue", "[0-9]+")] ∧
          (Resolve.enums e.2).entries = [("LedgerValueKeyEnum", ["byhand", "auto"])] := by
  have hread : Document.readNode (Document.printType ledger) "Ledger" false "schema" =
      .read ledger [] := Document.readNode_printType (by decide) "schema"
  have hroot : ledgerSource.root = some ledger := rfl
  refine ⟨hread, fun e he => ?_⟩
  obtain ⟨hpatterns, henums⟩ := (gathered_exact hread hroot).1 e he
  obtain rfl := List.mem_singleton.1 he
  rw [hpatterns, henums]
  decide

end EventForge.Java
