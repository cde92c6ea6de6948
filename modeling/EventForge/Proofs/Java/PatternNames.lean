import EventForge.Proofs.Document.Names
import EventForge.Proofs.Java.Resolve
import EventForge.Proofs.Text.Casing
import Mathlib.Data.List.Nodup

/-!
# The patterns of a field have constants of their own

A field with several patterns qualifies their constants with the names of the pattern nodes. In a
tree with derived names such a name is that of the root, followed by `Key` or `Value` for each map
on the way down. No blank goes missing from these suffixes, and in upper case they start with
different letters, so the way down can be read off the qualifier again.
-/

namespace EventForge.Java

open Document (NamedFrom handedDown)
open TypeTree (NameRole nameFor)

/-- The roles of the two sides of a map. -/
def sides : List NameRole := [.key, .value]

/-- The name handed down through maps by way of these sides. -/
def nameThrough (name : String) (way : List NameRole) : String := way.foldl nameFor name

theorem nameThrough_cons (name : String) (side : NameRole) (way : List NameRole) :
    nameThrough name (side :: way) = nameThrough (nameFor name side) way := rfl

/-- A text as it stands in the name of a constant. -/
def constantPart (name : String) : String := Text.upper (Text.compact name)

theorem toList_constantPart (name : String) : (constantPart name).toList =
    (name.toList.filter fun c => !Text.isBlank c).flatMap Text.upperChar := by
  rw [constantPart, Text.toList_upper, Text.toList_compact]

theorem toList_constantPart_nameThrough (name : String) (way : List NameRole) :
    (constantPart (nameThrough name way)).toList =
      (constantPart name).toList ++ way.flatMap fun side => (constantPart side.suffix).toList := by
  induction way generalizing name with
  | nil => simp [nameThrough]
  | cons side way ih =>
    rw [nameThrough_cons, ih, List.flatMap_cons, ← List.append_assoc]
    simp only [toList_constantPart, nameFor, String.toList_append, List.filter_append,
      List.flatMap_append]

/-- The sides that a name was handed down through can be read off its constant. -/
theorem nameThrough_injective {name : String} {way way' : List NameRole} (hway : way ⊆ sides)
    (hway' : way' ⊆ sides)
    (h : constantPart (nameThrough name way) = constantPart (nameThrough name way')) :
    way = way' := by
  have hkey : (constantPart NameRole.key.suffix).toList = ['K', 'E', 'Y'] := by decide
  have hvalue : (constantPart NameRole.value.suffix).toList = ['V', 'A', 'L', 'U', 'E'] := by
    decide
  have hcode := congrArg String.toList h
  rw [toList_constantPart_nameThrough, toList_constantPart_nameThrough,
    List.append_cancel_left_eq] at hcode
  clear h
  induction way generalizing way' with
  | nil =>
    cases way' with
    | nil => rfl
    | cons side' way' =>
      obtain ⟨hside', -⟩ := List.cons_subset.1 hway'
      obtain rfl | rfl : side' = .key ∨ side' = .value := by simpa [sides] using hside'
      all_goals simp [hkey, hvalue] at hcode
  | cons side way ih =>
    obtain ⟨hside, hrest⟩ := List.cons_subset.1 hway
    cases way' with
    | nil =>
      obtain rfl | rfl : side = .key ∨ side = .value := by simpa [sides] using hside
      all_goals simp [hkey, hvalue] at hcode
    | cons side' way' =>
      obtain ⟨hside', hrest'⟩ := List.cons_subset.1 hway'
      obtain rfl | rfl : side = .key ∨ side = .value := by simpa [sides] using hside
      all_goals
        obtain rfl | rfl : side' = .key ∨ side' = .value := by simpa [sides] using hside'
      all_goals simp [hkey, hvalue] at hcode
      all_goals rw [ih hrest hrest' hcode]

namespace Resolve

open TypeTree

/-- The name under which a node has a pattern. -/
def patternName : TypeTree → Option String
  | pattern l _ => some l.name
  | _ => none

/-- One more node in the collection of patterns. -/
def addPattern (ps : Dict String String) : TypeTree → Dict String String
  | pattern l expression => ps.insert l.name expression
  | _ => ps

theorem patterns_eq_foldl (t : TypeTree) : patterns t = (reached t).foldl addPattern ∅ := by
  rw [patterns]
  congr 1

theorem mem_keys_addPattern {n : String} (ps : Dict String String) (node : TypeTree) :
    n ∈ (addPattern ps node).keys ↔ patternName node = some n ∨ n ∈ ps.keys := by
  cases node with
  | pattern l expression =>
    rw [addPattern, Dict.mem_keys_insert, patternName, Option.some_inj, eq_comm]
  | _ => simp [addPattern, patternName]

/-- The patterns met in a tree stand under the names of its pattern nodes. -/
theorem mem_keys_patterns {t : TypeTree} {n : String} :
    n ∈ (patterns t).keys ↔ ∃ node ∈ reached t, patternName node = some n := by
  rw [patterns_eq_foldl, Dict.mem_keys_foldl mem_keys_addPattern]
  simp [Dict.keys]

/-- The nodes that are looked into from a tree have the names derived on the way down; those of a
nested tree are nested. -/
theorem namedFrom_within {node t : TypeTree} (h : Within node t) {name : String} {nested : Bool}
    (ht : NamedFrom name nested t) :
    ∃ way ⊆ sides, ∃ nested', (nested = true → nested' = true) ∧
      NamedFrom (nameThrough name way) nested' node := by
  induction h generalizing name nested with
  | here => exact ⟨[], by simp, nested, id, ht⟩
  | @child l kind c _ _ ih =>
    have hl : l.name = name := ht.name
    obtain ⟨way, hway, nested', hnested, hnode⟩ := ih (ht.children (List.mem_singleton_self _))
    exact ⟨way, hway, nested', fun _ => hnested rfl, hl ▸ hnode⟩
  | @key l k v _ ih =>
    have hl : l.name = name := ht.name
    obtain ⟨way, hway, nested', hnested, hnode⟩ := ih (ht.children List.mem_cons_self)
    exact ⟨.key :: way, List.cons_subset.2 ⟨by simp [sides], hway⟩, nested', fun _ => hnested rfl,
      hl ▸ hnode⟩
  | @value l k v _ ih =>
    have hl : l.name = name := ht.name
    obtain ⟨way, hway, nested', hnested, hnode⟩ :=
      ih (ht.children (List.mem_cons_of_mem _ List.mem_cons_self))
    exact ⟨.value :: way, List.cons_subset.2 ⟨by simp [sides], hway⟩, nested', fun _ => hnested rfl,
      hl ▸ hnode⟩

/-- Each pattern of a tree stands under the name handed down through some sides of maps. -/
theorem exists_way_of_mem_patterns {t : TypeTree} {name n : String} {nested : Bool}
    (h : NamedFrom name nested t) (hn : n ∈ (patterns t).keys) :
    ∃ way ⊆ sides, n = nameThrough name way := by
  obtain ⟨node, hnode, hpattern⟩ := mem_keys_patterns.1 hn
  obtain ⟨way, hway, nested', -, hnamed⟩ := namedFrom_within (mem_reached_iff.1 hnode) h
  cases node with
  | pattern l expression =>
    obtain rfl := Option.some.inj hpattern
    exact ⟨way, hway, hnamed.name⟩
  | _ => cases hpattern

end Resolve

/-- The names of the pattern constants of the field that an entry becomes. -/
def constantNames (e : String × TypeTree) : List String :=
  let nodes := (Resolve.patterns e.2).keys
  nodes.map fun node => patternConstant (fieldName e.1) (if 1 < nodes.length then some node else none)

/-- The qualifier tells the constants of one field apart. -/
theorem nodup_constantNames {e : String × TypeTree} {name : String} {nested : Bool}
    (h : NamedFrom name nested e.2) : (constantNames e).Nodup := by
  rw [constantNames]
  by_cases hseveral : 1 < (Resolve.patterns e.2).keys.length
  · refine (Resolve.patterns e.2).keys_nodup.map_on fun n hn n' hn' hsame => ?_
    obtain ⟨way, hway, rfl⟩ := Resolve.exists_way_of_mem_patterns h hn
    obtain ⟨way', hway', rfl⟩ := Resolve.exists_way_of_mem_patterns h hn'
    rw [if_pos hseveral, if_pos hseveral] at hsame
    have hpart : constantPart (nameThrough name way) = constantPart (nameThrough name way') := by
      rwa [patternConstant, patternConstant, String.append_left_inj, String.append_right_inj]
        at hsame
    rw [nameThrough_injective hway hway' hpart]
  · cases hnodes : (Resolve.patterns e.2).keys with
    | nil => exact List.nodup_nil
    | cons node rest =>
      have hrest : rest = [] := by
        rw [hnodes, List.length_cons] at hseveral
        exact List.length_eq_zero_iff.1 (by omega)
      rw [hrest]
      exact List.nodup_singleton _

end EventForge.Java
