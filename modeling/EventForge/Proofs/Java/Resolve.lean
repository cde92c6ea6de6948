import EventForge.Java.Resolve
import EventForge.Proofs.Dict

/-!
# The names in a resolved type

Every named type in the type of a tree comes from a node that is looked into: an enum, which is
declared with the field, or an object or a reference, which stand for a class or enum of the schemas
package.
-/

namespace EventForge.Java

/-- The named types that occur in a type. -/
def TypeRef.names : TypeRef → List String
  | primitive _ => []
  | named name => [name]
  | collection _ element => element.names
  | map key value => key.names ++ value.names
  | optional inner => inner.names

namespace Resolve

open TypeTree

variable {m : Model}

theorem map_eq_ok {α β ε : Type} {x : Except ε α} {f : α → β} {b : β} (h : x.map f = .ok b) :
    ∃ a, x = .ok a ∧ f a = b := by
  cases x with
  | error e => cases h
  | ok a => exact ⟨a, rfl, Except.ok.inj h⟩

theorem bind_eq_ok {α β ε : Type} {x : Except ε α} {f : α → Except ε β} {b : β}
    (h : x.bind f = .ok b) : ∃ a, x = .ok a ∧ f a = .ok b := by
  cases x with
  | error e => cases h
  | ok a => exact ⟨a, rfl, h⟩

/-- A node is in a tree, at its root or inside vectors, sequences, sets, optional values and the two
sides of maps. -/
inductive Within (node : TypeTree) : TypeTree → Prop where
  | here : Within node node
  | child {l : Label} {kind : Wrapper} {c : TypeTree} (hkind : kind ≠ .not) (h : Within node c) :
      Within node (.wrapper l kind c)
  | key {l : Label} {k v : TypeTree} (h : Within node k) : Within node (.mapOf l k v)
  | value {l : Label} {k v : TypeTree} (h : Within node v) : Within node (.mapOf l k v)

theorem mem_reached_self : ∀ t : TypeTree, t ∈ reached t
  | .wrapper l kind c => by cases kind <;> simp [reached]
  | .mapOf l k v => by simp [reached]
  | .scalar l kind | .combined l kind members | .object l entries | .enumeration l symbols
  | .pattern l expression | .reference l target | .unset l => by simp [reached]

theorem within_of_mem_reached {node : TypeTree} :
    ∀ {t : TypeTree}, node ∈ reached t → Within node t
  | .mapOf l k v, h => by
    simp only [reached, List.mem_cons, List.mem_append] at h
    obtain rfl | h | h := h
    · exact .here
    · exact .key (within_of_mem_reached h)
    · exact .value (within_of_mem_reached h)
  | .wrapper l .vector c, h | .wrapper l .sequential c, h | .wrapper l .set c, h
  | .wrapper l .maybe c, h => by
    simp only [reached, List.mem_cons] at h
    obtain rfl | h := h
    · exact .here
    · exact .child (by decide) (within_of_mem_reached h)
  | .wrapper l .not c, h | .combined l kind members, h | .unset l, h | .scalar l kind, h
  | .pattern l expression, h | .object l entries, h | .enumeration l symbols, h
  | .reference l target, h => by
    obtain rfl := List.mem_singleton.1 h
    exact .here

/-- The nodes that are looked into are those within the tree. -/
theorem mem_reached_iff {node t : TypeTree} : node ∈ reached t ↔ Within node t := by
  refine ⟨within_of_mem_reached, fun h => ?_⟩
  induction h with
  | here => exact mem_reached_self node
  | @child l kind c hkind _ ih => cases kind <;> simp_all [reached]
  | key _ ih => simp [reached, ih]
  | value _ ih => simp [reached, ih]

/-- The name of the enum that a node declares in its class. -/
def nestedName : TypeTree → Option String
  | enumeration l _ => some (typeName l.name)
  | _ => none

/-- A node below a tree that is looked into declares the name or stands for it. -/
def Mentions (m : Model) (t : TypeTree) (n : String) : Prop :=
  ∃ node ∈ reached t, nestedName node = some n ∨ entityOf m node = .ok (some n)

/-- The node is an object of this name, or a reference to a schema whose root has it. -/
inductive NamesEntity (m : Model) : TypeTree → String → Prop where
  | object {l : Label} {entries : List (String × TypeTree)} :
      NamesEntity m (.object l entries) (typeName l.name)
  | reference {l : Label} {id : Uuid} {s : Schema} (hs : m.schema? id = some s) :
      NamesEntity m (.reference l id) (typeName s.type.name)

theorem namesEntity_iff {node : TypeTree} {n : String} :
    NamesEntity m node n ↔ entityOf m node = .ok (some n) := by
  constructor
  · intro h
    cases h with
    | object => rfl
    | reference hs => rw [entityOf, targetName, hs]; rfl
  · intro h
    cases node with
    | object l entries =>
      obtain rfl := Option.some.inj (Except.ok.inj h)
      exact .object
    | reference l id =>
      obtain ⟨name, hname, hn⟩ := map_eq_ok h
      obtain rfl := Option.some.inj hn
      rw [targetName] at hname
      split at hname
      · next s hs =>
        obtain rfl := Except.ok.inj hname
        exact .reference hs
      · cases hname
    | _ => cases h

theorem mentions_wrapper {l : Label} {kind : Wrapper} {c : TypeTree} {n : String}
    (hkind : kind ≠ .not) : Mentions m (.wrapper l kind c) n ↔ Mentions m c n := by
  cases kind <;> simp_all [Mentions, reached, nestedName, entityOf]

theorem mentions_mapOf {l : Label} {k v : TypeTree} {n : String} :
    Mentions m (.mapOf l k v) n ↔ Mentions m k n ∨ Mentions m v n := by
  simp [Mentions, reached, nestedName, entityOf, or_and_right, exists_or]

/-- The named types in the type of a tree are exactly what the nodes below the tree mention. -/
theorem mem_names_iff {n : String} :
    ∀ {t : TypeTree} {type : TypeRef}, typeRef m t = .ok type → (n ∈ type.names ↔ Mentions m t n)
  | .scalar l kind, type, h | .pattern l expression, type, h => by
    rw [← Except.ok.inj h]
    simp [Mentions, reached, nestedName, entityOf, TypeRef.names]
  | .object l entries, type, h | .enumeration l symbols, type, h => by
    rw [← Except.ok.inj h]
    simp [Mentions, reached, nestedName, entityOf, TypeRef.names, eq_comm]
  | .reference l id, type, h => by
    obtain ⟨name, hname, rfl⟩ := map_eq_ok h
    simp [Mentions, reached, nestedName, entityOf, hname, Except.map, TypeRef.names, eq_comm]
  | .mapOf l k v, type, h => by
    obtain ⟨key, hk, h⟩ := bind_eq_ok h
    obtain ⟨value, hv, rfl⟩ := map_eq_ok h
    rw [TypeRef.names, List.mem_append, mem_names_iff hk, mem_names_iff hv, mentions_mapOf]
  | .wrapper l .vector c, type, h | .wrapper l .sequential c, type, h
  | .wrapper l .set c, type, h | .wrapper l .maybe c, type, h => by
    obtain ⟨inner, hc, rfl⟩ := map_eq_ok h
    rw [mentions_wrapper (by decide), ← mem_names_iff hc, TypeRef.names]
  | .wrapper l .not c, type, h | .combined l kind members, type, h | .unset l, type, h => by cases h

theorem mentions_of_typeRef {n : String} {t : TypeTree} {type : TypeRef}
    (h : typeRef m t = .ok type) (hn : n ∈ type.names) : Mentions m t n :=
  (mem_names_iff h).1 hn

/-- One more node in the collection of enums. -/
def addNestedEnum (es : Dict String (List String)) : TypeTree → Dict String (List String)
  | enumeration l symbols => es.insert (typeName l.name) (symbols.map Text.compact)
  | _ => es

theorem enums_eq_foldl (t : TypeTree) : enums t = (reached t).foldl addNestedEnum ∅ := by
  rw [enums]
  congr 1

theorem mem_keys_addNestedEnum {n : String} (es : Dict String (List String)) (node : TypeTree) :
    n ∈ (addNestedEnum es node).keys ↔ nestedName node = some n ∨ n ∈ es.keys := by
  cases node with
  | enumeration l symbols =>
    rw [addNestedEnum, Dict.mem_keys_insert, nestedName, Option.some_inj, eq_comm]
  | _ => simp [addNestedEnum, nestedName]

/-- The enums met in a tree are exactly those that its nodes declare. -/
theorem mem_keys_enums {t : TypeTree} {n : String} :
    n ∈ (enums t).keys ↔ ∃ node ∈ reached t, nestedName node = some n := by
  rw [enums_eq_foldl, Dict.mem_keys_foldl mem_keys_addNestedEnum]
  simp [Dict.keys]

end Resolve

end EventForge.Java
