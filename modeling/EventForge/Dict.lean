/-!
# Dictionaries in insertion order

A dictionary lists its entries in the order in which their keys were first inserted. Inserting a
known key replaces the value and keeps the position; no key occurs twice.
-/

namespace EventForge

universe u v

variable {κ : Type u} {ν : Type v} [DecidableEq κ]

/-- Sets the value of `k`: in its place when `k` is known, else at the end. -/
def upsert : List (κ × ν) → κ → ν → List (κ × ν)
  | [], k, v => [(k, v)]
  | (k', v') :: rest, k, v => if k' = k then (k, v) :: rest else (k', v') :: upsert rest k v

theorem map_fst_upsert (es : List (κ × ν)) (k : κ) (v : ν) :
    (upsert es k v).map Prod.fst
      = if k ∈ es.map Prod.fst then es.map Prod.fst else es.map Prod.fst ++ [k] := by
  induction es with
  | nil => simp [upsert]
  | cons e es ih =>
    obtain ⟨k', v'⟩ := e
    by_cases h : k' = k
    · simp [upsert, h]
    · have h' : ¬k = k' := fun e => h e.symm
      simp only [upsert, if_neg h, List.map_cons, ih, List.mem_cons, h', false_or]
      split <;> simp

theorem upsert_keys_nodup {es : List (κ × ν)} (h : (es.map Prod.fst).Nodup) (k : κ) (v : ν) :
    ((upsert es k v).map Prod.fst).Nodup := by
  rw [map_fst_upsert]
  split
  · exact h
  · next hk =>
    rw [List.nodup_append]
    exact ⟨h, by simp, fun a ha b hb e => hk (by simp at hb; rw [← hb, ← e]; exact ha)⟩

/-- The value of `k` in a list of entries. -/
def find? (es : List (κ × ν)) (k : κ) : Option ν :=
  (es.find? fun e => e.1 = k).map Prod.snd

/-- Entries in order of first insertion, each key once. -/
structure Dict (κ : Type u) (ν : Type v) where
  entries : List (κ × ν)
  keys_nodup : (entries.map Prod.fst).Nodup
  deriving DecidableEq, Repr

namespace Dict

def empty : Dict κ ν := ⟨[], by simp⟩

instance : EmptyCollection (Dict κ ν) := ⟨empty⟩

instance : Inhabited (Dict κ ν) := ⟨empty⟩

omit [DecidableEq κ] in
@[ext]
theorem ext {d e : Dict κ ν} (h : d.entries = e.entries) : d = e := by
  cases d; cases e; cases h; rfl

def insert (d : Dict κ ν) (k : κ) (v : ν) : Dict κ ν :=
  ⟨upsert d.entries k v, upsert_keys_nodup d.keys_nodup k v⟩

/-- The dictionary that results from inserting pairs in order. -/
def ofList (es : List (κ × ν)) : Dict κ ν :=
  es.foldl (fun d e => d.insert e.1 e.2) ∅

def get? (d : Dict κ ν) (k : κ) : Option ν := find? d.entries k

def contains (d : Dict κ ν) (k : κ) : Bool := (d.get? k).isSome

def keys (d : Dict κ ν) : List κ := d.entries.map Prod.fst

def values (d : Dict κ ν) : List ν := d.entries.map Prod.snd

def size (d : Dict κ ν) : Nat := d.entries.length

omit [DecidableEq κ] in
@[simp]
theorem entries_empty : (∅ : Dict κ ν).entries = [] := rfl

@[simp]
theorem entries_insert (d : Dict κ ν) (k : κ) (v : ν) :
    (d.insert k v).entries = upsert d.entries k v := rfl

end Dict

end EventForge
