import EventForge.Dict
import Mathlib.Data.List.Dedup
import Mathlib.Data.List.Forall2
import Mathlib.Data.List.Induction
import Mathlib.Data.List.Nodup

/-!
# Looking up entries

Inserting changes the value of one key and keeps those of the others; a look-up finds a value
exactly for the keys that a dictionary lists.
-/

namespace EventForge

universe u v w

variable {κ : Type u} {ν : Type v} [DecidableEq κ]

theorem find?_upsert (es : List (κ × ν)) (k k' : κ) (v : ν) :
    find? (upsert es k v) k' = if k = k' then some v else find? es k' := by
  induction es with
  | nil => by_cases h : k = k' <;> simp [upsert, find?, h]
  | cons e es ih =>
    obtain ⟨k₀, v₀⟩ := e
    by_cases h₀ : k₀ = k
    · subst h₀
      by_cases h : k₀ = k' <;> simp [upsert, find?, h]
    · rw [upsert, if_neg h₀]
      by_cases h' : k₀ = k'
      · have hk : k ≠ k' := fun e => h₀ (h'.trans e.symm)
        simp [find?, h', hk]
      · simpa [find?, h'] using ih

theorem mem_upsert {es : List (κ × ν)} {k : κ} {v : ν} {e : κ × ν} (h : e ∈ upsert es k v) :
    e = (k, v) ∨ e ∈ es := by
  induction es with
  | nil => simpa [upsert] using h
  | cons e₀ es ih =>
    obtain ⟨k₀, v₀⟩ := e₀
    rw [upsert] at h
    split at h
    · exact (List.mem_cons.1 h).imp_right (List.mem_cons_of_mem _)
    · rcases List.mem_cons.1 h with rfl | h
      · exact .inr List.mem_cons_self
      · exact (ih h).imp_right (List.mem_cons_of_mem _)

theorem upsert_of_not_mem {es : List (κ × ν)} {k : κ} (h : k ∉ es.map Prod.fst) (v : ν) :
    upsert es k v = es ++ [(k, v)] := by
  induction es with
  | nil => rfl
  | cons e es ih =>
    obtain ⟨k₀, v₀⟩ := e
    rw [List.map_cons, List.mem_cons, not_or] at h
    rw [upsert, if_neg fun e => h.1 e.symm, ih h.2, List.cons_append]

theorem find?_isSome_iff (es : List (κ × ν)) (k : κ) :
    (find? es k).isSome ↔ k ∈ es.map Prod.fst := by
  simp [find?, Option.isSome_map, List.find?_isSome, List.mem_map]

@[simp]
theorem find?_nil (k : κ) : find? ([] : List (κ × ν)) k = none := rfl

@[simp]
theorem find?_cons (k k' : κ) (v : ν) (es : List (κ × ν)) :
    find? ((k, v) :: es) k' = if k = k' then some v else find? es k' := by
  by_cases h : k = k' <;> simp [find?, h]

@[simp]
theorem find?_append (es es' : List (κ × ν)) (k : κ) :
    find? (es ++ es') k = (find? es k).or (find? es' k) := by
  simp only [find?, List.find?_append]
  cases es.find? fun e => e.1 = k <;> rfl

theorem find?_map_self (xs : List κ) (f : κ → ν) (x : κ) :
    find? (xs.map fun n => (n, f n)) x = if x ∈ xs then some (f x) else none := by
  induction xs with
  | nil => rfl
  | cons y ys ih =>
    rw [List.map_cons, find?_cons, ih]
    by_cases h : y = x
    · simp [h]
    · simp [h, Ne.symm h]

/-- Changing the value of a listed key changes it in its place. -/
theorem upsert_map_self {xs : List κ} (hnodup : xs.Nodup) (f : κ → ν) {x : κ}
    (hx : x ∈ xs) (v : ν) :
    upsert (xs.map fun n => (n, f n)) x v = xs.map fun n => (n, if n = x then v else f n) := by
  induction xs with
  | nil => cases hx
  | cons y ys ih =>
    rw [List.nodup_cons] at hnodup
    rw [List.map_cons, List.map_cons, upsert]
    by_cases h : y = x
    · subst h
      rw [if_pos rfl, if_pos rfl]
      refine congrArg _ (List.map_congr_left fun n hn => ?_)
      rw [if_neg fun heq : n = y => hnodup.1 (heq ▸ hn)]
    · have hx' : x ∈ ys := (List.mem_cons.1 hx).resolve_left (Ne.symm h)
      rw [if_neg h, if_neg h, ih hnodup.2 hx']

/-! ## Related entries -/

theorem exists_mem_of_forall₂ {α : Type u} {β : Type v} {R : α → β → Prop} {xs : List α}
    {ys : List β} (h : List.Forall₂ R xs ys) {y : β} (hy : y ∈ ys) : ∃ x ∈ xs, R x y := by
  induction h with
  | nil => cases hy
  | cons hxy _ ih =>
    obtain rfl | hy := List.mem_cons.1 hy
    · exact ⟨_, List.mem_cons_self, hxy⟩
    · obtain ⟨x, hx, hr⟩ := ih hy
      exact ⟨x, List.mem_cons_of_mem _ hx, hr⟩

section Related

variable {ν' : Type w} {R : κ → ν → ν' → Prop}

/-- Entries of one key with related values. -/
def Related (R : κ → ν → ν' → Prop) (e : κ × ν) (e' : κ × ν') : Prop := e.1 = e'.1 ∧ R e.1 e.2 e'.2

theorem forall₂_upsert {es : List (κ × ν)} {es' : List (κ × ν')}
    (h : List.Forall₂ (Related R) es es') {k : κ} {v : ν} {v' : ν'} (hv : R k v v') :
    List.Forall₂ (Related R) (upsert es k v) (upsert es' k v') := by
  induction h with
  | nil => exact .cons ⟨rfl, hv⟩ .nil
  | @cons e e' es es' he hes ih =>
    obtain ⟨k₀, v₀⟩ := e
    obtain ⟨k₀', v₀'⟩ := e'
    obtain ⟨rfl, hR⟩ := he
    rw [upsert, upsert]
    split
    · exact .cons ⟨rfl, hv⟩ hes
    · exact .cons ⟨rfl, hR⟩ ih

end Related

namespace Dict

theorem get?_insert (d : Dict κ ν) (k k' : κ) (v : ν) :
    (d.insert k v).get? k' = if k = k' then some v else d.get? k' :=
  find?_upsert d.entries k k' v

theorem mem_entries_insert {d : Dict κ ν} {k : κ} {v : ν} {e : κ × ν}
    (h : e ∈ (d.insert k v).entries) : e = (k, v) ∨ e ∈ d.entries :=
  mem_upsert h

theorem mem_keys_insert {d : Dict κ ν} {k k' : κ} {v : ν} :
    k' ∈ (d.insert k v).keys ↔ k' = k ∨ k' ∈ d.keys := by
  simp only [keys, entries_insert, map_fst_upsert]
  split
  · next hk => exact ⟨Or.inr, fun h => h.elim (fun e => e ▸ hk) id⟩
  · rw [List.mem_append, List.mem_singleton, or_comm]

omit [DecidableEq κ] in
/-- The keys after steps that each insert at most one key. -/
theorem mem_keys_foldl {α : Type*} {step : Dict κ ν → α → Dict κ ν} {key : α → Option κ} {k : κ}
    (hstep : ∀ d a, k ∈ (step d a).keys ↔ key a = some k ∨ k ∈ d.keys) (xs : List α)
    (d : Dict κ ν) :
    k ∈ (xs.foldl step d).keys ↔ k ∈ d.keys ∨ ∃ a ∈ xs, key a = some k := by
  induction xs generalizing d with
  | nil => simp
  | cons a xs ih =>
    rw [List.foldl_cons, ih, hstep]
    simp only [List.mem_cons, exists_eq_or_imp]
    exact or_assoc.trans or_left_comm

theorem entries_foldl_insert {d : Dict κ ν} {es : List (κ × ν)}
    (h : ((d.entries ++ es).map Prod.fst).Nodup) :
    (es.foldl (fun d e => d.insert e.1 e.2) d).entries = d.entries ++ es := by
  induction es generalizing d with
  | nil => simp
  | cons e es ih =>
    have hfresh : e.1 ∉ d.entries.map Prod.fst := by
      rw [List.map_append, List.map_cons, List.nodup_append] at h
      exact fun hmem => h.2.2 e.1 hmem e.1 (by simp) rfl
    have hentries : (d.insert e.1 e.2).entries = d.entries ++ [e] := by
      rw [entries_insert, upsert_of_not_mem hfresh]
    rw [List.foldl_cons, ih (by rw [hentries]; simpa using h), hentries, List.append_assoc,
      List.singleton_append]

/-- Pairs are the entries of the dictionary made from them when no key is repeated. -/
theorem entries_ofList_eq_iff {es : List (κ × ν)} :
    (ofList es).entries = es ↔ (es.map Prod.fst).Nodup := by
  constructor
  · intro h
    have hkeys := (ofList es).keys_nodup
    rwa [h] at hkeys
  · intro h
    have hentries := entries_foldl_insert (d := (∅ : Dict κ ν)) h
    simpa [ofList] using hentries

/-- The entries of a dictionary made from pairs: of a repeated key the last value. -/
theorem entries_ofList (es : List (κ × ν)) :
    (ofList es).entries = es.foldl (fun entries e => upsert entries e.1 e.2) [] := by
  suffices hgen : ∀ d : Dict κ ν, (es.foldl (fun d e => d.insert e.1 e.2) d).entries =
      es.foldl (fun entries e => upsert entries e.1 e.2) d.entries from hgen ∅
  induction es with
  | nil => exact fun _ => rfl
  | cons e es ih => exact fun d => ih (d.insert e.1 e.2)

theorem mem_of_mem_ofList {es : List (κ × ν)} {e : κ × ν} (h : e ∈ (ofList es).entries) :
    e ∈ es := by
  induction es using List.reverseRecOn with
  | nil => exact h
  | append_singleton es e' ih =>
    rw [ofList, List.foldl_append] at h
    rw [List.mem_append]
    rcases mem_entries_insert h with rfl | h
    · exact .inr (List.mem_singleton_self _)
    · exact .inl (ih h)

/-- Dictionaries made from related pairs have related entries. -/
theorem forall₂_ofList {ν' : Type w} {R : κ → ν → ν' → Prop} {es : List (κ × ν)}
    {es' : List (κ × ν')} (h : List.Forall₂ (Related R) es es') :
    List.Forall₂ (Related R) (ofList es).entries (ofList es').entries := by
  rw [entries_ofList, entries_ofList]
  suffices hgen : ∀ {acc : List (κ × ν)} {acc' : List (κ × ν')},
      List.Forall₂ (Related R) acc acc' →
      List.Forall₂ (Related R) (es.foldl (fun entries e => upsert entries e.1 e.2) acc)
        (es'.foldl (fun entries e => upsert entries e.1 e.2) acc') from hgen .nil
  induction h with
  | nil => exact fun hacc => hacc
  | @cons e e' es es' he _ ih =>
    intro acc acc' hacc
    rw [List.foldl_cons, List.foldl_cons, ← he.1]
    exact ih (forall₂_upsert hacc he.2)

theorem mem_keys_ofList {es : List (κ × ν)} {k : κ} :
    k ∈ (ofList es).keys ↔ k ∈ es.map Prod.fst := by
  have hinsert : ∀ (d : Dict κ ν) (e : κ × ν),
      k ∈ (d.insert e.1 e.2).keys ↔ some e.1 = some k ∨ k ∈ d.keys := by
    intro d e
    rw [mem_keys_insert, Option.some_inj, eq_comm]
  rw [ofList, mem_keys_foldl hinsert]
  simp [keys]

/-- A dictionary has as many entries as there are pairs when no key is repeated. -/
theorem size_ofList_eq_iff {es : List (κ × ν)} :
    (ofList es).size = es.length ↔ (es.map Prod.fst).Nodup := by
  have hperm : (ofList es).keys.Perm (es.map Prod.fst).dedup :=
    (List.perm_ext_iff_of_nodup (ofList es).keys_nodup (List.nodup_dedup _)).2 fun k => by
      rw [← keys, mem_keys_ofList, List.mem_dedup]
  have hsize : (ofList es).size = (es.map Prod.fst).dedup.length := by
    rw [← hperm.length_eq, keys, List.length_map, size]
  rw [hsize, ← List.dedup_eq_self]
  constructor
  · intro hlength
    exact (List.dedup_sublist _).eq_of_length (by rw [hlength, List.length_map])
  · intro hsame
    rw [hsame, List.length_map]

theorem get?_of_mem {d : Dict κ ν} {e : κ × ν} (h : e ∈ d.entries) : d.get? e.1 = some e.2 := by
  obtain ⟨entries, hkeys⟩ := d
  rw [get?]
  dsimp only at h ⊢
  induction entries with
  | nil => cases h
  | cons e' entries ih =>
    obtain ⟨k, v⟩ := e'
    rw [List.map_cons, List.nodup_cons] at hkeys
    rw [find?_cons]
    rcases List.mem_cons.1 h with rfl | hmem
    · rw [if_pos rfl]
    · have hne : k ≠ e.1 := by
        rintro rfl
        exact hkeys.1 (List.mem_map.2 ⟨e, hmem, rfl⟩)
      rw [if_neg hne]
      exact ih hkeys.2 hmem

/-- Dictionaries that list the same keys in one order and find the same values are equal. -/
theorem eq_of_get? {d e : Dict κ ν} (hkeys : e.keys = d.keys) (hget : ∀ k, e.get? k = d.get? k) :
    e = d := by
  have hfound : ∀ d : Dict κ ν,
      d.entries.map (fun e => (e.1, some e.2)) = d.keys.map fun k => (k, d.get? k) := by
    intro d
    rw [keys, List.map_map]
    apply List.map_congr_left
    intro entry hentry
    rw [Function.comp_apply, get?_of_mem hentry]
  have hinjective : Function.Injective fun e : κ × ν => (e.1, some e.2) := by
    rintro ⟨k, v⟩ ⟨k', v'⟩ h
    simpa using h
  apply ext
  apply List.map_injective_iff.2 hinjective
  rw [hfound, hfound, hkeys]
  exact List.map_congr_left fun k _ => by rw [hget]

omit [DecidableEq κ] in
/-- A key has one entry. -/
theorem eq_of_key_eq {d : Dict κ ν} {e e' : κ × ν} (h : e ∈ d.entries) (h' : e' ∈ d.entries)
    (hkey : e.1 = e'.1) : e = e' :=
  List.inj_on_of_nodup_map d.keys_nodup h h' hkey

/-- The entries that pass a test, in order. -/
def filter (d : Dict κ ν) (p : κ × ν → Bool) : Dict κ ν :=
  ⟨d.entries.filter p, d.keys_nodup.sublist (List.filter_sublist.map Prod.fst)⟩

omit [DecidableEq κ] in
theorem mem_values_filter {d : Dict κ ν} {p : κ × ν → Bool} {v : ν} :
    v ∈ (d.filter p).values ↔ ∃ k, (k, v) ∈ d.entries ∧ p (k, v) := by
  simp [values, filter]

theorem contains_iff {d : Dict κ ν} {k : κ} : d.contains k ↔ k ∈ d.keys :=
  find?_isSome_iff d.entries k

theorem mem_of_get? {d : Dict κ ν} {k : κ} {v : ν} (h : d.get? k = some v) :
    (k, v) ∈ d.entries := by
  obtain ⟨e, he, rfl⟩ := Option.map_eq_some_iff.1 h
  obtain rfl : e.1 = k := by simpa using List.find?_some he
  exact List.mem_of_find?_eq_some he

theorem mem_keys_of_get? {d : Dict κ ν} {k : κ} {v : ν} (h : d.get? k = some v) : k ∈ d.keys :=
  List.mem_map_of_mem (mem_of_get? h)

theorem mem_values_of_get? {d : Dict κ ν} {k : κ} {v : ν} (h : d.get? k = some v) :
    v ∈ d.values :=
  List.mem_map_of_mem (mem_of_get? h)

end Dict

end EventForge
