import EventForge.Java.ClassDraft
import EventForge.Proofs.Dict

/-!
# Working out a draft

Meeting the enums of a field adds their names to the draft and leaves its fields alone. While fields
are worked out the draft keeps its name, and what is noticed on the way is a warning.
-/

namespace EventForge.Java

namespace ClassDraft

variable {m : Model} {d : ClassDraft}

theorem mem_keys_addEnum {field : String} {e : String × List String} {n : String} :
    n ∈ (d.addEnum field e).enums.keys ↔ n = e.1 ∨ n ∈ d.enums.keys := by
  rw [addEnum]
  split
  · exact Dict.mem_keys_insert
  · next first hfirst =>
    have hmem := Dict.mem_keys_of_get? hfirst
    have hiff : n ∈ d.enums.keys ↔ n = e.1 ∨ n ∈ d.enums.keys :=
      ⟨.inr, fun h => h.elim (fun hn => hn ▸ hmem) id⟩
    split <;> exact hiff

theorem fields_addEnum (field : String) (d : ClassDraft) (e : String × List String) :
    (d.addEnum field e).fields = d.fields := by
  rw [addEnum]
  split
  · rfl
  · split <;> rfl

theorem foldl_addEnum (field : String) (es : List (String × List String)) (d : ClassDraft) :
    (es.foldl (addEnum field) d).fields = d.fields ∧
      ∀ n, n ∈ (es.foldl (addEnum field) d).enums.keys ↔ n ∈ es.map Prod.fst ∨ n ∈ d.enums.keys := by
  induction es generalizing d with
  | nil => simp
  | cons e es ih =>
    obtain ⟨hfields, hkeys⟩ := ih (d.addEnum field e)
    rw [List.foldl_cons]
    refine ⟨hfields.trans (fields_addEnum field d e), fun n => ?_⟩
    rw [hkeys, mem_keys_addEnum, List.map_cons, List.mem_cons]
    exact or_left_comm.trans or_assoc.symm

/-- What working out each field keeps is kept by working out all of them. -/
theorem addFields_induction {motive : ClassDraft → Prop} (entries : List (String × TypeTree))
    (start : motive d) (step : ∀ d e, motive d → motive (d.addField m e).1) :
    motive (d.addFields m entries).1 := by
  induction entries generalizing d with
  | nil => exact start
  | cons e entries ih =>
    have hd := step d e start
    rw [addFields]
    split
    · next d' heq =>
      rw [heq] at hd
      exact ih hd
    · next d' fault heq =>
      rw [heq] at hd
      exact hd

theorem name_addField (m : Model) (d : ClassDraft) (e : String × TypeTree) :
    (d.addField m e).1.name = d.name := by
  have hfold : ∀ (field : String) (es : List (String × List String)) (d : ClassDraft),
      (es.foldl (addEnum field) d).name = d.name := by
    intro field es
    induction es with
    | nil => simp
    | cons e es ih =>
      intro d
      rw [List.foldl_cons, ih, addEnum]
      split
      · rfl
      · split <;> rfl
  rw [addField]
  split
  · split <;> rfl
  · split
    · rfl
    · exact hfold _ _ d

theorem name_addFields (m : Model) (entries : List (String × TypeTree)) (d : ClassDraft) :
    (d.addFields m entries).1.name = d.name :=
  addFields_induction (motive := fun d' => d'.name = d.name) entries rfl
    fun d' e h => (name_addField m d' e).trans h

/-- Nothing worse than a warning was noticed. -/
def Warns (d : ClassDraft) : Prop := ∀ x ∈ d.diagnostics, x.isWarning

theorem Warns.append {field message : String} (h : d.Warns) :
    Warns { d with diagnostics := d.diagnostics ++ [d.warning field message] } := by
  intro x hx
  rcases List.mem_append.1 hx with hx | hx
  · exact h x hx
  · rw [List.mem_singleton.1 hx]
    rfl

theorem Warns.addEnum (h : d.Warns) (field : String) (e : String × List String) :
    (d.addEnum field e).Warns := by
  rw [ClassDraft.addEnum]
  split
  · exact h
  · split
    · exact h
    · exact h.append

theorem Warns.addField (h : d.Warns) (m : Model) (e : String × TypeTree) :
    (d.addField m e).1.Warns := by
  rw [ClassDraft.addField]
  split
  · split
    · exact h.append
    · exact h
  · split
    · exact h
    · have hkeep := List.foldlRecOn (motive := Warns) (Resolve.enums e.2).entries
        (ClassDraft.addEnum (fieldName e.1)) h fun d hd e _ => hd.addEnum _ e
      exact hkeep

theorem Warns.addFields (h : d.Warns) (m : Model) (entries : List (String × TypeTree)) :
    (d.addFields m entries).1.Warns :=
  addFields_induction entries h fun _ e hd => hd.addField m e

end ClassDraft

end EventForge.Java
