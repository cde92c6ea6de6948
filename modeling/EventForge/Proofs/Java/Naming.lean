import EventForge.Java.Naming
import EventForge.Proofs.Text.Casing

/-!
# Signs in Java names

Making a Java name from a name of the model brings in no sign but the underscore behind a reserved
word, and no name but `..` becomes `..`.
-/

namespace EventForge.Java

open Text (plainSigns)

variable {x : Char} {name : String}

theorem not_mem_compact (h : x ∉ name.toList) : x ∉ (Text.compact name).toList := by
  rw [Text.toList_compact]
  exact fun hx => h (List.mem_filter.1 hx).1

theorem not_mem_titled (hx : x ∈ plainSigns) (h : x ∉ (Text.compact name).toList) :
    x ∉ (titled name).toList :=
  Text.not_mem_capitalizeFirst hx h

theorem not_mem_typeName (hx : x ∈ plainSigns) (hx' : x ≠ '_')
    (h : x ∉ (Text.compact name).toList) : x ∉ (typeName name).toList := by
  have htitled := not_mem_titled hx h
  rw [typeName, safeName]
  split
  · simp [htitled, hx']
  · exact htitled

/-- Only the name of the directory above becomes one. -/
theorem titled_eq_up_iff : titled name = ".." ↔ Text.compact name = ".." := by
  have himage : Text.upperChar '.' = ['.'] := by decide
  have hup : "..".toList = ['.', '.'] := rfl
  rw [← String.toList_inj, ← String.toList_inj, hup, titled, Text.capitalizeFirst, Text.mapFirst]
  split
  · next hnil => simp [hnil]
  · next c cs hcs =>
    rw [hcs, String.toList_ofList]
    constructor
    · intro h
      obtain ⟨d, ds, hd⟩ := List.exists_cons_of_ne_nil (Text.upperChar_ne_nil c)
      have hdot : d = '.' := by
        rw [hd] at h
        exact (List.cons.inj h).1
      have hc : c = '.' :=
        Text.eq_of_mem_upperChar (by decide) (by rw [hd, hdot]; exact List.mem_cons_self)
      rw [hc, himage] at h
      rw [hc]
      exact h
    · intro h
      obtain ⟨rfl, hcs'⟩ := List.cons.inj h
      rw [himage, hcs']
      rfl

/-- No title starts with a small letter that has a capital of its own. -/
theorem titled_ne_src : titled name ≠ "src" := by
  have hnone : Text.isNoImage Text.upperRuns Text.upperExpansions 's'.toNat := by decide
  have himage : Text.upperChar 's' = ['S'] := by decide
  have hsrc : "src".toList = ['s', 'r', 'c'] := rfl
  rw [ne_eq, ← String.toList_inj, hsrc, titled, Text.capitalizeFirst, Text.mapFirst]
  split
  · simp
  · next c cs hcs =>
    intro h
    rw [String.toList_ofList] at h
    obtain ⟨d, ds, hd⟩ := List.exists_cons_of_ne_nil (Text.upperChar_ne_nil c)
    rw [hd, List.cons_append] at h
    have hs : 's' ∈ Text.upperChar c := by
      rw [hd, (List.cons.inj h).1]
      exact List.mem_cons_self
    -- Only the letter itself could be mapped to it, and it has a capital.
    have hc : c = 's' := Text.eq_of_mem_caseImage hnone (by decide) hs
    rw [hc, himage] at hs
    exact absurd hs (by decide)

end EventForge.Java
