import EventForge.Namespace
import EventForge.Proofs.Path

/-!
# Base namespaces as directories

No part of a base namespace starts with a slash: the parts of a given one are identifiers, and in
the namespace of most schemas every slash became a dot.
-/

namespace EventForge.NamespaceChoice

open Text (pieces)

theorem not_isAbsolute_of_isIdentifier {s : String} (h : isIdentifier s) :
    ¬ (Path.mk s).isAbsolute := by
  rw [Path.isAbsolute_iff]
  intro hhead
  obtain ⟨cs, hcs⟩ := List.head?_eq_some_iff.1 hhead
  have hs : s.toList = '/' :: cs := hcs
  have hslash : isIdentifierStart '/' = false := by decide +kernel
  simp [isIdentifier, hs, hslash] at h

theorem isIdentifier_of_fault?_eq_none {text : String} (h : fault? text = none) :
    ∀ piece ∈ pieces '.' (Text.trim text), isIdentifier piece := by
  intro piece hpiece
  rw [fault?] at h
  split at h
  · cases h
  · have hseg := List.findSome?_eq_none_iff.1 h piece hpiece
    cases hid : isIdentifier piece with
    | true => rfl
    | false => simp [segmentFault?, hid] at hseg

theorem not_mem_replaceChar {a b : Char} (h : a ≠ b) (s : String) :
    a ∉ (Text.replaceChar a b s).toList := by
  intro hmem
  rw [Text.replaceChar, String.toList_ofList] at hmem
  obtain ⟨c, -, hc⟩ := List.mem_map.1 hmem
  split at hc
  · exact h hc.symm
  · next hne => exact hne hc

theorem slash_not_mem_majorityOf (m : Model) : '/' ∉ (majorityOf m).toList := by
  have hfallback : '/' ∉ fallbackNamespace.toList := by decide
  rw [majorityOf]
  split
  · split
    · exact hfallback
    · exact not_mem_replaceChar (by decide) _
  · exact hfallback

/-- The parts of the namespace that a choice without faults leads to are relative paths. -/
theorem resolve_relative {choice : NamespaceChoice}
    (h : ∀ ns, choice = .explicit ns → fault? ns = none) (m : Model) :
    ∀ piece ∈ pieces '.' (choice.resolve m), ¬ (Path.mk piece).isAbsolute := by
  intro piece hpiece
  cases choice with
  | explicit ns =>
    exact not_isAbsolute_of_isIdentifier (isIdentifier_of_fault?_eq_none (h ns rfl) piece hpiece)
  | majority =>
    exact Path.relative_of_no_slash fun hc =>
      slash_not_mem_majorityOf m (Text.mem_of_mem_pieces hpiece hc)
  | fallback =>
    have hfallback : '/' ∉ fallbackNamespace.toList := by decide
    exact Path.relative_of_no_slash fun hc => hfallback (Text.mem_of_mem_pieces hpiece hc)

end EventForge.NamespaceChoice
