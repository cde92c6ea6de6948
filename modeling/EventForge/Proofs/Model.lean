import EventForge.Model

/-!
# Models and their placements

The model of nothing, from which small models are made, and membership in a section of placements.
-/

namespace EventForge

/-- The identifier of 32 equal digits. -/
def Uuid.uniform (d : Nat) : Uuid :=
  ⟨List.replicate 32 ⟨d % 16, Nat.mod_lt d (by decide)⟩, List.length_replicate⟩

namespace Model

/-- The model of nothing. -/
def empty : Model :=
  ⟨Uuid.nil, "", none, [], [], ∅, ∅, ∅, ∅, ∅, ∅, ∅⟩

theorem mem_placementsOf {m : Model} {kind : NoteKind} {p : Placement} :
    p ∈ m.placementsOf kind ↔ p ∈ m.placements.values ∧ p.noteKind = kind := by
  simp [placementsOf]

end Model

end EventForge
