import EventForge.Lint
import EventForge.Proofs.Dict
import EventForge.Proofs.Model
import EventForge.Proofs.Uuid

/-!
# What the lints report

An event on a stream that the model does not have is reported as not generated, and an event on no
stream as generated with the events of the default context; the two reports never coincide. Every
reference to a schema that the model does not have is reported, wherever it is in the tree of a
schema, and every flow with an end that is no key of the placements. Everything that is reported is
a warning.
-/

namespace EventForge.Lint

variable {m : Model} {p : Placement}

/-- The report of an event that is on no stream. -/
def onNoStream (m : Model) (p : Placement) : Diagnostic :=
  warning ("event '" ++ eventName m p ++ "' has no stream, generated into " ++ Context.defaultName)
    ("placements." ++ p.id.toText)

/-- The report of an event that is not generated, as no stream has the identifier of its lane. -/
def notGenerated (m : Model) (p : Placement) (lane : Uuid) : Diagnostic :=
  warning
    ("event '" ++ eventName m p ++ "' is placed on unknown stream " ++ lane.toText
      ++ ", not generated")
    ("placements." ++ p.id.toText)

theorem onNoStream_ne_notGenerated (lane : Uuid) : onNoStream m p ≠ notGenerated m p lane := by
  intro h
  have hmessage := congrArg (fun d : Diagnostic => d.message.toList) h
  simp [onNoStream, notGenerated, warning] at hmessage

theorem notGenerated_injective : Function.Injective (notGenerated m p) := by
  intro lane lane' h
  have hmessage := congrArg (fun d : Diagnostic => d.message.toList) h
  simp only [notGenerated, warning, String.toList_append, List.append_cancel_right_eq,
    List.append_cancel_left_eq] at hmessage
  exact Uuid.toText_injective (String.toList_injective hmessage)

theorem stream?_isNone_iff {lane : Uuid} :
    (m.stream? lane).isNone ↔ ∀ s ∈ m.streams, s.id ≠ lane := by
  simp [Model.stream?]

theorem strayEventOf_eq (hkind : p.laneKind = .stream) :
    strayEventOf m p =
      match p.laneId with
      | none => some (onNoStream m p)
      | some lane => if (m.stream? lane).isNone then some (notGenerated m p lane) else none := by
  rw [strayEventOf]
  cases p.laneId with
  | none => rfl
  | some lane =>
    simp only [hkind, ne_eq, not_true_eq_false, false_or]
    rfl

/-- An event is reported as not generated exactly when its lane is none of the streams. -/
theorem strayEventOf_notGenerated_iff (hkind : p.laneKind = .stream) {lane : Uuid} :
    strayEventOf m p = some (notGenerated m p lane) ↔
      p.laneId = some lane ∧ ∀ s ∈ m.streams, s.id ≠ lane := by
  rw [strayEventOf_eq hkind]
  cases p.laneId with
  | none => simp [onNoStream_ne_notGenerated]
  | some lane' =>
    simp only [Option.ite_none_right_eq_some, Option.some.injEq, stream?_isNone_iff]
    constructor
    · rintro ⟨hunknown, h⟩
      obtain rfl := notGenerated_injective h
      exact ⟨rfl, hunknown⟩
    · rintro ⟨rfl, hunknown⟩
      exact ⟨hunknown, rfl⟩

/-- An event is reported as being on no stream exactly when it has no lane. -/
theorem strayEventOf_onNoStream_iff (hkind : p.laneKind = .stream) :
    strayEventOf m p = some (onNoStream m p) ↔ p.laneId = none := by
  rw [strayEventOf_eq hkind]
  cases p.laneId with
  | none => simp
  | some lane => simp [(onNoStream_ne_notGenerated lane).symm]

/-- The report of a reference to a schema that is not in the model. -/
def unknownReference (schema : Schema) (target : Uuid) : Diagnostic :=
  warning ("schema '" ++ schema.name ++ "' references unknown schema " ++ target.toText)
    ("schemas." ++ schema.id.toText)

theorem mem_unresolvedReference {schema : Schema} {target : Uuid}
    (hschema : schema ∈ m.schemas.values) (htarget : target ∈ schema.type.references)
    (hunknown : m.schema? target = none) :
    unknownReference schema target ∈ unresolvedReference.check m := by
  refine List.mem_flatMap.2 ⟨schema, hschema, List.mem_map.2 ⟨target, ?_, rfl⟩⟩
  exact List.mem_filter.2 ⟨htarget, by simp [hunknown]⟩

/-- The report of an end of a flow that is no placement of the model. -/
def unknownEnd (flow : Uuid) (side : String) (placement : Uuid) : Diagnostic :=
  warning
    ("flow " ++ flow.toText ++ " has unknown " ++ side ++ " placement " ++ placement.toText)
    ("flows." ++ flow.toText)

theorem mem_danglingFlow_iff {d : Diagnostic} :
    d ∈ danglingFlow.check m ↔ ∃ flow ∈ m.flows.entries,
      (flow.2.source ∉ m.placements.keys ∧ d = unknownEnd flow.1 "source" flow.2.source) ∨
        (flow.2.target ∉ m.placements.keys ∧ d = unknownEnd flow.1 "target" flow.2.target) := by
  have hend (flow : Uuid) (side : String) (placement : Uuid) :
      danglingEnd m flow side placement = some d ↔
        placement ∉ m.placements.keys ∧ d = unknownEnd flow side placement := by
    rw [danglingEnd, ← Dict.contains_iff]
    split
    · next hknown => simp [hknown]
    · next hunknown => simp [hunknown, unknownEnd, eq_comm]
  simp only [danglingFlow, List.mem_flatMap, List.mem_filterMap, List.mem_cons, List.not_mem_nil,
    or_false, exists_eq_or_imp, exists_eq_left, hend]

/-- A flow with an end that is no key of the placements is reported at its own key, and nothing else
is reported there. -/
theorem exists_danglingFlow_at_iff {flow : Uuid × Flow} (hflow : flow ∈ m.flows.entries) :
    (∃ d ∈ danglingFlow.check m, d.location = some ("flows." ++ flow.1.toText)) ↔
      flow.2.source ∉ m.placements.keys ∨ flow.2.target ∉ m.placements.keys := by
  simp only [mem_danglingFlow_iff]
  constructor
  · rintro ⟨d, ⟨flow', hflow', hd⟩, hlocation⟩
    have hsame : d.location = some ("flows." ++ flow'.1.toText) → flow' = flow := by
      intro hd
      rw [hd, Option.some_inj, String.append_right_inj] at hlocation
      exact Dict.eq_of_key_eq hflow' hflow (Uuid.toText_injective hlocation)
    rcases hd with ⟨hunknown, rfl⟩ | ⟨hunknown, rfl⟩
    · exact .inl (hsame rfl ▸ hunknown)
    · exact .inr (hsame rfl ▸ hunknown)
  · rintro (hunknown | hunknown)
    · exact ⟨unknownEnd _ _ _, ⟨flow, hflow, .inl ⟨hunknown, rfl⟩⟩, rfl⟩
    · exact ⟨unknownEnd _ _ _, ⟨flow, hflow, .inr ⟨hunknown, rfl⟩⟩, rfl⟩

/-- No lint reports anything that stops a run. -/
theorem isWarning_of_mem {l : Lint} (hl : l ∈ all) {d : Diagnostic} (hd : d ∈ l.check m) :
    d.isWarning := by
  simp only [all, List.mem_cons, List.not_mem_nil, or_false] at hl
  rcases hl with rfl | rfl | rfl | rfl
  · obtain ⟨kind, -, hd⟩ := List.mem_flatMap.1 hd
    obtain ⟨note, -, hd⟩ := List.mem_filterMap.1 hd
    rw [missingSchemaOf] at hd
    split at hd
    · cases hd
    · split at hd
      · cases hd
      · exact Option.some.inj hd ▸ rfl
  · obtain ⟨schema, -, hd⟩ := List.mem_flatMap.1 hd
    obtain ⟨target, -, rfl⟩ := List.mem_map.1 hd
    rfl
  · obtain ⟨flow, -, ⟨-, rfl⟩ | ⟨-, rfl⟩⟩ := mem_danglingFlow_iff.1 hd <;> rfl
  · obtain ⟨p, -, hd⟩ := List.mem_filterMap.1 hd
    rw [strayEventOf] at hd
    split at hd
    · exact Option.some.inj hd ▸ rfl
    · split at hd
      · exact Option.some.inj hd ▸ rfl
      · cases hd

end EventForge.Lint
