import EventForge.Proofs.Context.Exclusive
import EventForge.Proofs.Lint

/-!
# Flows that lead nowhere

A lint reports a flow with an end that is no key of the model's placements. Contexts are made from
the identifiers that placements declare, so such a flow may still bring a command or a read model
into a context. Leaving the reported flows out changes no context exactly when each of these is
brought there by another flow as well (`partition_withoutReported_iff`), in particular when every
placement's identifier is a key.
-/

namespace EventForge.Context

variable {m : Model}

/-- A lint reports an end of the flow with this key. -/
def isReported (m : Model) (key : Uuid) : Bool :=
  (Lint.danglingFlow.check m).any fun d => d.location = some ("flows." ++ key.toText)

/-- The model without the flows of which a lint reports an end. -/
def withoutReported (m : Model) : Model :=
  { m with flows := m.flows.filter fun e => !isReported m e.1 }

/-- The flow brings the identifier into the context of the lane: that of a command which it joins to
an event, or that of a read model which it leads to from an event. -/
def Brings (m : Model) (lane : Option Uuid) (f : Flow) (id : Uuid) : Prop :=
  (Placed m .command id ∧
      ((f.source = id ∧ f.target ∈ eventIds m lane) ∨
        (f.target = id ∧ f.source ∈ eventIds m lane))) ∨
    (Placed m .readModel id ∧ f.target = id ∧ f.source ∈ eventIds m lane)

theorem isReported_iff {e : Uuid × Flow} (he : e ∈ m.flows.entries) :
    isReported m e.1 ↔ e.2.source ∉ m.placements.keys ∨ e.2.target ∉ m.placements.keys := by
  rw [← Lint.exists_danglingFlow_at_iff he, isReported, List.any_eq_true]
  simp only [decide_eq_true_eq]

/-- Besides the events of the lane, a context lists what some flow brings. -/
theorem mem_placementsFor_iff_brings {lane : Option Uuid} {id : Uuid} :
    id ∈ placementsFor m lane ↔
      id ∈ eventIds m lane ∨ ∃ f ∈ m.flows.values, Brings m lane f id := by
  simp only [placementsFor, mem_union, List.mem_filter, mem_ids_placementsOf, touches_iff,
    isFedBy_iff, Joined, Fed, Brings, or_assoc]
  refine or_congr_right ⟨?_, ?_⟩
  · rintro (⟨hplaced, f, hf, hends⟩ | ⟨hplaced, f, hf, hends⟩)
    · exact ⟨f, hf, .inl ⟨hplaced, hends⟩⟩
    · exact ⟨f, hf, .inr ⟨hplaced, hends⟩⟩
  · rintro ⟨f, hf, ⟨hplaced, hends⟩ | ⟨hplaced, hends⟩⟩
    · exact .inl ⟨hplaced, f, hf, hends⟩
    · exact .inr ⟨hplaced, f, hf, hends⟩

section Subflows

variable {m' : Model} {lane : Option Uuid}

/-- Models with the same placements have the same events, whatever their flows. -/
theorem eventIds_congr (hp : m'.placements = m.placements) :
    eventIds m' lane = eventIds m lane := by
  simp only [eventIds, Model.placementsOf, hp]

theorem brings_congr (hp : m'.placements = m.placements) {f : Flow} {id : Uuid} :
    Brings m' lane f id ↔ Brings m lane f id := by
  simp only [Brings, Placed, hp, eventIds_congr hp]

/-- With fewer flows a context stays the same list as soon as nothing is lost: what is listed as a
command is not listed as a read model instead, as a flow that feeds an identifier also joins it. -/
theorem placementsFor_eq_of_subset (hp : m'.placements = m.placements)
    (hflows : ∀ f ∈ m'.flows.values, f ∈ m.flows.values)
    (h : ∀ id ∈ placementsFor m lane, id ∈ placementsFor m' lane) :
    placementsFor m' lane = placementsFor m lane := by
  have hids (kind : NoteKind) : (m'.placementsOf kind).map Placement.id =
      (m.placementsOf kind).map Placement.id := by
    rw [Model.placementsOf, Model.placementsOf, hp]
  have hjoined {id : Uuid} : Joined m' (eventIds m lane) id → Joined m (eventIds m lane) id := by
    rintro ⟨f, hf, hends⟩
    exact ⟨f, hflows f hf, hends⟩
  have hfed {id : Uuid} : Fed m' (eventIds m lane) id → Fed m (eventIds m lane) id := by
    rintro ⟨f, hf, hends⟩
    exact ⟨f, hflows f hf, hends⟩
  have hkept {id : Uuid} (hmem : id ∈ placementsFor m lane) (hnew : id ∉ eventIds m lane) :
      Joined m' (eventIds m lane) id := by
    obtain hevent | ⟨f, hf, hbrings⟩ := mem_placementsFor_iff_brings.1 (h id hmem)
    · exact absurd (eventIds_congr hp ▸ hevent) hnew
    · rw [Brings, eventIds_congr hp] at hbrings
      rcases hbrings with ⟨-, hends⟩ | ⟨-, hends⟩
      · exact ⟨f, hf, hends⟩
      · exact ⟨f, hf, .inr hends⟩
  have hcommands : fresh (eventIds m lane)
        (((m.placementsOf .command).map Placement.id).filter (touches m' (eventIds m lane))) =
      fresh (eventIds m lane)
        (((m.placementsOf .command).map Placement.id).filter (touches m (eventIds m lane))) := by
    refine fresh_filter_congr fun id hid hnew => ?_
    rw [Bool.eq_iff_iff, touches_iff, touches_iff]
    refine ⟨hjoined, fun hj => hkept ?_ hnew⟩
    obtain ⟨f, hf, hends⟩ := hj
    exact mem_placementsFor_iff_brings.2
      (.inr ⟨f, hf, .inl ⟨mem_ids_placementsOf.1 hid, hends⟩⟩)
  rw [placementsFor_eq, placementsFor_eq, eventIds_congr hp, hids, hids, hcommands]
  refine congrArg _ (fresh_filter_congr fun id hid hnew => ?_)
  rw [Bool.eq_iff_iff, isFedBy_iff, isFedBy_iff]
  refine ⟨hfed, fun hf => ?_⟩
  obtain ⟨f, hf, hends⟩ := hf
  have hmem : id ∈ placementsFor m lane := mem_placementsFor_iff_brings.2
    (.inr ⟨f, hf, .inr ⟨mem_ids_placementsOf.1 hid, hends⟩⟩)
  have hmem' := h id hmem
  rw [placementsFor_eq, eventIds_congr hp, hids, hids, hcommands, List.mem_append] at hmem'
  have hread := mem_fresh.1 (hmem'.resolve_left hnew)
  exact isFedBy_iff.1 (List.mem_filter.1 hread.1).2

end Subflows

theorem mem_flows_withoutReported {f : Flow} :
    f ∈ (withoutReported m).flows.values ↔
      ∃ key, (key, f) ∈ m.flows.entries ∧ isReported m key = false := by
  simp [withoutReported, Dict.mem_values_filter]

theorem partition_eq_iff {m' : Model} (hstreams : m'.streams = m.streams) :
    partition m' = partition m ↔
      ∀ lane ∈ lanes m, placementsFor m' lane = placementsFor m lane := by
  have hdefault : none ∈ lanes m := mem_lanes_iff.2 nofun
  have hstream {s : Stream} (hs : s ∈ m.streams) : some s.id ∈ lanes m :=
    mem_lanes_iff.2 fun id hid => ⟨s, hs, Option.some.inj hid⟩
  rw [partition, partition, hstreams]
  constructor
  · intro h lane hlane
    obtain ⟨hmap, hlast⟩ := List.append_inj h (by simp)
    cases lane with
    | none => simpa using hlast
    | some id =>
      obtain ⟨s, hs, rfl⟩ := mem_lanes_iff.1 hlane id rfl
      simpa using List.map_inj_left.1 hmap s hs
  · intro h
    rw [h none hdefault, List.map_congr_left fun s hs => by rw [h _ (hstream hs)]]

/-- Leaving out what a lint reports changes no context exactly when everything that a flow brings
into a context is also brought there by a flow that is kept. -/
theorem partition_withoutReported (m : Model) :
    partition (withoutReported m) = partition m ↔
      ∀ lane ∈ lanes m, ∀ f ∈ m.flows.values, ∀ id ∉ eventIds m lane, Brings m lane f id →
        ∃ f' ∈ (withoutReported m).flows.values, Brings m lane f' id := by
  have hevents (lane : Option Uuid) : eventIds (withoutReported m) lane = eventIds m lane :=
    eventIds_congr rfl
  have hflows : ∀ f ∈ (withoutReported m).flows.values, f ∈ m.flows.values := by
    intro f hf
    obtain ⟨key, hkey, -⟩ := mem_flows_withoutReported.1 hf
    exact List.mem_map_of_mem hkey
  have hstreams : (withoutReported m).streams = m.streams := rfl
  rw [partition_eq_iff hstreams]
  refine forall₂_congr fun lane _ => ⟨fun h f hf id hnew hbrings => ?_, fun h => ?_⟩
  · have hmem : id ∈ placementsFor (withoutReported m) lane := by
      rw [h]
      exact mem_placementsFor_iff_brings.2 (.inr ⟨f, hf, hbrings⟩)
    obtain hevent | ⟨f', hf', hbrings'⟩ := mem_placementsFor_iff_brings.1 hmem
    · exact absurd (hevents lane ▸ hevent) hnew
    · exact ⟨f', hf', (brings_congr rfl).1 hbrings'⟩
  · refine placementsFor_eq_of_subset rfl hflows fun id hid => ?_
    rw [mem_placementsFor_iff_brings, hevents]
    by_cases hevent : id ∈ eventIds m lane
    · exact .inl hevent
    · obtain ⟨f, hf, hbrings⟩ := (mem_placementsFor_iff_brings.1 hid).resolve_left hevent
      obtain ⟨f', hf', hbrings'⟩ := h f hf id hevent hbrings
      exact .inr ⟨f', hf', (brings_congr rfl).2 hbrings'⟩

/-- Both ends of a flow that brings something are identifiers that placements declare. -/
theorem Brings.declared {lane : Option Uuid} {f : Flow} {id : Uuid} (h : Brings m lane f id) :
    (∃ p ∈ m.placements.values, p.id = f.source) ∧ ∃ p ∈ m.placements.values, p.id = f.target := by
  have hplaced {kind : NoteKind} : Placed m kind id → ∃ p ∈ m.placements.values, p.id = id := by
    rintro ⟨p, hp, -, hid⟩
    exact ⟨p, hp, hid⟩
  have hevent {id : Uuid} : id ∈ eventIds m lane → ∃ p ∈ m.placements.values, p.id = id := by
    intro hid
    obtain ⟨p, hp, -, rfl⟩ := mem_eventIds.1 hid
    exact ⟨p, hp, rfl⟩
  rcases h with ⟨hcommand, ⟨rfl, htarget⟩ | ⟨rfl, hsource⟩⟩ | ⟨hread, rfl, hsource⟩
  · exact ⟨hplaced hcommand, hevent htarget⟩
  · exact ⟨hevent hsource, hplaced hcommand⟩
  · exact ⟨hevent hsource, hplaced hread⟩

/-- Where the identifiers of the placements are keys, a reported flow brings nothing. -/
theorem partition_withoutReported_of_keys
    (hkeys : ∀ p ∈ m.placements.values, p.id ∈ m.placements.keys) :
    partition (withoutReported m) = partition m := by
  refine (partition_withoutReported m).2 fun lane _ f hf id _ hbrings => ⟨f, ?_, hbrings⟩
  obtain ⟨⟨key, f⟩, he, rfl⟩ := List.mem_map.1 hf
  obtain ⟨⟨p, hp, hsource⟩, q, hq, htarget⟩ := hbrings.declared
  refine mem_flows_withoutReported.2 ⟨key, he, Bool.eq_false_iff.2 fun hreported => ?_⟩
  rcases (isReported_iff he).1 hreported with hunknown | hunknown
  · exact hunknown (hsource ▸ hkeys p hp)
  · exact hunknown (htarget ▸ hkeys q hq)

/-- A lint reports the flows with an end that is no key of the placements. Leaving these out changes
no context exactly when everything that a flow brings into a context is also brought there by a flow
that is kept. That is so when every identifier of a placement is a key, and hence unless reading
raised the warning that a placement stands under another identifier than its own. -/
theorem partition_withoutReported_iff {ws : List Diagnostic} (h : Document.Accepted m ws) :
    (∀ e ∈ m.flows.entries, isReported m e.1 ↔
      e.2.source ∉ m.placements.keys ∨ e.2.target ∉ m.placements.keys) ∧
    (partition (withoutReported m) = partition m ↔
      ∀ lane ∈ lanes m, ∀ f ∈ m.flows.values, ∀ id ∉ eventIds m lane, Brings m lane f id →
        ∃ f' ∈ (withoutReported m).flows.values, Brings m lane f' id) ∧
    ((∀ p ∈ m.placements.values, p.id ∈ m.placements.keys) →
      partition (withoutReported m) = partition m) ∧
    ((∀ e ∈ m.placements.entries, ∀ location,
        Document.keyMismatch e.1 e.2.id location ∉ ws) →
      partition (withoutReported m) = partition m) := by
  refine ⟨fun e he => isReported_iff he, partition_withoutReported m,
    partition_withoutReported_of_keys, fun hunwarned => ?_⟩
  refine partition_withoutReported_of_keys fun p hp => ?_
  obtain ⟨e, he, rfl⟩ := List.mem_map.1 hp
  exact h.key_eq he (hunwarned e he) ▸ List.mem_map_of_mem he

/-- A stream with an event (4) and two commands: one (3) flows into the event, the other (7) has a
flow (8) to a placement that is not there. -/
def strayFlow : Model :=
  { Model.empty with
    streams := [⟨.uniform 1, "Orders"⟩]
    placements := Dict.ofList
      [(.uniform 4, placedOn (.uniform 1) 0),
        (.uniform 3, ⟨.uniform 3, 0, .command, .uniform 3, .timeline, none⟩),
        (.uniform 7, ⟨.uniform 7, 1, .command, .uniform 7, .timeline, none⟩)]
    flows := Dict.ofList
      [(.uniform 6, ⟨.uniform 3, .uniform 4⟩), (.uniform 8, ⟨.uniform 7, .uniform 9⟩)] }

theorem partition_withoutReported_strayFlow :
    Document.Accepted strayFlow [] ∧
      (withoutReported strayFlow).flows.keys = [.uniform 6] ∧
      (partition strayFlow).map Context.placements = [[.uniform 4, .uniform 3], []] ∧
      partition (withoutReported strayFlow) = partition strayFlow := by
  have haccepted : Document.Accepted strayFlow [] :=
    Document.accepted_of_wellFormed (by decide)
  exact ⟨haccepted, by decide, by decide,
    (partition_withoutReported_iff haccepted).2.2.1 (by decide)⟩

/-- A command (3) flows into an event that declares the identifier 4 and stands under the key 5. -/
def rekeyedTarget : Model :=
  { Model.empty with
    streams := [⟨.uniform 1, "Orders"⟩]
    placements := Dict.ofList
      [(.uniform 5, placedOn (.uniform 1) 0),
        (.uniform 3, ⟨.uniform 3, 0, .command, .uniform 3, .timeline, none⟩)]
    flows := Dict.ofList [(.uniform 6, ⟨.uniform 3, .uniform 4⟩)] }

/-- The document is accepted with a warning. The lint reports that the flow has an unknown target,
and still it is the only one to bring the command into the context of the stream. -/
theorem rekeyedTarget_connected :
    Document.Accepted rekeyedTarget
        [Document.keyMismatch (.uniform 5) (.uniform 4)
          "placements.55555555-5555-5555-5555-555555555555"] ∧
      Lint.danglingFlow.check rekeyedTarget =
        [Lint.warning ("flow 66666666-6666-6666-6666-666666666666 has unknown target placement " ++
            "44444444-4444-4444-4444-444444444444")
          "flows.66666666-6666-6666-6666-666666666666"] ∧
      (partition rekeyedTarget).map Context.placements = [[.uniform 4, .uniform 3], []] ∧
      (partition (withoutReported rekeyedTarget)).map Context.placements = [[.uniform 4], []] := by
  have haccepted : Document.Accepted rekeyedTarget
      [Document.keyMismatch (.uniform 5) (.uniform 4)
        "placements.55555555-5555-5555-5555-555555555555"] :=
    Document.accepted_of_placements (by decide +kernel) (by decide +kernel)
  exact ⟨haccepted, by decide +kernel, by decide +kernel, by decide +kernel⟩

end EventForge.Context
