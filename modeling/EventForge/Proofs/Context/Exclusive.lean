import EventForge.Proofs.Context.Placements
import EventForge.Proofs.Document.RoundTrip
import EventForge.Proofs.Document.Sections
import Mathlib.Data.List.Nodup
import Mathlib.Data.List.Pairwise

/-!
# Events belong to one context

Contexts of different streams may share commands and read models but no event. A context lists the
identifiers that placements declare, and a document may declare one twice under different keys; then
an event can be in two contexts. So exclusion is a matter of which lanes the placements with an
event's identifier belong to (`exclusive_iff`), and it holds unless reading the document raised a
warning about a placement's key.
-/

namespace EventForge.Context

variable {m : Model}

/-- The lanes that have a context, in the order of the contexts: the streams, then the lane of the
events on no stream. -/
def lanes (m : Model) : List (Option Uuid) := m.streams.map (fun s => some s.id) ++ [none]

/-- The placement is in the context of the lane: as one of its events, as a command joined to them
or as a read model fed by them. -/
def Belongs (m : Model) (lane : Option Uuid) (p : Placement) : Prop :=
  OnStream lane p ∨ (p.noteKind = .command ∧ Joined m (eventIds m lane) p.id) ∨
    (p.noteKind = .readModel ∧ Fed m (eventIds m lane) p.id)

/-- An identifier in both contexts is that of a command or read model and never that of an event. -/
def ShareNoEvent (m : Model) (c c' : Context) : Prop :=
  ∀ id ∈ c.placements, id ∈ c'.placements →
    (∀ p ∈ m.placements.values, p.id = id → p.noteKind ≠ .event) ∧
      ∃ p ∈ m.placements.values, p.id = id ∧ (p.noteKind = .command ∨ p.noteKind = .readModel)

instance (m : Model) : Std.Symm (ShareNoEvent m) := ⟨fun _ _ h id hid hid' => h id hid' hid⟩

/-- The contexts at two positions never share an event. -/
def Exclusive (m : Model) : Prop := (partition m).Pairwise (ShareNoEvent m)

theorem map_stream_partition (m : Model) : (partition m).map Context.stream = lanes m := by
  simp [partition, lanes]

theorem placements_of_mem_partition {c : Context} (h : c ∈ partition m) :
    c.placements = placementsFor m c.stream := by
  rcases List.mem_append.1 h with h | h
  · obtain ⟨s, -, rfl⟩ := List.mem_map.1 h
    rfl
  · rw [List.mem_singleton.1 h]

theorem mem_lanes_iff {lane : Option Uuid} :
    lane ∈ lanes m ↔ ∀ id, lane = some id → ∃ s ∈ m.streams, s.id = id := by
  cases lane <;> simp [lanes]

theorem exists_context {lane : Option Uuid} (h : lane ∈ lanes m) :
    ∃ c ∈ partition m, c.stream = lane :=
  List.mem_map.1 (map_stream_partition m ▸ h)

theorem nodup_lanes (h : (m.streams.map Stream.id).Nodup) : (lanes m).Nodup := by
  have hsome : (m.streams.map fun s => some s.id).Nodup := by
    have hmap := h.map fun _ _ => Option.some.inj
    rwa [List.map_map] at hmap
  exact List.nodup_append.2 ⟨hsome, List.nodup_singleton none, by simp⟩

/-- The streams' identifiers differ, so a lane has one context. -/
theorem eq_of_stream_eq (hstreams : (m.streams.map Stream.id).Nodup) {c c' : Context}
    (hc : c ∈ partition m) (hc' : c' ∈ partition m) (h : c.stream = c'.stream) : c = c' :=
  List.inj_on_of_nodup_map (map_stream_partition m ▸ nodup_lanes hstreams) hc hc' h

theorem mem_eventIds {lane : Option Uuid} {id : Uuid} :
    id ∈ eventIds m lane ↔ ∃ p ∈ m.placements.values, OnStream lane p ∧ p.id = id := by
  rw [eventIds_eq_fresh, mem_fresh]
  simp [OnStream, and_assoc]

/-- A context lists the identifiers of what belongs to its lane. -/
theorem mem_placementsFor_iff {lane : Option Uuid} {id : Uuid} :
    id ∈ placementsFor m lane ↔ ∃ p ∈ m.placements.values, p.id = id ∧ Belongs m lane p := by
  simp only [placementsFor, mem_union, List.mem_filter, mem_ids_placementsOf, touches_iff,
    isFedBy_iff, mem_eventIds]
  constructor
  · rintro ((⟨p, hp, hevent, rfl⟩ | ⟨⟨p, hp, hkind, rfl⟩, hjoined⟩) | ⟨⟨p, hp, hkind, rfl⟩, hfed⟩)
    · exact ⟨p, hp, rfl, .inl hevent⟩
    · exact ⟨p, hp, rfl, .inr (.inl ⟨hkind, hjoined⟩)⟩
    · exact ⟨p, hp, rfl, .inr (.inr ⟨hkind, hfed⟩)⟩
  · rintro ⟨p, hp, rfl, hevent | ⟨hkind, hjoined⟩ | ⟨hkind, hfed⟩⟩
    · exact .inl (.inl ⟨p, hp, hevent, rfl⟩)
    · exact .inl (.inr ⟨⟨p, hp, hkind, rfl⟩, hjoined⟩)
    · exact .inr ⟨⟨p, hp, hkind, rfl⟩, hfed⟩

/-- What belongs to a lane is an event, a command or a read model. -/
theorem Belongs.kind {lane : Option Uuid} {p : Placement} (h : Belongs m lane p) :
    p.noteKind = .event ∨ p.noteKind = .command ∨ p.noteKind = .readModel := by
  rcases h with ⟨hkind, -⟩ | ⟨hkind, -⟩ | ⟨hkind, -⟩
  · exact .inl hkind
  · exact .inr (.inl hkind)
  · exact .inr (.inr hkind)

/-- An event belongs to no lane but its own. -/
theorem Belongs.onStream {lane : Option Uuid} {p : Placement} (h : Belongs m lane p)
    (hevent : p.noteKind = .event) : OnStream lane p := by
  rcases h with h | ⟨hkind, -⟩ | ⟨hkind, -⟩
  · exact h
  · simp [hevent] at hkind
  · simp [hevent] at hkind

/-- No two lanes have a context to which placements with one event's identifier belong. -/
def EventsOnOneLane (m : Model) : Prop :=
  ∀ p ∈ m.placementsOf .event, ∀ q ∈ m.placements.values, ∀ q' ∈ m.placements.values,
    q.id = p.id → q'.id = p.id → ∀ lane ∈ lanes m, ∀ lane' ∈ lanes m,
      Belongs m lane q → Belongs m lane' q' → lane = lane'

theorem exclusive_iff_eventsOnOneLane (hstreams : (m.streams.map Stream.id).Nodup) :
    Exclusive m ↔ EventsOnOneLane m := by
  constructor
  · intro h p hp q hq q' hq' hid hid' lane hlane lane' hlane' hb hb'
    obtain ⟨hpm, hevent⟩ := Model.mem_placementsOf.1 hp
    obtain ⟨c, hc, rfl⟩ := exists_context hlane
    obtain ⟨c', hc', rfl⟩ := exists_context hlane'
    by_contra hne
    have hmem : p.id ∈ c.placements := by
      rw [placements_of_mem_partition hc]
      exact mem_placementsFor_iff.2 ⟨q, hq, hid, hb⟩
    have hmem' : p.id ∈ c'.placements := by
      rw [placements_of_mem_partition hc']
      exact mem_placementsFor_iff.2 ⟨q', hq', hid', hb'⟩
    have hshared := h.forall hc hc' fun hcc => hne (congrArg Context.stream hcc)
    exact (hshared p.id hmem hmem').1 p hpm rfl hevent
  · intro h
    have hpairs : (partition m).Pairwise fun c c' => c.stream ≠ c'.stream :=
      List.pairwise_map.1 (map_stream_partition m ▸ nodup_lanes hstreams)
    refine hpairs.imp_of_mem fun {c c'} hc hc' hne id hid hid' => ?_
    rw [placements_of_mem_partition hc] at hid
    rw [placements_of_mem_partition hc'] at hid'
    obtain ⟨q, hq, rfl, hb⟩ := mem_placementsFor_iff.1 hid
    obtain ⟨q', hq', hqq, hb'⟩ := mem_placementsFor_iff.1 hid'
    have hlane : c.stream ∈ lanes m := map_stream_partition m ▸ List.mem_map_of_mem hc
    have hlane' : c'.stream ∈ lanes m := map_stream_partition m ▸ List.mem_map_of_mem hc'
    have hnone : ∀ p ∈ m.placements.values, p.id = q.id → p.noteKind ≠ .event :=
      fun p hp hpq hevent => hne <| h p (Model.mem_placementsOf.2 ⟨hp, hevent⟩) q hq q' hq' hpq.symm
        (hqq.trans hpq.symm) c.stream hlane c'.stream hlane' hb hb'
    exact ⟨hnone, q, hq, rfl, hb.kind.resolve_left (hnone q hq rfl)⟩

/-- Where no identifier is declared twice, only the lane of an event has a context for it. -/
theorem eventsOnOneLane_of_nodup (h : (m.placements.values.map Placement.id).Nodup) :
    EventsOnOneLane m := by
  intro p hp q hq q' hq' hid hid' lane _ lane' _ hb hb'
  obtain ⟨hpm, hevent⟩ := Model.mem_placementsOf.1 hp
  obtain rfl := List.inj_on_of_nodup_map h hq hpm hid
  obtain rfl := List.inj_on_of_nodup_map h hq' hq hid'
  exact (hb.onStream hevent).2.2.symm.trans (hb'.onStream hevent).2.2

/-- Placements that stand under their own identifiers declare no identifier twice. -/
theorem nodup_placement_ids (h : ∀ e ∈ m.placements.entries, e.1 = e.2.id) :
    (m.placements.values.map Placement.id).Nodup := by
  have hkeys : m.placements.entries.map Prod.fst = m.placements.values.map Placement.id := by
    rw [Dict.values, List.map_map]
    exact List.map_congr_left h
  exact hkeys ▸ m.placements.keys_nodup

/-- In the model of an accepted document, two contexts share no event exactly when the placements
with an event's identifier all belong to one lane. That is so when no identifier of a placement is
declared twice, and hence unless reading raised the warning that a placement stands under another
identifier than its own. -/
theorem exclusive_iff {ws : List Diagnostic} (h : Document.Accepted m ws) :
    (Exclusive m ↔ EventsOnOneLane m) ∧
      ((m.placements.values.map Placement.id).Nodup → Exclusive m) ∧
      ((∀ e ∈ m.placements.entries, ∀ location,
        Document.keyMismatch e.1 e.2.id location ∉ ws) → Exclusive m) := by
  have hiff := exclusive_iff_eventsOnOneLane h.nodup_streams
  have hdistinct (hids : (m.placements.values.map Placement.id).Nodup) : Exclusive m :=
    hiff.2 (eventsOnOneLane_of_nodup hids)
  refine ⟨hiff, hdistinct, fun hunwarned => hdistinct (nodup_placement_ids fun e he => ?_)⟩
  exact h.key_eq he (hunwarned e he)

/-- Two streams with one event each and a command (5) that flows into both events (3, 4). -/
def sharedCommand : Model :=
  { Model.empty with
    streams := [⟨.uniform 1, "Orders"⟩, ⟨.uniform 2, "Payments"⟩]
    placements := Dict.ofList
      [(.uniform 3, ⟨.uniform 3, 0, .event, .uniform 3, .stream, some (.uniform 1)⟩),
        (.uniform 4, ⟨.uniform 4, 1, .event, .uniform 4, .stream, some (.uniform 2)⟩),
        (.uniform 5, ⟨.uniform 5, 2, .command, .uniform 5, .timeline, none⟩)]
    flows := Dict.ofList
      [(.uniform 6, ⟨.uniform 5, .uniform 3⟩), (.uniform 7, ⟨.uniform 5, .uniform 4⟩)] }

theorem exclusive_sharedCommand :
    Document.Accepted sharedCommand [] ∧
      (partition sharedCommand).map Context.placements =
        [[.uniform 3, .uniform 5], [.uniform 4, .uniform 5], []] ∧
      Exclusive sharedCommand := by
  have haccepted : Document.Accepted sharedCommand [] :=
    Document.accepted_of_wellFormed (by decide)
  exact ⟨haccepted, by decide,
    (exclusive_iff haccepted).2.1 (by decide)⟩

/-- An event (4) on a stream. -/
def placedOn (stream : Uuid) (index : Int) : Placement :=
  ⟨.uniform 4, index, .event, .uniform 3, .stream, some stream⟩

/-- An event on two streams: the second placement (5) declares the identifier of the first (4). -/
def twinPlacements : Model :=
  { Model.empty with
    streams := [⟨.uniform 1, "Orders"⟩, ⟨.uniform 2, "Payments"⟩]
    placements := Dict.ofList
      [(.uniform 4, placedOn (.uniform 1) 0), (.uniform 5, placedOn (.uniform 2) 1)] }

/-- A document that declares the identifier of an event twice is accepted with a warning, and then
two contexts have that event. -/
theorem twinPlacements_shared :
    Document.Accepted twinPlacements
        [Document.keyMismatch (.uniform 5) (.uniform 4)
          "placements.55555555-5555-5555-5555-555555555555"] ∧
      (partition twinPlacements).map Context.placements = [[.uniform 4], [.uniform 4], []] ∧
      ¬ Exclusive twinPlacements := by
  refine ⟨?_, by decide +kernel, fun h => ?_⟩
  · -- a key differs from its identifier, so the model is not well-formed and its placements are read
    exact Document.accepted_of_placements (by decide +kernel) (by decide +kernel)
  · have hfirst : placedOn (.uniform 1) 0 ∈ twinPlacements.placements.values := by decide +kernel
    have hsecond : placedOn (.uniform 2) 1 ∈ twinPlacements.placements.values := by decide +kernel
    have hsame : some (Uuid.uniform 1) = some (Uuid.uniform 2) :=
      (exclusive_iff_eventsOnOneLane (by decide +kernel)).1 h _
        (Model.mem_placementsOf.2 ⟨hfirst, rfl⟩) _ hfirst _ hsecond rfl rfl _ (by decide +kernel) _
        (by decide +kernel) (.inl ⟨rfl, rfl, rfl⟩) (.inl ⟨rfl, rfl, rfl⟩)
    exact absurd hsame (by decide +kernel)

end EventForge.Context
