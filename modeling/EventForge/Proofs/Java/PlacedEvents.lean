import EventForge.Proofs.Context.Exclusive
import EventForge.Proofs.Java.Closure
import EventForge.Proofs.Lint

/-!
# No placed event is lost silently

An event on a lane that is none of the streams is reported as not generated. Every other event is in
the context of its lane, and its note has a class among the files of that context or a record that
the class failed. Reading a document puts every event on the lane kind of streams
(`Document.Accepted.laneKind`), so that the lint and the contexts look at the same lane.
-/

namespace EventForge.Java.ContextFiles

variable {p : Project} {m : Model} {c : Context}

/-- Every note of a context has a class in its package or a record that the class failed. -/
theorem settled_ofContext {kind : NoteKind} {note : Note} (h : (kind, note) ∈ notesIn p.model c) :
    (ofContext p c).Settled p (flavour kind).1 note.name := by
  have he : Emission.own p.model (kind, note) ∈ emissions p.model c :=
    mem_emissions.2 ⟨_, h, Emission.mem_ofNote.2 (.inr rfl)⟩
  have hsettled := settled_of_mem_emissions he
  exact hsettled

/-- In the model of an accepted document, the lint reports the event of a placement as not generated
exactly when the placement has a lane that is none of the streams, and as being on no stream exactly
when it has no lane. An event that is not reported as not generated is in the context of its lane,
which is the default one exactly when it has no lane; and every note with the identifier of that
event has a class at its path in the package of events, or a record that the class failed. -/
theorem placedEvent_accounted {ws : List Diagnostic} (h : Document.Accepted m ws) :
    Lint.defaultStream.check m = (m.placementsOf .event).filterMap (Lint.strayEventOf m) ∧
      ∀ q ∈ m.placementsOf .event,
        (∀ lane, Lint.strayEventOf m q = some (Lint.notGenerated m q lane) ↔
          q.laneId = some lane ∧ ∀ s ∈ m.streams, s.id ≠ lane) ∧
        (Lint.strayEventOf m q = some (Lint.onNoStream m q) ↔ q.laneId = none) ∧
        ((∀ lane, Lint.strayEventOf m q ≠ some (Lint.notGenerated m q lane)) →
          ∃ c ∈ Context.partition m, c.stream = q.laneId ∧
            (∀ c' ∈ Context.partition m, c'.stream = q.laneId → c' = c) ∧
            (c.isDefault ↔ q.laneId = none) ∧ q.id ∈ c.placements ∧
            ∀ note ∈ m.events.values, note.id = q.noteId → ∀ p : Project, p.model = m →
              (ofContext p c).Settled p .events note.name) := by
  refine ⟨rfl, fun q hq => ?_⟩
  obtain ⟨hqm, hevent⟩ := Model.mem_placementsOf.1 hq
  have hkind : q.laneKind = .stream := by
    rw [h.laneKind hqm, hevent]
    rfl
  refine ⟨fun lane => Lint.strayEventOf_notGenerated_iff hkind,
    Lint.strayEventOf_onNoStream_iff hkind, fun hgenerated => ?_⟩
  have hlane : q.laneId ∈ Context.lanes m := by
    refine Context.mem_lanes_iff.2 fun lane hlane => ?_
    by_contra hunknown
    refine hgenerated lane ((Lint.strayEventOf_notGenerated_iff hkind).2 ⟨hlane, ?_⟩)
    exact fun s hs hid => hunknown ⟨s, hs, hid⟩
  obtain ⟨c, hc, hstream⟩ := Context.exists_context hlane
  have hmem : q.id ∈ c.placements := by
    rw [Context.placements_of_mem_partition hc, Context.mem_placementsFor_iff]
    exact ⟨q, hqm, rfl, .inl ⟨hevent, hkind, hstream.symm⟩⟩
  refine ⟨c, hc, hstream, fun c' hc' hstream' => ?_, ?_, hmem, fun note hnote hid p hp => ?_⟩
  · exact Context.eq_of_stream_eq h.nodup_streams hc' hc (hstream'.trans hstream.symm)
  · rw [Context.isDefault, hstream, Option.isNone_iff_eq_none]
  · subst hp
    have hnotes : (NoteKind.event, note) ∈ notesIn p.model c :=
      mem_notesIn.2 ⟨by simp [noteKinds], hnote, q, hq, hid.symm, hmem⟩
    have hsettled := settled_ofContext hnotes
    exact hsettled

/-- An event that is placed on a lane. -/
def placedEvent (id note : Nat) (lane : Option Uuid) : Placement :=
  ⟨.uniform id, 0, .event, .uniform note, .stream, lane⟩

/-- An event (2) on the only stream and on a lane that is no stream, and one (3) on no stream, whose
class fails as its schema refers to none. -/
def strayEvents : Model :=
  { Model.empty with
    streams := [⟨.uniform 1, "Orders"⟩]
    events := Dict.ofList
      [(.uniform 2, ⟨.uniform 2, "Placed", none, none⟩),
        (.uniform 3, ⟨.uniform 3, "Lost", none, some (.uniform 8)⟩)]
    placements := Dict.ofList
      [(.uniform 4, placedEvent 4 2 (some (.uniform 1))), (.uniform 5, placedEvent 5 3 none),
        (.uniform 6, placedEvent 6 2 (some (.uniform 7)))]
    schemas := Dict.ofList
      [(.uniform 8, ⟨.uniform 8, "Lost", "shop", none,
        .object ⟨"Lost", none⟩ [("by", .reference ⟨"Lost", none⟩ (.uniform 9))]⟩)] }

theorem placedEvent_accounted_strayEvents :
    Document.Accepted strayEvents [] ∧
      strayEvents.placementsOf .event =
        [placedEvent 4 2 (some (.uniform 1)), placedEvent 5 3 none,
          placedEvent 6 2 (some (.uniform 7))] ∧
      Lint.strayEventOf strayEvents (placedEvent 6 2 (some (.uniform 7))) =
        some (Lint.notGenerated strayEvents (placedEvent 6 2 (some (.uniform 7))) (.uniform 7)) ∧
      ∃ c ∈ Context.partition strayEvents, c.isDefault ∧ .uniform 5 ∈ c.placements ∧
        ∀ p : Project, p.model = strayEvents → (ofContext p c).Settled p .events "Lost" := by
  have haccepted : Document.Accepted strayEvents [] :=
    Document.accepted_of_wellFormed (by decide)
  have hplaced : strayEvents.placementsOf .event =
      [placedEvent 4 2 (some (.uniform 1)), placedEvent 5 3 none,
        placedEvent 6 2 (some (.uniform 7))] := by decide
  obtain ⟨-, haccounted⟩ := placedEvent_accounted haccepted
  obtain ⟨hunknown, -⟩ := haccounted (placedEvent 6 2 (some (.uniform 7))) (by simp [hplaced])
  obtain ⟨hreport, -, hgenerated⟩ := haccounted (placedEvent 5 3 none) (by simp [hplaced])
  obtain ⟨c, hc, -, -, hdefault, hmem, hnotes⟩ :=
    hgenerated fun lane h => nomatch ((hreport lane).1 h).1
  refine ⟨haccepted, hplaced, (hunknown _).2 ⟨rfl, by decide⟩, c, hc, hdefault.2 rfl, hmem,
    ?_⟩
  exact hnotes ⟨.uniform 3, "Lost", none, some (.uniform 8)⟩ (by decide) rfl

end EventForge.Java.ContextFiles
