import EventForge.Context
import EventForge.Proofs.Model

/-!
# The placements of a context

A context lists the events of its stream, then the commands that one flow joins to them, then the
read models that one flow from them reaches, each identifier once and in the order of its first
occurrence. The listing is an append-only set: `union` is a list followed by what is fresh to it
(`union_eq_append`), so membership, repetition and order are read off the fresh part alone.
-/

namespace EventForge.Context

section Fresh

variable {α : Type} [DecidableEq α]

/-- The elements of a list that were not seen before, each at its first occurrence. -/
def fresh (seen : List α) : List α → List α
  | [] => []
  | y :: ys => if y ∈ seen then fresh seen ys else y :: fresh (seen ++ [y]) ys

/-- The elements of `xs` stand in the order in which they first occur in `ids`. -/
def InOrder (ids xs : List α) : Prop := xs.Pairwise fun a b => ids.idxOf a < ids.idxOf b

theorem union_eq_append (xs ys : List α) : union xs ys = xs ++ fresh xs ys := by
  induction ys generalizing xs with
  | nil => simp [union, fresh]
  | cons y ys ih =>
    rw [union, List.foldl_cons, fresh]
    split
    · exact ih xs
    · have h := ih (xs ++ [y])
      rw [union] at h
      rw [h, List.append_assoc, List.singleton_append]

theorem mem_fresh {seen ys : List α} {a : α} : a ∈ fresh seen ys ↔ a ∈ ys ∧ a ∉ seen := by
  induction ys generalizing seen with
  | nil => simp [fresh]
  | cons y ys ih =>
    rw [fresh]
    split
    · next hy =>
      rw [ih, List.mem_cons]
      refine ⟨fun h => ⟨.inr h.1, h.2⟩, fun h => ⟨h.1.resolve_left ?_, h.2⟩⟩
      rintro rfl
      exact h.2 hy
    · next hy =>
      by_cases ha : a = y
      · subst ha
        simp [hy]
      · simp [ih, ha]

theorem mem_union {xs ys : List α} {a : α} : a ∈ union xs ys ↔ a ∈ xs ∨ a ∈ ys := by
  rw [union_eq_append, List.mem_append, mem_fresh]
  by_cases h : a ∈ xs <;> simp [h]

theorem nodup_fresh (seen ys : List α) : (fresh seen ys).Nodup := by
  induction ys generalizing seen with
  | nil => simp [fresh]
  | cons y ys ih =>
    rw [fresh]
    split
    · exact ih seen
    · refine List.nodup_cons.2 ⟨fun h => ?_, ih _⟩
      exact (mem_fresh.1 h).2 (by simp)

theorem idxOf_cons_of_ne {ids : List α} {y a : α} (h : y ≠ a) :
    (y :: ids).idxOf a = ids.idxOf a + 1 := by
  simp [List.idxOf_cons, beq_false_of_ne h]

theorem inOrder_cons {ids xs : List α} {y : α} (h : InOrder ids xs) (hy : y ∉ xs) :
    InOrder (y :: ids) xs := by
  refine List.Pairwise.imp_of_mem (fun {a b} ha hb hab => ?_) h
  have hya : y ≠ a := fun e => hy (e ▸ ha)
  have hyb : y ≠ b := fun e => hy (e ▸ hb)
  rw [idxOf_cons_of_ne hya, idxOf_cons_of_ne hyb]
  omega

theorem inOrder_fresh (seen ys : List α) : InOrder ys (fresh seen ys) := by
  induction ys generalizing seen with
  | nil => simp [fresh, InOrder]
  | cons y ys ih =>
    rw [fresh]
    split
    · next hy => exact inOrder_cons (ih seen) fun h => (mem_fresh.1 h).2 hy
    · have hy : y ∉ fresh (seen ++ [y]) ys := fun h => (mem_fresh.1 h).2 (by simp)
      refine List.pairwise_cons.2 ⟨fun a ha => ?_, inOrder_cons (ih _) hy⟩
      have hya : y ≠ a := fun e => hy (e ▸ ha)
      rw [List.idxOf_cons_self, idxOf_cons_of_ne hya]
      omega

theorem idxOf_lt_of_filter {ids : List α} {p : α → Bool} {a b : α} (ha : p a) (hb : p b)
    (h : (ids.filter p).idxOf a < (ids.filter p).idxOf b) : ids.idxOf a < ids.idxOf b := by
  induction ids with
  | nil => exact absurd h (by simp)
  | cons y ids ih =>
    by_cases hya : y = a
    · subst hya
      have hyb : y ≠ b := by
        rintro rfl
        omega
      rw [List.idxOf_cons_self, idxOf_cons_of_ne hyb]
      omega
    · by_cases hyb : y = b
      · subst hyb
        rw [List.filter_cons_of_pos hb, List.idxOf_cons_self] at h
        omega
      · rw [idxOf_cons_of_ne hya, idxOf_cons_of_ne hyb]
        by_cases hy : p y
        · rw [List.filter_cons_of_pos hy, idxOf_cons_of_ne hya, idxOf_cons_of_ne hyb] at h
          have := ih (by omega)
          omega
        · rw [List.filter_cons_of_neg hy] at h
          have := ih h
          omega

/-- What is fresh in a filtered list stands in the order of the whole list. -/
theorem inOrder_fresh_filter (seen ids : List α) (p : α → Bool) :
    InOrder ids (fresh seen (ids.filter p)) := by
  refine List.Pairwise.imp_of_mem (fun {a b} ha hb hab => ?_) (inOrder_fresh seen (ids.filter p))
  have hpa := (List.mem_filter.1 (mem_fresh.1 ha).1).2
  have hpb := (List.mem_filter.1 (mem_fresh.1 hb).1).2
  exact idxOf_lt_of_filter hpa hpb hab

/-- What is fresh in a filtered list only depends on how what is not yet seen is filtered. -/
theorem fresh_filter_congr {seen ids : List α} {p q : α → Bool}
    (h : ∀ a ∈ ids, a ∉ seen → p a = q a) : fresh seen (ids.filter p) = fresh seen (ids.filter q) := by
  induction ids generalizing seen with
  | nil => rfl
  | cons y ids ih =>
    have hrest : ∀ seen', (∀ a ∈ seen, a ∈ seen') →
        fresh seen' (ids.filter p) = fresh seen' (ids.filter q) :=
      fun seen' hsub => ih fun a ha hnew => h a (by simp [ha]) fun hseen => hnew (hsub a hseen)
    by_cases hy : y ∈ seen
    · have hskip (r : α → Bool) : fresh seen ((y :: ids).filter r) = fresh seen (ids.filter r) := by
        rw [List.filter_cons]
        split
        · rw [fresh, if_pos hy]
        · rfl
      rw [hskip, hskip]
      exact hrest seen fun _ ha => ha
    · rw [List.filter_cons, List.filter_cons, h y (by simp) hy]
      split
      · rw [fresh, fresh, if_neg hy, if_neg hy, hrest _ fun a ha => List.mem_append_left _ ha]
      · exact hrest seen fun _ ha => ha

end Fresh

variable {m : Model} {stream : Option Uuid}

/-- An event on the lane of a stream; the default stream has no lane identifier. -/
def OnStream (stream : Option Uuid) (p : Placement) : Prop :=
  p.noteKind = .event ∧ p.laneKind = .stream ∧ p.laneId = stream

/-- A placement of this kind has the identifier. -/
def Placed (m : Model) (kind : NoteKind) (id : Uuid) : Prop :=
  ∃ p ∈ m.placements.values, p.noteKind = kind ∧ p.id = id

/-- A flow joins the placement and one of the events. -/
def Joined (m : Model) (events : List Uuid) (id : Uuid) : Prop :=
  ∃ f ∈ m.flows.values, (f.source = id ∧ f.target ∈ events) ∨ (f.target = id ∧ f.source ∈ events)

/-- A flow leads from one of the events to the placement. -/
def Fed (m : Model) (events : List Uuid) (id : Uuid) : Prop :=
  ∃ f ∈ m.flows.values, f.target = id ∧ f.source ∈ events

/-- Which placements belong to a stream, in three groups: its events, and the commands and read
models one flow away from them. -/
structure OneHop (m : Model) (stream : Option Uuid) (events commands readModels : List Uuid) :
    Prop where
  nodup : (events ++ commands ++ readModels).Nodup
  mem_events : ∀ id, id ∈ events ↔ ∃ p ∈ m.placements.values, OnStream stream p ∧ p.id = id
  mem_commands : ∀ id, id ∈ commands ↔ id ∉ events ∧ Placed m .command id ∧ Joined m events id
  mem_readModels : ∀ id, id ∈ readModels ↔
    (id ∉ events ∧ id ∉ commands) ∧ Placed m .readModel id ∧ Fed m events id
  events_inOrder : InOrder
    ((m.placements.values.filter fun p =>
      p.noteKind = .event ∧ p.laneKind = .stream ∧ p.laneId = stream).map Placement.id) events
  commands_inOrder : InOrder ((m.placementsOf .command).map Placement.id) commands
  readModels_inOrder : InOrder ((m.placementsOf .readModel).map Placement.id) readModels

theorem mem_ids_placementsOf {kind : NoteKind} {id : Uuid} :
    id ∈ (m.placementsOf kind).map Placement.id ↔ Placed m kind id := by
  simp [Placed, Model.mem_placementsOf, and_assoc]

theorem touches_iff {events : List Uuid} {id : Uuid} :
    touches m events id ↔ Joined m events id := by
  simp [touches, Joined]

theorem isFedBy_iff {events : List Uuid} {id : Uuid} : isFedBy m events id ↔ Fed m events id := by
  simp [isFedBy, Fed]

theorem Fed.joined {events : List Uuid} {id : Uuid} (h : Fed m events id) : Joined m events id := by
  obtain ⟨f, hf, htarget, hsource⟩ := h
  exact ⟨f, hf, .inr ⟨htarget, hsource⟩⟩

theorem eventIds_eq_fresh (m : Model) (stream : Option Uuid) :
    eventIds m stream = fresh []
      ((m.placements.values.filter fun p =>
        p.noteKind = .event ∧ p.laneKind = .stream ∧ p.laneId = stream).map Placement.id) := by
  have hfilter : ((m.placementsOf .event).filter fun p => p.laneKind = .stream ∧ p.laneId = stream)
      = m.placements.values.filter fun p =>
        p.noteKind = .event ∧ p.laneKind = .stream ∧ p.laneId = stream := by
    rw [Model.placementsOf, List.filter_filter]
    refine List.filter_congr fun p _ => ?_
    rw [← Bool.decide_and, decide_eq_decide]
    exact and_comm
  rw [eventIds, union_eq_append, List.nil_append, hfilter]

/-- A context's placements are its events followed by what is fresh among the commands that touch
them, followed by what is fresh among the read models that they feed. -/
theorem placementsFor_eq (m : Model) (stream : Option Uuid) :
    placementsFor m stream =
      eventIds m stream ++
        fresh (eventIds m stream)
          (((m.placementsOf .command).map Placement.id).filter (touches m (eventIds m stream))) ++
        fresh (eventIds m stream ++ fresh (eventIds m stream)
            (((m.placementsOf .command).map Placement.id).filter (touches m (eventIds m stream))))
          (((m.placementsOf .readModel).map Placement.id).filter
            (isFedBy m (eventIds m stream))) := by
  rw [placementsFor, union_eq_append, union_eq_append]

/-- Elements that are fresh to a list do not repeat it. -/
theorem nodup_append_fresh {α : Type} [DecidableEq α] {seen : List α} (h : seen.Nodup)
    (ys : List α) : (seen ++ fresh seen ys).Nodup := by
  refine List.nodup_append.2 ⟨h, nodup_fresh _ _, fun a ha b hb hab => ?_⟩
  exact (mem_fresh.1 hb).2 (hab ▸ ha)

theorem placementsFor_oneHop (m : Model) (stream : Option Uuid) :
    ∃ events commands readModels, placementsFor m stream = events ++ commands ++ readModels ∧
      OneHop m stream events commands readModels := by
  refine ⟨_, _, _, placementsFor_eq m stream, ?_, ?_, ?_, ?_, ?_, ?_, ?_⟩
  · refine nodup_append_fresh (nodup_append_fresh ?_ _) _
    rw [eventIds_eq_fresh]
    exact nodup_fresh _ _
  · intro id
    rw [eventIds_eq_fresh, mem_fresh]
    simp [OnStream, and_assoc]
  · intro id
    rw [mem_fresh, List.mem_filter, mem_ids_placementsOf, touches_iff, and_comm]
  · intro id
    rw [mem_fresh, List.mem_filter, mem_ids_placementsOf, isFedBy_iff, and_comm, List.mem_append,
      not_or]
  · rw [eventIds_eq_fresh]
    exact inOrder_fresh _ _
  · exact inOrder_fresh_filter _ _ _
  · exact inOrder_fresh_filter _ _ _

/-- Two models have the same context for a stream when they agree on the identifiers of its events,
of all commands and of all read models, and on the flows that start or end at one of these events. -/
theorem placementsFor_congr_events {m m' : Model} (hevents : eventIds m' stream = eventIds m stream)
    (hids : ∀ kind ∈ [NoteKind.command, .readModel],
      (m'.placementsOf kind).map Placement.id = (m.placementsOf kind).map Placement.id)
    (hflows : ∀ f : Flow, f.source ∈ eventIds m stream ∨ f.target ∈ eventIds m stream →
      (f ∈ m'.flows.values ↔ f ∈ m.flows.values)) :
    placementsFor m' stream = placementsFor m stream := by
  have htouches : touches m' (eventIds m stream) = touches m (eventIds m stream) := by
    funext id
    rw [Bool.eq_iff_iff, touches_iff, touches_iff]
    refine exists_congr fun f => and_congr_left fun hends => hflows f ?_
    exact hends.elim (fun h => .inr h.2) (fun h => .inl h.2)
  have hfed : isFedBy m' (eventIds m stream) = isFedBy m (eventIds m stream) := by
    funext id
    rw [Bool.eq_iff_iff, isFedBy_iff, isFedBy_iff]
    exact exists_congr fun f => and_congr_left fun hends => hflows f (.inl hends.2)
  simp only [placementsFor, hevents, htouches, hfed, hids .command (by simp),
    hids .readModel (by simp)]

/-- Two models with the same placements and the same set of flows have the same contexts. -/
theorem placementsFor_congr {m m' : Model} (hp : m'.placements = m.placements)
    (hf : ∀ f, f ∈ m'.flows.values ↔ f ∈ m.flows.values) (stream : Option Uuid) :
    placementsFor m' stream = placementsFor m stream := by
  have hof : ∀ kind, m'.placementsOf kind = m.placementsOf kind := by
    intro kind
    rw [Model.placementsOf, Model.placementsOf, hp]
  refine placementsFor_congr_events ?_ (fun kind _ => by rw [hof kind]) fun f _ => hf f
  rw [eventIds, eventIds, hof]

/-- What belongs to a stream has one of the three kinds, and all but the events are one flow away
from an event. -/
theorem OneHop.reached {events commands readModels : List Uuid}
    (h : OneHop m stream events commands readModels) {id : Uuid}
    (hid : id ∈ events ++ commands ++ readModels) :
    id ∈ events ∨ (Placed m .command id ∧ Joined m events id) ∨
      (Placed m .readModel id ∧ Fed m events id) := by
  rcases List.mem_append.1 hid with hid | hid
  · rcases List.mem_append.1 hid with hid | hid
    · exact .inl hid
    · exact .inr (.inl ((h.mem_commands id).1 hid).2)
  · exact .inr (.inr ((h.mem_readModels id).1 hid).2)

/-- The placements of a stream are exactly its events, the commands joined to them and the read
models fed by them, in this order and each once. Nothing that is two flows away, nothing that only
an interface leads to and no read model that only flows towards an event is among them, and neither
the order nor the repetition of flows matters. -/
theorem placementsFor_exact (m : Model) (stream : Option Uuid) :
    ∃ events commands readModels, placementsFor m stream = events ++ commands ++ readModels ∧
      OneHop m stream events commands readModels ∧
      (∀ id ∈ placementsFor m stream, id ∉ events → Joined m events id) ∧
      (∀ id ∈ placementsFor m stream, id ∉ events → ¬ Placed m .command id → Fed m events id) ∧
      (∀ id ∈ placementsFor m stream,
        ∃ p ∈ m.placements.values, p.id = id ∧ p.noteKind ≠ .interface) ∧
      ∀ m' : Model, m'.placements = m.placements →
        (∀ f, f ∈ m'.flows.values ↔ f ∈ m.flows.values) →
        placementsFor m' stream = placementsFor m stream := by
  obtain ⟨events, commands, readModels, heq, h⟩ := placementsFor_oneHop m stream
  refine ⟨events, commands, readModels, heq, h, fun id hid hne => ?_, fun id hid hne hnc => ?_,
    fun id hid => ?_, fun m' hp hf => placementsFor_congr hp hf stream⟩
  · rw [heq] at hid
    rcases h.reached hid with hev | ⟨-, hj⟩ | ⟨-, hfed⟩
    · exact absurd hev hne
    · exact hj
    · exact hfed.joined
  · rw [heq] at hid
    rcases h.reached hid with hev | ⟨hc, -⟩ | ⟨-, hfed⟩
    · exact absurd hev hne
    · exact absurd hc hnc
    · exact hfed
  · rw [heq] at hid
    rcases h.reached hid with hev | ⟨⟨p, hp, hkind, hid⟩, -⟩ | ⟨⟨p, hp, hkind, hid⟩, -⟩
    · obtain ⟨p, hp, ⟨hkind, -, -⟩, hid⟩ := (h.mem_events id).1 hev
      exact ⟨p, hp, hid, by simp [hkind]⟩
    · exact ⟨p, hp, hid, by simp [hkind]⟩
    · exact ⟨p, hp, hid, by simp [hkind]⟩

/-- An event (1) with a command before it (2) and a read model behind it (4). A command before the
command (3) and a read model before the event (5) are left out. -/
def branching : Model :=
  let place (id : Nat) (kind : NoteKind) (lane : LaneKind) : Uuid × Placement :=
    (.uniform id, ⟨.uniform id, 0, kind, .uniform id, lane, none⟩)
  let flow (id source target : Nat) : Uuid × Flow :=
    (.uniform id, ⟨.uniform source, .uniform target⟩)
  { Model.empty with
    placements := Dict.ofList
      [place 5 .readModel .timeline, place 4 .readModel .timeline, place 3 .command .timeline,
        place 2 .command .timeline, place 1 .event .stream]
    flows := Dict.ofList [flow 6 3 2, flow 7 2 1, flow 8 1 4, flow 9 5 1] }

example : placementsFor branching none = [.uniform 1, .uniform 2, .uniform 4] := by decide

end EventForge.Context
