import EventForge.Java.Generator
import EventForge.Proofs.Context.Exclusive
import EventForge.Proofs.Java.SameSchemas

/-!
# Streams are generated in isolation

What is generated for a stream depends on the notes and schemas of the model, on the placements of
the stream's own events, of commands and of read models, and on the flows that start or end at one
of these events. Interfaces, audiences, indices, other streams and their events, all other flows and
the order of flows have no influence (`stream_isolated`). The files of a context ask only whether a
placement of some note is in the context; with distinct identifiers an event in the context is an
event of the stream, so the events of other streams do not answer.
-/

namespace EventForge

/-- A placement without its place among others. -/
def Placement.unindexed (p : Placement) : Placement := { p with index := 0 }

namespace Context

variable {m m' : Model} {lane : Option Uuid}

/-- The events on a lane, in document order. -/
def placedEvents (m : Model) (lane : Option Uuid) : List Placement :=
  (m.placementsOf .event).filter fun p => p.laneKind = .stream ∧ p.laneId = lane

/-- Two models agree on all that the context of a lane is made from. -/
structure SameSurroundings (lane : Option Uuid) (m m' : Model) : Prop where
  commands : m'.commands = m.commands
  events : m'.events = m.events
  readModels : m'.readModels = m.readModels
  schemas : m'.schemas = m.schemas
  placedEvents : (placedEvents m' lane).map Placement.unindexed
    = (placedEvents m lane).map Placement.unindexed
  placedOthers : ∀ kind ∈ [NoteKind.command, .readModel],
    (m'.placementsOf kind).map Placement.unindexed = (m.placementsOf kind).map Placement.unindexed
  flows : ∀ f : Flow, f.source ∈ eventIds m lane ∨ f.target ∈ eventIds m lane →
    (f ∈ m'.flows.values ↔ f ∈ m.flows.values)

/-- What does not look at the index is the same of placements that are the same up to it. -/
theorem map_congr_unindexed {α : Type} {f : Placement → α} (hf : ∀ p, f p.unindexed = f p)
    {ps ps' : List Placement} (h : ps'.map Placement.unindexed = ps.map Placement.unindexed) :
    ps'.map f = ps.map f := by
  have hmap : ∀ ps : List Placement, ps.map f = (ps.map Placement.unindexed).map f := by
    intro ps
    rw [List.map_map]
    exact List.map_congr_left fun p _ => (hf p).symm
  rw [hmap, h, ← hmap]

theorem SameSurroundings.placementsFor_eq (h : SameSurroundings lane m m') :
    placementsFor m' lane = placementsFor m lane := by
  have hevents : eventIds m' lane = eventIds m lane :=
    congrArg (union []) (map_congr_unindexed (fun _ => rfl) h.placedEvents)
  exact placementsFor_congr_events hevents
    (fun kind hkind => map_congr_unindexed (fun _ => rfl) (h.placedOthers kind hkind)) h.flows

/-- Where identifiers are distinct, an event in the context of a lane is one on that lane. -/
theorem mem_placedEvents (hids : (m.placements.values.map Placement.id).Nodup) {p : Placement}
    (hp : p ∈ m.placementsOf .event) (hmem : p.id ∈ placementsFor m lane) :
    p ∈ placedEvents m lane := by
  obtain ⟨hpm, hevent⟩ := Model.mem_placementsOf.1 hp
  obtain ⟨q, hq, hid, hb⟩ := mem_placementsFor_iff.1 hmem
  obtain rfl := List.inj_on_of_nodup_map hids hq hpm hid
  exact List.mem_filter.2 ⟨hp, by simpa using (hb.onStream hevent).2⟩

end Context

namespace Java.ContextFiles

variable {m m' : Model} {c : Context}

/-- The placement is one of the note, and in the context. -/
def placesNote (c : Context) (note : Note) (p : Placement) : Bool :=
  p.noteId = note.id && c.contains p.id

theorem any_placesNote_congr {ps ps' : List Placement} (note : Note)
    (h : ps'.map Placement.unindexed = ps.map Placement.unindexed) :
    ps'.any (placesNote c note) = ps.any (placesNote c note) := by
  have hmap := Context.map_congr_unindexed (f := placesNote c note) (fun _ => rfl) h
  simpa only [List.any_map, Function.id_comp] using congrArg (fun bs : List Bool => bs.any id) hmap

theorem any_placesNote_event (hids : (m.placements.values.map Placement.id).Nodup)
    (hc : c.placements = Context.placementsFor m c.stream) (note : Note) :
    (m.placementsOf .event).any (placesNote c note)
      = (Context.placedEvents m c.stream).any (placesNote c note) := by
  rw [Bool.eq_iff_iff, List.any_eq_true, List.any_eq_true]
  constructor
  · rintro ⟨p, hp, hplaces⟩
    have hmem : p.id ∈ Context.placementsFor m c.stream := by
      have hboth : p.noteId = note.id ∧ p.id ∈ c.placements := by
        simpa [placesNote, Context.contains] using hplaces
      exact hc ▸ hboth.2
    exact ⟨p, Context.mem_placedEvents hids hp hmem, hplaces⟩
  · rintro ⟨p, hp, hplaces⟩
    exact ⟨p, (List.mem_filter.1 hp).1, hplaces⟩

theorem notesIn_congr (hids : (m.placements.values.map Placement.id).Nodup)
    (hids' : (m'.placements.values.map Placement.id).Nodup)
    (hc : c.placements = Context.placementsFor m c.stream)
    (h : Context.SameSurroundings c.stream m m') : notesIn m' c = notesIn m c := by
  have hc' : c.placements = Context.placementsFor m' c.stream := hc.trans h.placementsFor_eq.symm
  have hplaces : ∀ kind ∈ noteKinds, ∀ note,
      (m'.placementsOf kind).any (placesNote c note)
        = (m.placementsOf kind).any (placesNote c note) := by
    intro kind hkind note
    rcases List.mem_cons.1 hkind with rfl | hkind
    · rw [any_placesNote_event hids' hc', any_placesNote_event hids hc,
        any_placesNote_congr note h.placedEvents]
    · exact any_placesNote_congr note (h.placedOthers kind hkind)
  have hnotes : ∀ kind, m'.notes kind = m.notes kind := by
    intro kind
    simp only [Model.notes, Model.section?, h.commands, h.events, h.readModels]
  refine List.flatMap_congr fun kind hkind => ?_
  have hkept : notesOfKind m' c kind = notesOfKind m c kind := by
    rw [notesOfKind, notesOfKind, hnotes]
    exact List.filter_congr fun note _ => hplaces kind hkind note
  rw [hkept]

end Java.ContextFiles

theorem NamespaceChoice.resolve_congr {m m' : Model} (h : m'.schemas = m.schemas)
    (choice : NamespaceChoice) : choice.resolve m' = choice.resolve m := by
  cases choice with
  | majority => simp only [resolve, majorityOf, census, h]
  | _ => rfl

namespace Java.Generator

/-- A context that is not empty is generated with the layout that its name and the base namespace
give. -/
theorem mem_projects_iff {g : Generator} {c : Context} {layout : Layout} :
    (c, layout) ∈ g.projects ↔
      c ∈ g.contexts ∧ c.isEmpty = false ∧ layout = Layout.ofContext c g.ns g.options.mode := by
  simp only [projects, List.mem_map, List.mem_filter, Prod.mk.injEq]
  constructor
  · rintro ⟨c', ⟨hc, hempty⟩, rfl, rfl⟩
    exact ⟨hc, by simpa using hempty, rfl⟩
  · rintro ⟨hc, hempty, rfl⟩
    exact ⟨c, ⟨hc, by simp [hempty]⟩, rfl, rfl⟩

/-- Two models that agree on the notes and schemas, on the placements of a stream's events, of all
commands and of all read models, and on the flows at these events, have the same context for the
stream; it is generated from both or from none, with the same layout, and its files, failures and
diagnostics are the same. -/
theorem stream_isolated {m m' : Model} (hids : (m.placements.values.map Placement.id).Nodup)
    (hids' : (m'.placements.values.map Placement.id).Nodup) {c c' : Context}
    (hc : c ∈ Context.partition m) (hc' : c' ∈ Context.partition m')
    (hstream : c'.stream = c.stream) (hname : c'.name = c.name)
    (h : Context.SameSurroundings c.stream m m') :
    c' = c ∧ ∀ (options : ProjectOptions) (layout : Layout),
      ((c', layout) ∈ (ofModel m' options).projects ↔ (c, layout) ∈ (ofModel m options).projects) ∧
        (ofModel m' options).filesOf (c', layout) = (ofModel m options).filesOf (c, layout) := by
  have hplacements : c.placements = Context.placementsFor m c.stream :=
    Context.placements_of_mem_partition hc
  have hplacements' : c'.placements = c.placements := by
    rw [Context.placements_of_mem_partition hc', hstream, h.placementsFor_eq, hplacements]
  obtain rfl : c' = c := by
    cases c
    cases c'
    cases hstream
    cases hname
    cases hplacements'
    rfl
  refine ⟨rfl, fun options layout => ⟨?_, ?_⟩⟩
  · have hns : (ofModel m' options).ns = (ofModel m options).ns :=
      NamespaceChoice.resolve_congr h.schemas options.ns
    rw [mem_projects_iff, mem_projects_iff, hns]
    exact and_congr_left fun _ => iff_of_true hc' hc
  · exact ContextFiles.ofContext_congr h.schemas
      (ContextFiles.notesIn_congr hids hids' hplacements h)

/-- A command (11) that flows into an event (12) on the only stream. -/
def ordersAlone : Model :=
  { Model.empty with
    streams := [⟨.uniform 1, "Orders"⟩]
    commands := Dict.ofList [(.uniform 6, ⟨.uniform 6, "Place order", none, none⟩)]
    events := Dict.ofList [(.uniform 7, ⟨.uniform 7, "Order placed", none, none⟩)]
    placements := Dict.ofList
      [(.uniform 11, ⟨.uniform 11, 0, .command, .uniform 6, .timeline, none⟩),
        (.uniform 12, ⟨.uniform 12, 1, .event, .uniform 7, .stream, some (.uniform 1)⟩)]
    flows := Dict.ofList [(.uniform 13, ⟨.uniform 11, .uniform 12⟩)] }

/-- The same beside an interface (10) and another stream with an event (14); the command is joined to
both. -/
def ordersAmongOthers : Model :=
  { ordersAlone with
    audiences := [⟨.uniform 3, "Customers"⟩]
    streams := [⟨.uniform 2, "Payments"⟩, ⟨.uniform 1, "Orders"⟩]
    interfaces := Dict.ofList [(.uniform 4, ⟨.uniform 4, "Cart", none, .html, ∅⟩)]
    placements := Dict.ofList
      [(.uniform 10, ⟨.uniform 10, 0, .interface, .uniform 4, .audience, some (.uniform 3)⟩),
        (.uniform 12, ⟨.uniform 12, 3, .event, .uniform 7, .stream, some (.uniform 1)⟩),
        (.uniform 14, ⟨.uniform 14, 2, .event, .uniform 7, .stream, some (.uniform 2)⟩),
        (.uniform 11, ⟨.uniform 11, 1, .command, .uniform 6, .timeline, none⟩)]
    flows := Dict.ofList
      [(.uniform 8, ⟨.uniform 10, .uniform 11⟩), (.uniform 9, ⟨.uniform 11, .uniform 14⟩),
        (.uniform 5, ⟨.uniform 11, .uniform 12⟩)] }

def ordersContext : Context := ⟨some (.uniform 1), "Orders", [.uniform 12, .uniform 11]⟩

theorem stream_isolated_orders :
    (ordersAlone.placements.values.map Placement.id).Nodup ∧
      (ordersAmongOthers.placements.values.map Placement.id).Nodup ∧
      ordersContext ∈ Context.partition ordersAlone ∧
      ordersContext ∈ Context.partition ordersAmongOthers ∧
      Context.SameSurroundings ordersContext.stream ordersAlone ordersAmongOthers ∧
      ∀ options layout, (ofModel ordersAmongOthers options).filesOf (ordersContext, layout)
        = (ofModel ordersAlone options).filesOf (ordersContext, layout) := by
  have hids : (ordersAlone.placements.values.map Placement.id).Nodup := by decide
  have hids' : (ordersAmongOthers.placements.values.map Placement.id).Nodup := by decide
  have hc : ordersContext ∈ Context.partition ordersAlone := by decide
  have hc' : ordersContext ∈ Context.partition ordersAmongOthers := by decide
  have hkept : ∀ f ∈ ordersAlone.flows.values, f ∈ ordersAmongOthers.flows.values := by
    decide
  have hadded : ∀ f ∈ ordersAmongOthers.flows.values,
      f.source ∈ Context.eventIds ordersAlone ordersContext.stream ∨
        f.target ∈ Context.eventIds ordersAlone ordersContext.stream →
      f ∈ ordersAlone.flows.values := by
    decide
  have hsame : Context.SameSurroundings ordersContext.stream ordersAlone ordersAmongOthers :=
    ⟨rfl, rfl, rfl, rfl, by decide, by decide,
      fun f hends => ⟨fun hf => hadded f hf hends, hkept f⟩⟩
  exact ⟨hids, hids', hc, hc', hsame, fun options layout =>
    ((stream_isolated hids hids' hc hc' rfl rfl hsame).2 options layout).2⟩

end Java.Generator

end EventForge
