import EventForge.Document.Reader
import EventForge.Proofs.Dict
import EventForge.Proofs.Document.Reading

/-!
# What an accepted document holds

An accepted document was read section by section, each with its own warnings. The streams that are
read have identifiers of their own. A placement is on the lane that belongs to its note, and stands
under the identifier that it declares unless a warning says otherwise.
-/

namespace EventForge.Document

open Reading

/-- The warnings raised in each section of a document. -/
structure SectionWarnings where
  audiences : List Diagnostic
  streams : List Diagnostic
  interfaces : List Diagnostic
  readModels : List Diagnostic
  events : List Diagnostic
  commands : List Diagnostic
  flows : List Diagnostic
  placements : List Diagnostic
  schemas : List Diagnostic

/-- All warnings in the order in which the sections are read. -/
def SectionWarnings.all (ws : SectionWarnings) : List Diagnostic :=
  ws.audiences ++ (ws.streams ++ (ws.interfaces ++ (ws.readModels ++ (ws.events ++
    (ws.commands ++ (ws.flows ++ (ws.placements ++ ws.schemas)))))))

/-- The sections of a model are those read from an event-model object, with these warnings. -/
structure SectionsRead (document : Fields) (m : Model) (ws : SectionWarnings) : Prop where
  audiences : readAudiences document = .read m.audiences ws.audiences
  streams : readStreams document = .read m.streams ws.streams
  interfaces : readInterfaces document = .read m.interfaces ws.interfaces
  readModels : readNotes document .readModel = .read m.readModels ws.readModels
  events : readNotes document .event = .read m.events ws.events
  commands : readNotes document .command = .read m.commands ws.commands
  flows : readFlows document = .read m.flows ws.flows
  placements : readPlacements document = .read m.placements ws.placements
  schemas : readSchemas document = .read m.schemas ws.schemas

variable {document : Fields} {m : Model} {ws : List Diagnostic}

theorem sectionsRead_of_readModel (h : readModel document = .read m ws) :
    ∃ parts : SectionWarnings, SectionsRead document m parts ∧ ws = parts.all := by
  rw [readModel] at h
  obtain ⟨id, -, h⟩ := lift_bind_eq_read_iff.1 h
  obtain ⟨name, -, h⟩ := lift_bind_eq_read_iff.1 h
  obtain ⟨description, -, h⟩ := lift_bind_eq_read_iff.1 h
  obtain ⟨audiences, aw, _, haudiences, h₁, rfl⟩ := bind_eq_read_iff.1 h
  obtain ⟨streams, sw, _, hstreams, h₂, rfl⟩ := bind_eq_read_iff.1 h₁
  obtain ⟨interfaces, iw, _, hinterfaces, h₃, rfl⟩ := bind_eq_read_iff.1 h₂
  obtain ⟨readModels, rw, _, hreadModels, h₄, rfl⟩ := bind_eq_read_iff.1 h₃
  obtain ⟨events, ew, _, hevents, h₅, rfl⟩ := bind_eq_read_iff.1 h₄
  obtain ⟨commands, cw, _, hcommands, h₆, rfl⟩ := bind_eq_read_iff.1 h₅
  obtain ⟨flows, fw, _, hflows, h₇, rfl⟩ := bind_eq_read_iff.1 h₆
  obtain ⟨placements, pw, _, hplacements, h₈, rfl⟩ := bind_eq_read_iff.1 h₇
  obtain ⟨schemas, tw, _, hschemas, h₉, rfl⟩ := bind_eq_read_iff.1 h₈
  obtain ⟨rfl, rfl⟩ := pure_eq_read_iff.1 h₉
  exact ⟨⟨aw, sw, iw, rw, ew, cw, fw, pw, tw⟩,
    ⟨haudiences, hstreams, hinterfaces, hreadModels, hevents, hcommands, hflows, hplacements,
      hschemas⟩,
    by rw [List.append_nil, SectionWarnings.all]⟩

/-- The model was read with these warnings from a document, be it a text or the value in it. -/
inductive Accepted (m : Model) (ws : List Diagnostic) : Prop where
  | text (document : String) (h : ofText document = .read m ws)
  | json (document : Json) (h : ofJson document = .read m ws)

/-- An accepted document holds an event-model object whose sections are those of the model. -/
theorem Accepted.sectionsRead (h : Accepted m ws) :
    ∃ (document : Fields) (parts : SectionWarnings) (version : List Diagnostic),
      SectionsRead document m parts ∧ ws = version ++ parts.all := by
  obtain ⟨json, h⟩ : ∃ json, ofJson json = .read m ws := by
    cases h with
    | json json h => exact ⟨json, h⟩
    | text text h =>
      rw [ofText] at h
      split at h
      · next json _ => exact ⟨json, h⟩
      · cases h
  cases json with
  | object root =>
    obtain ⟨_, version, _, -, hfields, rfl⟩ := bind_eq_read_iff.1 h
    obtain ⟨document, -, hmodel⟩ := lift_bind_eq_read_iff.1 hfields
    obtain ⟨parts, hparts, rfl⟩ := sectionsRead_of_readModel hmodel
    exact ⟨document, parts, version, hparts, rfl⟩
  | _ => cases h

theorem readListed_eq_read {α : Type} {word : String} {make : Uuid → String → α}
    {idOf : α → Uuid} {read next : List α} {item : Json × Nat}
    (h : readListed word make idOf read item = .read next ws) :
    next = read ∨ ∃ a, (∀ b ∈ read, idOf b ≠ idOf a) ∧ next = read ++ [a] := by
  rw [readListed] at h
  obtain ⟨o, -, h⟩ := lift_bind_eq_read_iff.1 h
  obtain ⟨id, -, h⟩ := lift_bind_eq_read_iff.1 h
  obtain ⟨name, -, h⟩ := lift_bind_eq_read_iff.1 h
  dsimp only at h
  split at h
  · obtain ⟨_, _, _, -, h, -⟩ := bind_eq_read_iff.1 h
    exact .inl (pure_eq_read_iff.1 h).1.symm
  · next hfresh => exact .inr ⟨make id name, by simpa using hfresh, (pure_eq_read_iff.1 h).1.symm⟩

/-- The streams of a document have identifiers of their own: a repeated one is skipped. -/
theorem nodup_streams {streams : List Stream} (h : readStreams document = .read streams ws) :
    (streams.map Stream.id).Nodup := by
  rw [readStreams] at h
  obtain ⟨items, -, h⟩ := lift_bind_eq_read_iff.1 h
  refine foldlM_induction (motive := fun streams _ => (streams.map Stream.id).Nodup) h (by simp) ?_
  intro item _ before _ after _ hbefore hstep
  rcases readListed_eq_read hstep with rfl | ⟨s, hfresh, rfl⟩
  · exact hbefore
  · rw [List.map_append, List.nodup_append]
    refine ⟨hbefore, by simp, fun a ha b hb => ?_⟩
    obtain ⟨t, ht, rfl⟩ := List.mem_map.1 ha
    rw [List.map_singleton, List.mem_singleton] at hb
    exact hb ▸ hfresh t ht

/-- The warning that an entry stands under another identifier than the one it declares. -/
def keyMismatch (key id : Uuid) (location : String) : Diagnostic :=
  warning ("entry keyed by " ++ key.toText ++ " declares id " ++ id.toText) location

theorem checkKey_eq_read {key id : Uuid} {location : String} {u : Unit}
    (h : checkKey key id location = .read u ws) (hne : key ≠ id) :
    ws = [keyMismatch key id location] := by
  rw [checkKey, if_neg hne, warn_eq_read_iff] at h
  exact h

/-- What reading gives for an entry of the placements: the lane of its note, and a warning unless it
stands under its own identifier. -/
structure PlacementRead (ws : List Diagnostic) (entry : Uuid × Placement) : Prop where
  lane : entry.2.laneKind = laneOf entry.2.noteKind
  key : entry.1 ≠ entry.2.id → ∃ location, keyMismatch entry.1 entry.2.id location ∈ ws

theorem PlacementRead.mono {ws' : List Diagnostic} {entry : Uuid × Placement}
    (h : PlacementRead ws entry) (hsub : ws ⊆ ws') : PlacementRead ws' entry where
  lane := h.lane
  key hne := by
    obtain ⟨location, hmem⟩ := h.key hne
    exact ⟨location, hsub hmem⟩

theorem readPlacement_eq_read {read placements : Dict Uuid Placement} {entry : Keyed}
    (h : readPlacement read entry = .read placements ws) :
    placements = read ∨
      ∃ p, placements = read.insert entry.key p ∧ PlacementRead ws (entry.key, p) := by
  rw [readPlacement] at h
  obtain ⟨o, -, h⟩ := lift_bind_eq_read_iff.1 h
  obtain ⟨id, -, h⟩ := lift_bind_eq_read_iff.1 h
  obtain ⟨_, kw, later, hkey, hnote, rfl⟩ := bind_eq_read_iff.1 h
  have hwarned (hne : entry.key ≠ id) :
      ∃ location, keyMismatch entry.key id location ∈ kw ++ later := by
    rw [checkKey_eq_read hkey hne]
    exact ⟨entry.location, by simp⟩
  split at hnote
  · obtain ⟨_, _, _, -, hsame, -⟩ := bind_eq_read_iff.1 hnote
    exact .inl (pure_eq_read_iff.1 hsame).1.symm
  · next kind others _ =>
    -- a second note adds a warning and leads to the same placement
    split at hnote
    · obtain ⟨laneId, -, hnote⟩ := lift_bind_eq_read_iff.1 hnote
      obtain ⟨index, -, hnote⟩ := lift_bind_eq_read_iff.1 hnote
      obtain ⟨noteId, -, hnote⟩ := lift_bind_eq_read_iff.1 hnote
      exact .inr ⟨_, (pure_eq_read_iff.1 hnote).1.symm, rfl, hwarned⟩
    · obtain ⟨_, _, _, -, hfields, -⟩ := bind_eq_read_iff.1 hnote
      obtain ⟨laneId, -, hfields⟩ := lift_bind_eq_read_iff.1 hfields
      obtain ⟨index, -, hfields⟩ := lift_bind_eq_read_iff.1 hfields
      obtain ⟨noteId, -, hfields⟩ := lift_bind_eq_read_iff.1 hfields
      exact .inr ⟨_, (pure_eq_read_iff.1 hfields).1.symm, rfl, hwarned⟩

theorem placementRead {placements : Dict Uuid Placement}
    (h : readPlacements document = .read placements ws) :
    ∀ entry ∈ placements.entries, PlacementRead ws entry := by
  rw [readPlacements] at h
  obtain ⟨items, -, h⟩ := lift_bind_eq_read_iff.1 h
  refine foldlM_induction
    (motive := fun (ps : Dict Uuid Placement) ws => ∀ entry ∈ ps.entries, PlacementRead ws entry)
    h (by simp) ?_
  intro item _ before seen after new hbefore hstep entry hentry
  rcases readPlacement_eq_read hstep with rfl | ⟨p, rfl, hp⟩
  · exact (hbefore entry hentry).mono (List.subset_append_left _ _)
  · rcases Dict.mem_entries_insert hentry with rfl | hentry
    · exact hp.mono (List.subset_append_right _ _)
    · exact (hbefore entry hentry).mono (List.subset_append_left _ _)

/-- The streams of an accepted document have identifiers of their own. -/
theorem Accepted.nodup_streams (h : Accepted m ws) : (m.streams.map Stream.id).Nodup := by
  obtain ⟨_, _, _, hread, -⟩ := h.sectionsRead
  exact Document.nodup_streams hread.streams

/-- Every placement of an accepted document was read with the warnings of the whole document. -/
theorem Accepted.placementRead (h : Accepted m ws) :
    ∀ entry ∈ m.placements.entries, PlacementRead ws entry := by
  obtain ⟨_, parts, version, hread, rfl⟩ := h.sectionsRead
  intro entry hentry
  refine (Document.placementRead hread.placements entry hentry).mono fun d hd => ?_
  simp [SectionWarnings.all, hd]

/-- A placement of an accepted document is on the lane of its note. -/
theorem Accepted.laneKind (h : Accepted m ws) {p : Placement} (hp : p ∈ m.placements.values) :
    p.laneKind = laneOf p.noteKind := by
  obtain ⟨entry, hentry, rfl⟩ := List.mem_map.1 hp
  exact (h.placementRead entry hentry).lane

/-- A placement of an accepted document stands under its own identifier unless reading raised the
warning that it does not. -/
theorem Accepted.key_eq (h : Accepted m ws) {e : Uuid × Placement} (he : e ∈ m.placements.entries)
    (hunwarned : ∀ location, keyMismatch e.1 e.2.id location ∉ ws) : e.1 = e.2.id := by
  by_contra hne
  obtain ⟨location, hmem⟩ := (h.placementRead e he).key hne
  exact hunwarned location hmem

end EventForge.Document
