import EventForge.Proofs.Document.Entries

/-!
# Every entry is accounted for

An entry of a section leads to an entity, or a warning says that it is skipped. Two entries whose
keys spell one identifier lead to a single entity, without a warning; this is the only way in which
an entry gets lost (`accounted_iff`).
-/

namespace EventForge.Document

open Reading

/-- How many entities of a section a model has. -/
def Section.size (m : Model) : Section → Nat
  | audiences => m.audiences.length
  | streams => m.streams.length
  | interfaces => m.interfaces.size
  | readModels => m.readModels.size
  | events => m.events.size
  | commands => m.commands.size
  | flows => m.flows.size
  | placements => m.placements.size
  | schemas => m.schemas.size

/-- The entries of all sections of an event-model object, and the elements of its interfaces, are
entities of the model or skipped with a warning. -/
structure Accounted (fields : List (String × Json)) (m : Model) (ws : List Diagnostic) : Prop where
  sections : ∀ s : Section,
    s.size m + skipsAt (s.places fields) ws = (s.places fields).length
  elements : ∀ entry ∈ membersOf fields Section.interfaces.member, ∀ key i,
    Uuid.ofText? entry.1 = some key → m.interfaces.get? key = some i →
      i.elements.size + skipsAt (elementPlaces entry) ws = (elementPlaces entry).length

/-- No two entries of a section, or elements of an interface, that are kept spell one identifier. -/
structure KeysApart (fields : List (String × Json)) : Prop where
  sections : ∀ s : Section, (keptIds s.keeps (membersOf fields s.member)).Nodup
  elements : ∀ entry ∈ membersOf fields Section.interfaces.member,
    (keptIds hasKnownType (elementsOf entry.2)).Nodup

section Interfaces

variable {fields : List (String × Json)} {location : String} {interfaces : Dict Uuid Interface}
  {ws : List Diagnostic}

/-- The elements of an interface that was read from a member of the section are accounted for by the
warnings raised meanwhile. -/
structure ElementsRead (member : String × Json) (i : Interface) (ws : List Diagnostic) : Prop where
  count : i.elements.size + (skipPlaces ws).length = (elementPlaces member).length ↔
    (keptIds hasKnownType (elementsOf member.2)).Nodup
  places : ∀ place ∈ skipPlaces ws, place ∈ elementPlaces member

theorem readElements_accounted {o : Fields} {key : String} {elements : Dict Uuid Element}
    {ws : List Diagnostic} (h : readElements o = .read elements ws)
    (hlocation : o.location = Section.interfaces.text ++ "." ++ key) :
    (elements.size + (skipPlaces ws).length = (elementPlaces (key, .object o.fields)).length ↔
        (keptIds hasKnownType (elementsOf (.object o.fields))).Nodup) ∧
      ∀ place ∈ skipPlaces ws, place ∈ elementPlaces (key, .object o.fields) := by
  rw [readElements] at h
  obtain ⟨members, hmembers, h⟩ := lift_bind_eq_read_iff.1 h
  rw [elementPlaces, elementsOf, membersOf_of_object? hmembers, List.length_map]
  cases members with
  | none =>
    obtain ⟨rfl, rfl⟩ := pure_eq_read_iff.1 h
    exact ⟨by simp [keptIds, Dict.size], by simp⟩
  | some members =>
    rw [hlocation] at h
    exact members_accounted (enters_readElement _) h

theorem readInterface_eq_read {interfaces next : Dict Uuid Interface} {member : String × Json}
    {new : List Diagnostic}
    (h : readMember Section.interfaces.text readInterface interfaces member = .read next new) :
    ∃ e : Uuid × Interface, (Uuid.ofText? member.1 = some e.1 ∧ ElementsRead member e.2 new) ∧
      next = interfaces.insert e.1 e.2 := by
  obtain ⟨entry, hentry, h⟩ := lift_bind_eq_read_iff.1 h
  obtain ⟨hkey, hvalue, hlocation⟩ := readKeyed_eq_ok hentry
  rw [readInterface] at h
  obtain ⟨o, ho, h⟩ := lift_bind_eq_read_iff.1 h
  obtain ⟨id, -, h⟩ := lift_bind_eq_read_iff.1 h
  obtain ⟨_, cw, _, hcheck, hkinds, rfl⟩ := bind_eq_read_iff.1 h
  obtain ⟨kind, kw, _, hkind, htexts, rfl⟩ := bind_eq_read_iff.1 hkinds
  obtain ⟨name, -, htexts⟩ := lift_bind_eq_read_iff.1 htexts
  obtain ⟨description, -, htexts⟩ := lift_bind_eq_read_iff.1 htexts
  obtain ⟨elements, ew, _, helements, hpure, rfl⟩ := bind_eq_read_iff.1 htexts
  obtain ⟨rfl, rfl⟩ := pure_eq_read_iff.1 hpure
  obtain ⟨hobject, hplace⟩ := Fields.ofJson_eq_ok_iff.1 ho
  have hmember : member = (member.1, .object o.fields) :=
    Prod.ext rfl (hvalue.symm.trans hobject)
  have haccounted := readElements_accounted helements (hplace.symm.trans hlocation)
  rw [← hmember, ← hobject, hvalue] at haccounted
  have hskips : skipPlaces (cw ++ (kw ++ (ew ++ []))) = skipPlaces ew := by
    simp [quiet_checkKey _ _ _ _ _ hcheck, quiet_readInterfaceKind _ _ _ hkind]
  refine ⟨(entry.key, ⟨id, name, description, kind, elements⟩), ⟨hkey, ?_, ?_⟩, rfl⟩
  · rw [hskips]
    exact haccounted.1
  · rw [hskips]
    exact haccounted.2

/-- Interfaces that were read from members, one for each, with the warnings raised meanwhile. -/
def InterfacesOf (members : List (String × Json))
    (ys : List ((Uuid × Interface) × List Diagnostic)) : Prop :=
  List.Forall₂ (fun member y =>
    Uuid.ofText? member.1 = some y.1.1 ∧ ElementsRead member y.1.2 y.2) members ys

namespace InterfacesOf

variable {members : List (String × Json)} {ys : List ((Uuid × Interface) × List Diagnostic)}
  {member : String × Json}

theorem ids (h : InterfacesOf members ys) :
    (members.map fun e => Uuid.ofText? e.1) = ((ys.map Prod.fst).map Prod.fst).map some := by
  rw [List.map_map, List.map_map]
  exact map_eq_map_of_forall₂ (h.imp fun _ _ hy => hy.1)

theorem nodup_iff (h : InterfacesOf members ys) :
    (members.map fun e => Uuid.ofText? e.1).Nodup ↔ ((ys.map Prod.fst).map Prod.fst).Nodup := by
  rw [h.ids, List.nodup_map_iff fun _ _ => Option.some.inj]

theorem key_of_mem (h : InterfacesOf members ys) (hmember : member ∈ members) :
    ∃ key, Uuid.ofText? member.1 = some key ∧ key ∈ (ys.map Prod.fst).map Prod.fst := by
  have hmem : Uuid.ofText? member.1 ∈ members.map fun e => Uuid.ofText? e.1 :=
    List.mem_map.2 ⟨member, hmember, rfl⟩
  rw [h.ids] at hmem
  obtain ⟨key, hkey, heq⟩ := List.mem_map.1 hmem
  exact ⟨key, heq.symm, hkey⟩

theorem isId_of_mem (h : InterfacesOf members ys) (hmember : member ∈ members) :
    IsId member.1 := by
  obtain ⟨key, hkey, -⟩ := h.key_of_mem hmember
  exact ⟨key, hkey⟩

/-- Only elements are skipped. -/
theorem skipped (h : InterfacesOf members ys) :
    ∀ place ∈ skipPlaces (ys.flatMap Prod.snd), ∃ member ∈ members, place ∈ elementPlaces member :=
  forall_skipPlaces h fun member hmember _ hy place hplace =>
    ⟨member, hmember, hy.2.places place hplace⟩

/-- When no identifier is repeated, the elements of an interface are accounted for by all warnings
as they are by those raised while it was read. -/
theorem count_elements (h : InterfacesOf members ys)
    (hnodup : (members.map fun e => Uuid.ofText? e.1).Nodup) (hmember : member ∈ members)
    {key : Uuid} {i : Interface} (hkey : Uuid.ofText? member.1 = some key)
    (hi : (Dict.ofList (ys.map Prod.fst)).get? key = some i) :
    i.elements.size + skipsAt (elementPlaces member) (ys.flatMap Prod.snd)
        = (elementPlaces member).length ↔
      (keptIds hasKnownType (elementsOf member.2)).Nodup := by
  obtain ⟨y, hy, ⟨hkey', hread⟩, hcount⟩ := countP_skipPlaces h hmember hnodup
    (p := fun place => place ∈ elementPlaces member)
    (fun _ hy place hplace => decide_eq_true (hy.2.places place hplace)) (by
      intro member' hmember' hne _ hy place hplace hown
      refine elementPlaces_disjoint (h.isId_of_mem hmember') ⟨key, hkey⟩ ?_
        (hy.2.places place hplace) (of_decide_eq_true hown)
      exact fun heq => hne (by rw [heq]))
  have hmem : y.1 ∈ (Dict.ofList (ys.map Prod.fst)).entries := by
    rw [Dict.entries_ofList_eq_iff.2 (h.nodup_iff.1 hnodup)]
    exact List.mem_map_of_mem hy
  obtain rfl := Option.some.inj (hkey.symm.trans hkey')
  obtain rfl := Option.some.inj (hi.symm.trans (Dict.get?_of_mem hmem))
  rw [skipsAt, hcount]
  exact hread.count

end InterfacesOf

/-- The interfaces that were read from their section, with the elements of each. -/
structure InterfacesRead (fields : List (String × Json)) (interfaces : Dict Uuid Interface)
    (ws : List Diagnostic) : Prop where
  entries : SectionRead .interfaces fields interfaces.size ws
  known : ∀ member ∈ membersOf fields Section.interfaces.member,
    ∃ key i, Uuid.ofText? member.1 = some key ∧ interfaces.get? key = some i
  elements : (keptIds Section.interfaces.keeps (membersOf fields Section.interfaces.member)).Nodup →
    ∀ member ∈ membersOf fields Section.interfaces.member, ∀ key i,
      Uuid.ofText? member.1 = some key → interfaces.get? key = some i →
        (i.elements.size + skipsAt (elementPlaces member) ws = (elementPlaces member).length ↔
          (keptIds hasKnownType (elementsOf member.2)).Nodup)

theorem interfacesRead (h : readInterfaces ⟨fields, location⟩ = .read interfaces ws) :
    InterfacesRead fields interfaces ws := by
  have hentries : readEntries .interfaces readInterface ∅ ⟨fields, location⟩
      = .read interfaces ws := h
  obtain ⟨hmembers, hplaces⟩ := readEntries_eq_read hentries
  obtain ⟨ys, hys, hresult, rfl⟩ := foldlM_eq_read hmembers fun _ _ _ _ => readInterface_eq_read
  replace hys : InterfacesOf (membersOf fields Section.interfaces.member) ys := hys
  replace hresult : interfaces = Dict.ofList (ys.map Prod.fst) := hresult
  subst hresult
  have hkept : keptIds Section.interfaces.keeps (membersOf fields Section.interfaces.member)
      = (membersOf fields Section.interfaces.member).map fun e => Uuid.ofText? e.1 :=
    keptIds_of_all fun _ => rfl
  refine ⟨⟨?_, ?_⟩, ?_, ?_⟩
  · -- only elements are skipped, and their places are not those of interfaces
    have hnone : skipsAt (Section.interfaces.places fields) (ys.flatMap Prod.snd) = 0 := by
      refine skipsAt_eq_zero fun place hplace hentry => ?_
      obtain ⟨member, -, helement⟩ := hys.skipped place hplace
      rw [hplaces] at hentry
      obtain ⟨member', hmember', rfl⟩ := List.mem_map.1 hentry
      exact elementPlace_ne helement (hys.isId_of_mem hmember') rfl
    rw [hnone, Nat.add_zero, hplaces, List.length_map, List.Forall₂.length_eq hys, hkept,
      hys.nodup_iff, ← Dict.size_ofList_eq_iff, List.length_map]
  · intro place hplace
    obtain ⟨member, -, helement⟩ := hys.skipped place hplace
    exact firstWord_of_mem_elementPlaces helement
  · intro member hmember
    obtain ⟨key, hkey, hmem⟩ := hys.key_of_mem hmember
    have hfound := (find?_isSome_iff _ _).2 (Dict.mem_keys_ofList.2 hmem)
    obtain ⟨i, hi⟩ := Option.isSome_iff_exists.1 hfound
    exact ⟨key, i, hkey, hi⟩
  · intro hnodup member hmember key i hkey hi
    rw [hkept] at hnodup
    exact hys.count_elements hnodup hmember hkey hi

end Interfaces

section Documents

variable {o : Fields} {m : Model} {parts : SectionWarnings}

/-- The warnings raised in a section. -/
def SectionWarnings.of (parts : SectionWarnings) : Section → List Diagnostic
  | .audiences => parts.audiences
  | .streams => parts.streams
  | .interfaces => parts.interfaces
  | .readModels => parts.readModels
  | .events => parts.events
  | .commands => parts.commands
  | .flows => parts.flows
  | .placements => parts.placements
  | .schemas => parts.schemas

theorem sectionRead (h : SectionsRead o m parts) (s : Section) :
    SectionRead s o.fields (s.size m) (parts.of s) := by
  cases s with
  | audiences => exact items_accounted (addsItem_readListed rfl Audience.mk Audience.id) h.audiences
  | streams => exact items_accounted (addsItem_readListed rfl Stream.mk Stream.id) h.streams
  | interfaces => exact (interfacesRead h.interfaces).entries
  | readModels =>
    exact entries_accounted (entersKeyed_readNote .readModel fun _ => rfl) h.readModels
  | events =>
    exact entries_accounted (entersKeyed_readNote .event fun _ => rfl) h.events
  | commands =>
    exact entries_accounted (entersKeyed_readNote .command fun _ => rfl) h.commands
  | flows => exact entries_accounted (entersKeyed_readFlow fun _ => rfl) h.flows
  | placements => exact entries_accounted entersKeyed_readPlacement h.placements
  | schemas => exact entries_accounted (entersKeyed_readSchema fun _ => rfl) h.schemas

/-- Of the entries skipped in a document, those at places of a section were skipped there. -/
theorem skipsAt_all (h : SectionsRead o m parts) {s : Section} {places : List String}
    (hplaces : ∀ place ∈ places, firstWord place = s.text.toList) :
    skipsAt places parts.all = skipsAt places (parts.of s) := by
  have hother (t : Section) (hne : t ≠ s) : skipsAt places (parts.of t) = 0 := by
    refine skipsAt_eq_zero fun place hplace hmem => hne ?_
    have hword := (sectionRead h t).word place hplace
    exact Section.text_injective t s (hword.symm.trans (hplaces place hmem))
  have happend (vs us : List Diagnostic) :
      skipsAt places (vs ++ us) = skipsAt places vs + skipsAt places us := by
    rw [skipsAt, skipPlaces_append, List.countP_append]
    rfl
  have hsum : skipsAt places parts.all = skipsAt places (parts.of .audiences) +
      (skipsAt places (parts.of .streams) + (skipsAt places (parts.of .interfaces) +
        (skipsAt places (parts.of .readModels) + (skipsAt places (parts.of .events) +
          (skipsAt places (parts.of .commands) + (skipsAt places (parts.of .flows) +
            (skipsAt places (parts.of .placements) + skipsAt places (parts.of .schemas)))))))) := by
    simp only [SectionWarnings.all, SectionWarnings.of, happend]
  rw [hsum]
  cases s <;> simp [hother]

/-- An accepted document has an event-model object. Its warnings are about its version, then about
its sections. -/
theorem exists_of_ofJson {document : Json} {ws : List Diagnostic}
    (h : ofJson document = .read m ws) :
    ∃ (root : List (String × Json)) (o : Fields) (version : List Diagnostic)
      (parts : SectionWarnings), checkVersion root = .read () version ∧ SectionsRead o m parts ∧
        modelMembers document = o.fields ∧ ws = version ++ parts.all := by
  cases document with
  | object root =>
    obtain ⟨_, version, _, hversion, hmembers, rfl⟩ := bind_eq_read_iff.1 h
    obtain ⟨o, hroot, hmodel⟩ := lift_bind_eq_read_iff.1 hmembers
    obtain ⟨parts, hparts, rfl⟩ := sectionsRead_of_readModel hmodel
    refine ⟨root, o, version, parts, hversion, hparts, ?_, rfl⟩
    rw [modelFields] at hroot
    rw [modelMembers, membersOf]
    split at hroot
    · next members hfind =>
      cases hroot
      rw [hfind]
    · cases hroot
    · cases hroot
  | _ => cases h

/-- All skipped entries of an accepted document are of sections. -/
theorem sectionsRead_of_ofJson {document : Json} {ws : List Diagnostic}
    (h : ofJson document = .read m ws) :
    ∃ (o : Fields) (parts : SectionWarnings), SectionsRead o m parts ∧
      modelMembers document = o.fields ∧ skipPlaces ws = skipPlaces parts.all := by
  obtain ⟨root, o, version, parts, hversion, hparts, hfields, rfl⟩ := exists_of_ofJson h
  refine ⟨o, parts, hparts, hfields, ?_⟩
  rw [skipPlaces_append, quiet_checkVersion root _ _ hversion, List.nil_append]

/-- In an accepted document the entries of all sections, and the elements of the interfaces, are
entities of the model or skipped with a warning exactly when no two entries of a section, or
elements of an interface, spell one identifier. -/
theorem accounted_iff {document : Json} {ws : List Diagnostic}
    (h : ofJson document = .read m ws) :
    Accounted (modelMembers document) m ws ↔ KeysApart (modelMembers document) := by
  obtain ⟨⟨fields, location⟩, parts, hparts, hfields, hskips⟩ := sectionsRead_of_ofJson h
  rw [hfields]
  dsimp only
  -- the first word of a place tells its section, so other sections do not count
  have hat {s : Section} {places : List String}
      (hplaces : ∀ place ∈ places, firstWord place = s.text.toList) :
      skipsAt places ws = skipsAt places (parts.of s) := by
    rw [skipsAt, hskips]
    exact skipsAt_all hparts hplaces
  have hsection (s : Section) : s.size m + skipsAt (s.places fields) ws = (s.places fields).length ↔
      (keptIds s.keeps (membersOf fields s.member)).Nodup := by
    rw [hat fun _ => firstWord_of_mem_places]
    exact (sectionRead hparts s).count
  have hinterfaces := interfacesRead hparts.interfaces
  constructor
  · intro haccounted
    have hnodup (s : Section) := (hsection s).1 (haccounted.sections s)
    -- the warnings tell interfaces apart only as long as these have different keys
    refine ⟨hnodup, fun entry hentry => ?_⟩
    obtain ⟨key, i, hkey, hi⟩ := hinterfaces.known entry hentry
    have hcount := haccounted.elements entry hentry key i hkey hi
    rw [hat fun _ => firstWord_of_mem_elementPlaces] at hcount
    exact (hinterfaces.elements (hnodup .interfaces) entry hentry key i hkey hi).1 hcount
  · intro hapart
    refine ⟨fun s => (hsection s).2 (hapart.sections s), fun entry hentry key i hkey hi => ?_⟩
    rw [hat fun _ => firstWord_of_mem_elementPlaces]
    exact (hinterfaces.elements (hapart.sections .interfaces) entry hentry key i hkey hi).2
      (hapart.elements entry hentry)

/-- A document with an interface that has an element of an unknown type. -/
def strayElement : Json :=
  .object [("spec-version", .string "0.1.0-beta"), ("event-model", .object
    [("event-model/id", .string "11111111-1111-1111-1111-111111111111"),
      ("event-model/name", .string "Shop"),
      ("event-model/interfaces", .object
        [("22222222-2222-2222-2222-222222222222", .object
          [("interface/id", .string "22222222-2222-2222-2222-222222222222"),
            ("interface/name", .string "Cart"), ("interface/type", .string "interface.type/html"),
            ("interface/elements", .object
              [("33333333-3333-3333-3333-333333333333", .object
                [("element/id", .string "33333333-3333-3333-3333-333333333333"),
                  ("element/name", .string "Submit"),
                  ("element/type", .string "element.type/post")]),
              ("44444444-4444-4444-4444-444444444444", .object
                [("element/id", .string "44444444-4444-4444-4444-444444444444"),
                  ("element/name", .string "Swipe"),
                  ("element/type", .string "element.type/swipe")])])])])])]

theorem accounted_iff_strayElement :
    ∃ m ws, ofJson strayElement = .read m ws ∧ ws.length = 1 ∧
      KeysApart (modelMembers strayElement) ∧ Accounted (modelMembers strayElement) m ws := by
  obtain ⟨m, ws, hread, hwarned⟩ := @exists_read_of_map Model Nat (ofJson strayElement)
    (fun e => e.2.length) 1 (by decide +kernel)
  have hapart : KeysApart (modelMembers strayElement) := by
    refine ⟨fun s => ?_, by decide +kernel⟩
    cases s <;> decide +kernel
  exact ⟨m, ws, hread, hwarned, hapart, (accounted_iff hread).2 hapart⟩

/-- A document with two events whose keys spell one identifier. -/
def twinEvents : Json :=
  .object [("spec-version", .string "0.1.0-beta"), ("event-model", .object
    [("event-model/id", .string "11111111-1111-1111-1111-111111111111"),
      ("event-model/name", .string "Shop"),
      ("event-model/events", .object
        [("aaaaaaaa-aaaa-aaaa-aaaa-aaaaaaaaaaaa", .object
          [("event/id", .string "aaaaaaaa-aaaa-aaaa-aaaa-aaaaaaaaaaaa"),
            ("event/name", .string "Order placed")]),
        ("AAAAAAAA-AAAA-AAAA-AAAA-AAAAAAAAAAAA", .object
          [("event/id", .string "AAAAAAAA-AAAA-AAAA-AAAA-AAAAAAAAAAAA"),
            ("event/name", .string "Order cancelled")])])])]

/-- The second event replaces the first one, and no warning tells of it. -/
theorem twinEvents_overwritten :
    ∃ m, ofJson twinEvents = .read m [] ∧ m.events.values.map Note.name = ["Order cancelled"] ∧
      ¬Accounted (modelMembers twinEvents) m [] := by
  obtain ⟨m, ws, hread, hfeature⟩ := @exists_read_of_map Model _ (ofJson twinEvents)
    (fun e => (e.2, e.1.events.values.map Note.name)) ([], ["Order cancelled"]) (by decide)
  obtain ⟨rfl, hnames⟩ := Prod.mk.inj hfeature
  refine ⟨m, hread, hnames, fun haccounted => ?_⟩
  have hone : m.events.size = 1 := by
    simpa [Dict.size, Dict.values] using congrArg List.length hnames
  have htwo : (Section.events.places (modelMembers twinEvents)).length = 2 := by decide
  have hcount := haccounted.sections .events
  rw [htwo] at hcount
  simp [Section.size, hone, skipsAt] at hcount

end Documents

end EventForge.Document
