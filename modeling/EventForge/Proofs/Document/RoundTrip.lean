import EventForge.Proofs.Document.Sections
import EventForge.Proofs.Document.TypeNode
import EventForge.Proofs.Model

/-!
# Reading canonical documents back

The canonical document of a well-formed model is read as that model, in the same order and without a
warning (`ofJson_printModel`). Each reader of an entry undoes its printer; a section keyed by
identifiers and a section that is a list are read by one lemma each.
-/

namespace EventForge.Document

open Reading
open TypeTree (nameFor)

section Sections

variable {document : Fields} {name : String}

theorem checkKey_self {key id : Uuid} (h : key = id) (location : String) :
    checkKey key id location = .read () [] := by
  rw [checkKey, if_pos h]
  rfl

theorem readKeyed_toText (parent : String) (id : Uuid) (value : Json) :
    readKeyed parent (id.toText, value) = .ok ⟨id, value, parent ++ "." ++ id.toText⟩ := by
  rw [readKeyed, readId_toText]
  rfl

theorem keyedSection_of_find {ν : Type} {fields : ν → List (String × Json)} {d : Dict Uuid ν}
    (h : find? document.fields (sectionKey name) = some (printKeyed fields d)) :
    keyedSection document name
      = .ok (d.entries.map fun e => ⟨e.1, .object (fields e.2), name ++ "." ++ e.1.toText⟩) := by
  have hmap : ∀ es : List (Uuid × ν),
      (es.map fun e => (e.1.toText, Json.object (fields e.2))).mapM (readKeyed name) = Except.ok
        (es.map fun e => ⟨e.1, .object (fields e.2), name ++ "." ++ e.1.toText⟩) := by
    intro es
    induction es with
    | nil => rfl
    | cons e es ih =>
      rw [List.map_cons, List.mapM_cons, readKeyed_toText, ih]
      rfl
  rw [keyedSection, Fields.object?_of_find (some _) h]
  exact hmap d.entries

/-- A keyed section is read back when each of its entries is. -/
theorem readSection_of_find {ν : Type} {fields : ν → List (String × Json)} {d : Dict Uuid ν}
    {step : Dict Uuid ν → Keyed → Reading (Dict Uuid ν)}
    (h : find? document.fields (sectionKey name) = some (printKeyed fields d))
    (hstep : ∀ e ∈ d.entries, ∀ acc location,
      step acc ⟨e.1, .object (fields e.2), location⟩ = .read (acc.insert e.1 e.2) []) :
    (do
      let entries ← keyedSection document name
      entries.foldlM step ∅) = Reading.read d [] := by
  rw [keyedSection_of_find h, lift_ok, read_nil_bind]
  exact foldlM_insert d fun e he acc => hstep e he acc _

/-- A list section is read back when each of its items is, behind items with other identifiers. -/
theorem readList_of_find {α : Type} {fields : α → List (String × Json)} {items : List α}
    {id : α → Uuid} {step : List α → Json × Nat → Reading (List α)}
    (h : find? document.fields (sectionKey name) = some (printList fields items))
    (hstep : ∀ read a i, (∀ b ∈ read, id b ≠ id a) →
      step read (.object (fields a), i) = .read (read ++ [a]) [])
    (hids : (items.map id).Nodup) :
    (do
      let items ← listSection document name
      items.zipIdx.foldlM step []) = Reading.read items [] := by
  suffices hgen : ∀ (rest read : List α) (start : Nat), ((read ++ rest).map id).Nodup →
      ((rest.map fun a => Json.object (fields a)).zipIdx start).foldlM step read
        = .read (read ++ rest) [] by
    have hlist : listSection document name = .ok (items.map fun a => .object (fields a)) := by
      rw [listSection, Fields.array?_of_find (some _) h]
      rfl
    rw [hlist, lift_ok, read_nil_bind]
    exact hgen items [] 0 hids
  intro rest
  induction rest with
  | nil =>
    intro read start _
    rw [List.append_nil]
    rfl
  | cons a rest ih =>
    intro read start hnodup
    have hfresh : ∀ b ∈ read, id b ≠ id a := by
      rw [List.map_append, List.map_cons, List.nodup_append] at hnodup
      exact fun b hb heq => hnodup.2.2 _ (List.mem_map_of_mem hb) _ (by simp) heq
    rw [List.map_cons, List.zipIdx_cons, List.foldlM_cons, hstep read a start hfresh, read_nil_bind,
      ih (read ++ [a]) (start + 1) (by simpa using hnodup)]
    simp

end Sections

/-- Tags are read up to the last slash in front of them. -/
theorem lastSegment_append (ns : String) {tag : String} (hslash : '/' ∉ tag.toList)
    (htag : Text.isTag tag) : lastSegment (ns ++ "/" ++ tag) = tag := by
  have hcs : (ns ++ "/" ++ tag).toList = ns.toList ++ '/' :: tag.toList := by simp
  rw [lastSegment, hcs, Text.cutLast?_append_sep _ hslash]
  simp only [String.ofList_toList]
  exact Text.lower_of_isTag htag

theorem splitQualified_append (ns : String) {name : String} (h : '/' ∉ name.toList) :
    Model.splitQualified (ns ++ "/" ++ name) = (ns, name) := by
  have hcs : (ns ++ "/" ++ name).toList = ns.toList ++ '/' :: name.toList := by simp
  rw [Model.splitQualified, hcs, Text.cutLast?_append_sep _ h]
  simp only [String.ofList_toList]

theorem readListed_fields {α : Type} (word : String) (make : Uuid → String → α) (idOf : α → Uuid)
    (id : Uuid) (name : String) {read : List α} {i : Nat}
    (h : ∀ b ∈ read, idOf b ≠ idOf (make id name)) :
    readListed word make idOf read (.object (listedFields word id name), i) =
      .read (read ++ [make id name]) [] := by
  have hid (location : String) :
      (Fields.mk (listedFields word id name) location).id (word ++ "/id") = .ok id :=
    Fields.id_of_find (by simp [listedFields])
  have hname (location : String) :
      (Fields.mk (listedFields word id name) location).text (word ++ "/name") = .ok name :=
    Fields.text_of_find (by simp [listedFields])
  have hfresh : (read.any fun b => idOf b = idOf (make id name)) = false := by simpa using h
  simp only [readListed, Fields.ofJson, hid, hname, hfresh, lift_ok, read_nil_bind]
  rfl

theorem text_elementKind (kind : ElementKind) :
    '/' ∉ kind.text.toList ∧ Text.isTag kind.text ∧ ElementKind.ofTag? kind.text = some kind := by
  cases kind <;> decide

theorem text_interfaceKind (kind : InterfaceKind) :
    '/' ∉ kind.text.toList ∧ Text.isTag kind.text := by
  cases kind <;> simp only [InterfaceKind.text] <;> decide

theorem readElement_fields (parent : String) (acc : Dict Uuid Element) {e : Uuid × Element}
    (hkey : e.1 = e.2.id) :
    readElement parent acc (e.1.toText, .object (elementFields e.2))
      = .read (acc.insert e.1 e.2) [] := by
  obtain ⟨key, e⟩ := e
  obtain ⟨hslash, htag, hkind⟩ := text_elementKind e.kind
  have hid (location : String) : (Fields.mk (elementFields e) location).id "element/id"
      = .ok e.id := Fields.id_of_find (by simp [elementFields])
  have htype (location : String) : (Fields.mk (elementFields e) location).text "element/type"
      = .ok ("element.type" ++ "/" ++ e.kind.text) :=
    Fields.text_of_find (by simp [elementFields])
  have hname (location : String) : (Fields.mk (elementFields e) location).text "element/name"
      = .ok e.name := Fields.text_of_find (by simp [elementFields])
  simp only [readElement, readKeyed_toText, Fields.ofJson, hid, htype, hname, checkKey_self hkey,
    lastSegment_append _ hslash htag, hkind, lift_ok, read_nil_bind]
  rfl

theorem readInterfaceKind_fields (i : Interface) (location : String) :
    readInterfaceKind ⟨interfaceFields i, location⟩ = .read i.kind [] := by
  obtain ⟨hslash, htag⟩ := text_interfaceKind i.kind
  have htype : (Fields.mk (interfaceFields i) location).text "interface/type"
      = .ok ("interface.type" ++ "/" ++ i.kind.text) :=
    Fields.text_of_find (by simp [interfaceFields, textField])
  have hurl : (Fields.mk (interfaceFields i) location).text? "interface.type.figma/url"
      = .ok i.kind.url? := Fields.text?_of_find _ (by simp [interfaceFields, textField])
  simp only [readInterfaceKind, htype, hurl, lastSegment_append _ hslash htag, lift_ok,
    read_nil_bind]
  cases i.kind <;> rfl

theorem readInterface_fields (acc : Dict Uuid Interface) {e : Uuid × Interface}
    (hkey : e.1 = e.2.id) (hwell : e.2.WellFormed) (location : String) :
    readInterface acc ⟨e.1, .object (interfaceFields e.2), location⟩
      = .read (acc.insert e.1 e.2) [] := by
  obtain ⟨key, i⟩ := e
  have hid : (Fields.mk (interfaceFields i) location).id "interface/id" = .ok i.id :=
    Fields.id_of_find (by simp [interfaceFields, textField])
  have hname : (Fields.mk (interfaceFields i) location).text "interface/name" = .ok i.name :=
    Fields.text_of_find (by simp [interfaceFields, textField])
  have hdescription : (Fields.mk (interfaceFields i) location).text? "interface/description"
      = .ok i.description := Fields.text?_of_find _ (by simp [interfaceFields, textField])
  have helements : readElements ⟨interfaceFields i, location⟩ = .read i.elements [] := by
    have hobject : (Fields.mk (interfaceFields i) location).object? "interface/elements"
        = .ok (some (i.elements.entries.map fun e => (e.1.toText, .object (elementFields e.2)))) :=
      Fields.object?_of_find _ (by simp [interfaceFields, textField, printKeyed])
    rw [readElements, hobject, lift_ok, read_nil_bind]
    exact foldlM_insert i.elements fun e he acc =>
      readElement_fields _ acc (hwell.elements e he)
  simp only [readInterface, Fields.ofJson, hid, hname, hdescription, helements,
    readInterfaceKind_fields, checkKey_self hkey, lift_ok, read_nil_bind]
  rfl

section Notes

variable {kind : NoteKind}

theorem readNoteSchema_fields (kind : NoteKind) (n : Note) (location : String) :
    readNoteSchema ⟨noteFields kind n, location⟩ kind = .read n.schemaId [] := by
  have hobject : (Fields.mk (noteFields kind n) location).object? (kind.text ++ "/schemas")
      = .ok (n.schemaId.map fun id => [(id.toText, printId id)]) := by
    refine Fields.object?_of_find _ ?_
    rw [Option.map_map]
    change _ = n.schemaId.map printNoteSchema
    cases kind <;> simp [noteFields, textField, NoteKind.text]
  rw [readNoteSchema, hobject, lift_ok, read_nil_bind]
  cases n.schemaId with
  | none => rfl
  | some id =>
    simp only [Option.map_some, printId, readId_toText, lift_ok, read_nil_bind]
    rfl

theorem readNote_fields (acc : Dict Uuid Note) {e : Uuid × Note} (hkey : e.1 = e.2.id)
    (location : String) :
    readNote kind acc ⟨e.1, .object (noteFields kind e.2), location⟩
      = .read (acc.insert e.1 e.2) [] := by
  obtain ⟨key, n⟩ := e
  have hid : (Fields.mk (noteFields kind n) location).id (kind.text ++ "/id") = .ok n.id :=
    Fields.id_of_find (by cases kind <;> simp [noteFields, textField, NoteKind.text])
  have hname : (Fields.mk (noteFields kind n) location).text (kind.text ++ "/name") = .ok n.name :=
    Fields.text_of_find (by cases kind <;> simp [noteFields, textField, NoteKind.text])
  have hdescription : (Fields.mk (noteFields kind n) location).text? (kind.text ++ "/description")
      = .ok n.description :=
    Fields.text?_of_find _ (by cases kind <;> simp [noteFields, textField, NoteKind.text])
  simp only [readNote, Fields.ofJson, hid, hname, hdescription, readNoteSchema_fields,
    checkKey_self hkey, lift_ok, read_nil_bind]
  rfl

end Notes

theorem readFlow_fields (acc : Dict Uuid Flow) (e : Uuid × Flow) (location : String) :
    readFlow acc ⟨e.1, .object (flowFields e.2), location⟩ = .read (acc.insert e.1 e.2) [] := by
  obtain ⟨key, f⟩ := e
  have hsource : (Fields.mk (flowFields f) location).id "flow/from" = .ok f.source :=
    Fields.id_of_find (by simp [flowFields])
  have htarget : (Fields.mk (flowFields f) location).id "flow/to" = .ok f.target :=
    Fields.id_of_find (by simp [flowFields])
  simp only [readFlow, Fields.ofJson, hsource, htarget, lift_ok, read_nil_bind]
  rfl

/-- The fields of a placement name one note, that of its kind. -/
theorem placeable_placementFields (p : Placement) (location : String) :
    (placeable.filter fun kind =>
      (Fields.mk (placementFields p) location).has (kind.text ++ "/id")) = [p.noteKind] := by
  obtain ⟨_, _, kind, _, _, lane⟩ := p
  cases kind <;> cases lane <;> rfl

theorem readLane_placementFields {p : Placement} (hwell : p.WellFormed) (location : String) :
    readLane ⟨placementFields p, location⟩ p.noteKind = .ok p.laneId := by
  have htimeline := hwell.laneId
  rw [hwell.lane] at htimeline
  cases hkind : p.noteKind with
  | interface =>
    refine Fields.id?_of_find ?_
    simp [placementFields, hkind, laneField, NoteKind.text]
  | event =>
    refine Fields.id?_of_find ?_
    simp [placementFields, hkind, laneField, NoteKind.text]
  | command => rw [htimeline (by rw [hkind]; rfl)]; rfl
  | readModel => rw [htimeline (by rw [hkind]; rfl)]; rfl

theorem readPlacement_fields (acc : Dict Uuid Placement) {e : Uuid × Placement}
    (hkey : e.1 = e.2.id) (hwell : e.2.WellFormed) (location : String) :
    readPlacement acc ⟨e.1, .object (placementFields e.2), location⟩
      = .read (acc.insert e.1 e.2) [] := by
  obtain ⟨key, p⟩ := e
  have hid : (Fields.mk (placementFields p) location).id "placement/id" = .ok p.id :=
    Fields.id_of_find (by simp [placementFields])
  have hindex : (Fields.mk (placementFields p) location).integer "placement/index" = .ok p.index :=
    Fields.integer_of_find (by simp [placementFields]) hwell.index
  have hnote : (Fields.mk (placementFields p) location).id (p.noteKind.text ++ "/id")
      = .ok p.noteId := by
    refine Fields.id_of_find ?_
    cases hkind : p.noteKind <;> simp [placementFields, hkind, NoteKind.text]
  simp only [readPlacement, Fields.ofJson, hid, placeable_placementFields, hindex, hnote,
    readLane_placementFields hwell, checkKey_self hkey, lift_ok, read_nil_bind, ← hwell.lane]
  rfl

theorem readSchema_fields (acc : Dict Uuid Schema) {e : Uuid × Schema} (hkey : e.1 = e.2.id)
    (hwell : e.2.WellFormed) (location : String) :
    readSchema acc ⟨e.1, .object (schemaFields e.2), location⟩ = .read (acc.insert e.1 e.2) [] := by
  obtain ⟨key, s⟩ := e
  have hid : (Fields.mk (schemaFields s) location).id "schema/id" = .ok s.id :=
    Fields.id_of_find (by simp [schemaFields, textField])
  have hname : (Fields.mk (schemaFields s) location).text "schema/name"
      = .ok (s.ns ++ "/" ++ s.name) := Fields.text_of_find (by simp [schemaFields, textField])
  have hroot : (Fields.mk (schemaFields s) location).value? "schema/schema"
      = some (printType s.type) := by simp [Fields.value?, schemaFields, textField]
  have hdescription : (Fields.mk (schemaFields s) location).text? "schema/description"
      = .ok s.description := Fields.text?_of_find _ (by simp [schemaFields, textField])
  simp only [readSchema, Fields.ofJson, hid, hname, hroot, hdescription, checkKey_self hkey,
    splitQualified_append _ hwell.name, readNode_printType hwell.type, lift_ok, read_nil_bind]
  rfl

theorem isSupported_supportedVersion : isSupported supportedVersion = true := by
  decide

/-- When all but the placements of a model are well-formed, only reading the placements can raise
warnings. -/
theorem readModel_of_placements {m : Model} (h : { m with placements := ∅ }.WellFormed)
    {location : String} {ws : List Diagnostic}
    (hplacements : readPlacements ⟨sectionFields m, location⟩ = .read m.placements ws) :
    readModel ⟨sectionFields m, location⟩ = .read m ws := by
  generalize hdocument : Fields.mk (sectionFields m) location = document at hplacements ⊢
  have hid : document.id "event-model/id" = .ok m.id :=
    Fields.id_of_find (by simp [← hdocument, sectionFields, textField])
  have hname : document.text "event-model/name" = .ok m.name :=
    Fields.text_of_find (by simp [← hdocument, sectionFields, textField])
  have hdescription : document.text? "event-model/description" = .ok m.description :=
    Fields.text?_of_find _ (by simp [← hdocument, sectionFields, textField])
  have haudience (read : List Audience) (a : Audience) (i : Nat) (hfresh : ∀ b ∈ read, b.id ≠ a.id) :
      readAudience read (.object (audienceFields a), i) = .read (read ++ [a]) [] :=
    readListed_fields "audience" Audience.mk Audience.id a.id a.name hfresh
  have hstream (read : List Stream) (s : Stream) (i : Nat) (hfresh : ∀ t ∈ read, t.id ≠ s.id) :
      readStream read (.object (streamFields s), i) = .read (read ++ [s]) [] :=
    readListed_fields "stream" Stream.mk Stream.id s.id s.name hfresh
  have haudiences : readAudiences document = .read m.audiences [] :=
    readList_of_find (by simp [← hdocument, sectionFields, textField, sectionKey])
      haudience h.audiences
  have hstreams : readStreams document = .read m.streams [] :=
    readList_of_find (by simp [← hdocument, sectionFields, textField, sectionKey])
      hstream h.streams
  have hinterfaces : readInterfaces document = .read m.interfaces [] :=
    readSection_of_find (by simp [← hdocument, sectionFields, textField, sectionKey])
      fun e he acc => readInterface_fields acc (h.interfaces e he).1 (h.interfaces e he).2
  have hreadModels : readNotes document .readModel = .read m.readModels [] :=
    readSection_of_find (by simp [← hdocument, sectionFields, textField, sectionKey, NoteKind.text])
      fun e he acc => readNote_fields acc (h.readModels e he)
  have hevents : readNotes document .event = .read m.events [] :=
    readSection_of_find (by simp [← hdocument, sectionFields, textField, sectionKey, NoteKind.text])
      fun e he acc => readNote_fields acc (h.events e he)
  have hcommands : readNotes document .command = .read m.commands [] :=
    readSection_of_find (by simp [← hdocument, sectionFields, textField, sectionKey, NoteKind.text])
      fun e he acc => readNote_fields acc (h.commands e he)
  have hflows : readFlows document = .read m.flows [] :=
    readSection_of_find (by simp [← hdocument, sectionFields, textField, sectionKey])
      fun e _ acc => readFlow_fields acc e
  have hschemas : readSchemas document = .read m.schemas [] :=
    readSection_of_find (by simp [← hdocument, sectionFields, textField, sectionKey])
      fun e he acc => readSchema_fields acc (h.schemas e he).1 (h.schemas e he).2
  simp only [readModel, hid, hname, hdescription, haudiences, hstreams, hinterfaces, hreadModels,
    hevents, hcommands, hflows, hplacements, hschemas, lift_ok, read_nil_bind]
  rw [read_bind, pure_eq, after, List.append_nil]

theorem readModel_sectionFields {m : Model} (h : m.WellFormed) (location : String) :
    readModel ⟨sectionFields m, location⟩ = .read m [] := by
  have hrest : { m with placements := ∅ }.WellFormed := { h with placements := nofun }
  refine readModel_of_placements hrest ?_
  exact readSection_of_find (by simp [sectionFields, textField, sectionKey])
    fun e he acc => readPlacement_fields acc (h.placements e he).1 (h.placements e he).2

theorem ofJson_supported (fields : List (String × Json)) :
    ofJson (.object [("spec-version", .string supportedVersion), ("event-model", .object fields)])
      = readModel ⟨fields, "event-model"⟩ := by
  have hversion : checkVersion
      [("spec-version", .string supportedVersion), ("event-model", .object fields)]
      = .read () [] := by
    simp [checkVersion, isSupported_supportedVersion, pure_eq]
  have hfields : modelFields
      [("spec-version", .string supportedVersion), ("event-model", .object fields)]
      = .ok ⟨fields, "event-model"⟩ := by
    simp [modelFields]
  simp only [ofJson, hversion, hfields, lift_ok, read_nil_bind]

/-- A document that tells no version is read like one of the supported version, with a warning. -/
theorem ofJson_unversioned (fields : List (String × Json)) :
    ofJson (.object [("event-model", .object fields)]) =
      (readModel ⟨fields, "event-model"⟩).after
        [warning ("no spec-version declared, assuming " ++ supportedVersion) "spec-version"] := by
  have hversion : checkVersion [("event-model", .object fields)] =
      warn ("no spec-version declared, assuming " ++ supportedVersion) "spec-version" := by
    simp [checkVersion]
  have hfields : modelFields [("event-model", .object fields)] =
      .ok ⟨fields, "event-model"⟩ := by
    simp [modelFields]
  simp only [ofJson, hversion, hfields, lift_ok, read_nil_bind]
  rw [warn, read_bind]

/-- A model that is well-formed but for its placements is that of a document that is accepted when
these are read back. -/
theorem accepted_of_placements {m : Model} {ws : List Diagnostic}
    (h : { m with placements := ∅ }.WellFormed)
    (hplacements : readPlacements ⟨sectionFields m, "event-model"⟩ = .read m.placements ws) :
    Accepted m ws :=
  .json (printModel m) <|
    (ofJson_supported (sectionFields m)).trans (readModel_of_placements h hplacements)

/-- A well-formed model is that of some document that is accepted without a warning. -/
theorem accepted_of_wellFormed {m : Model} (h : m.WellFormed) : Accepted m [] :=
  .json (printModel m) <|
    (ofJson_supported (sectionFields m)).trans (readModel_sectionFields h "event-model")

/-- The canonical document of a well-formed model is read as exactly that model, every collection in
its order, and no warning is raised. -/
theorem ofJson_printModel {m : Model} (h : m.WellFormed) : ofJson (printModel m) = .read m [] :=
  (ofJson_supported (sectionFields m)).trans (readModel_sectionFields h "event-model")

/-- A type with nested objects, enums and maps, which refers to itself. -/
def orderType : TypeTree :=
  .object ⟨"Order", some (Dict.ofList [("min", "1"), ("max", "9")])⟩
    [("id", .scalar ⟨"Order", none⟩ .uuid),
      ("lines", .wrapper ⟨"Order", some ∅⟩ .vector
        (.object ⟨nameFor "Order" .object, none⟩
          [("code", .pattern ⟨nameFor "Order" .object, none⟩ "[A-Z]+/[0-9]+"),
            ("state", .enumeration ⟨nameFor (nameFor "Order" .object) .enum, none⟩
              ["open", "closed"])])),
      ("prices", .mapOf ⟨"Order", none⟩
        (.wrapper ⟨nameFor "Order" .key, none⟩ .maybe
          (.scalar ⟨nameFor "Order" .key, none⟩ .qualifiedKeyword))
        (.combined ⟨nameFor "Order" .value, none⟩ .or
          [.scalar ⟨nameFor "Order" .value, none⟩ .int,
            .wrapper ⟨nameFor "Order" .value, none⟩ .not
              (.scalar ⟨nameFor "Order" .value, none⟩ .nil)])),
      ("previous", .reference ⟨"Order", none⟩ (.uniform 9))]

/-- A model with an entry in each of its sections. -/
def orderModel : Model where
  id := .uniform 1
  name := "Shop"
  description := some ""
  audiences := [⟨.uniform 2, "Customers"⟩]
  streams := [⟨.uniform 3, "Orders"⟩]
  interfaces := Dict.ofList
    [(.uniform 4, ⟨.uniform 4, "Cart", none, .figma (some "files/cart"),
      Dict.ofList [(.uniform 5, ⟨.uniform 5, .post, "Submit"⟩)]⟩)]
  commands := Dict.ofList [(.uniform 6, ⟨.uniform 6, "Place order", some "From the cart", none⟩)]
  events := Dict.ofList [(.uniform 7, ⟨.uniform 7, "Order placed", none, some (.uniform 9)⟩)]
  readModels := Dict.ofList [(.uniform 8, ⟨.uniform 8, "Open orders", none, some (.uniform 9)⟩)]
  flows := Dict.ofList [(.uniform 14, ⟨.uniform 11, .uniform 12⟩),
    (.uniform 15, ⟨.uniform 12, .uniform 13⟩)]
  placements := Dict.ofList
    [(.uniform 10, ⟨.uniform 10, 0, .interface, .uniform 4, .audience, some (.uniform 2)⟩),
      (.uniform 11, ⟨.uniform 11, 1, .command, .uniform 6, .timeline, none⟩),
      (.uniform 12, ⟨.uniform 12, -2, .event, .uniform 7, .stream, some (.uniform 3)⟩),
      (.uniform 13, ⟨.uniform 13, 3, .readModel, .uniform 8, .timeline, none⟩)]
  schemas := Dict.ofList
    [(.uniform 9, ⟨.uniform 9, "Order", "com/shop", some "What was ordered", orderType⟩)]

theorem ofJson_printModel_orderModel :
    orderModel.WellFormed ∧ ofJson (printModel orderModel) = .read orderModel [] := by
  have hwell : orderModel.WellFormed := by decide
  exact ⟨hwell, ofJson_printModel hwell⟩

end EventForge.Document
