import EventForge.Proofs.Document.Fields
import EventForge.Proofs.Document.NodeReading
import EventForge.Proofs.Document.NoteChoice
import EventForge.Proofs.Document.Places
import EventForge.Proofs.Document.Sections
import EventForge.Proofs.Document.Skips
import Mathlib.Data.List.ReduceOption

/-!
# Reading a section entry by entry

Each entry of a section leads to one entity, or to one warning that it is skipped. So the entities
and the skipped entries of a section are as many as its entries, unless two entities are entered
under one identifier (`entries_accounted`).
-/

namespace EventForge.Document

open Reading

/-- The placement names a note. -/
def namesNote : Json → Bool
  | .object placement => (noteChoice placement).isSome
  | _ => false

/-- The element is of a known type. -/
def hasKnownType : Json → Bool
  | .object element =>
    match find? element "element/type" with
    | some (.string tag) => (ElementKind.ofTag? (lastSegment tag)).isSome
    | _ => false
  | _ => false

/-- The entry is not skipped for what it says. -/
def Section.keeps : Section → Json → Bool
  | placements, value => namesNote value
  | _, _ => true

/-- The identifiers under which those of some members are kept that pass a check. -/
def keptIds (keeps : Json → Bool) (members : List (String × Json)) : List (Option Uuid) :=
  (members.filter fun e => keeps e.2).map fun e => Uuid.ofText? e.1

/-- How many warnings say that an entry at one of these places is skipped. -/
def skipsAt (places : List String) (ws : List Diagnostic) : Nat :=
  (skipPlaces ws).countP fun place => place ∈ places

theorem skipsAt_eq_length {places : List String} {ws : List Diagnostic}
    (h : ∀ place ∈ skipPlaces ws, place ∈ places) : skipsAt places ws = (skipPlaces ws).length :=
  List.countP_eq_length.2 fun place hplace => decide_eq_true (h place hplace)

theorem skipsAt_eq_zero {places : List String} {ws : List Diagnostic}
    (h : ∀ place ∈ skipPlaces ws, place ∉ places) : skipsAt places ws = 0 :=
  List.countP_eq_zero.2 fun place hplace => by simpa using h place hplace

/-- A section of which so many entities were read: all entries are accounted for when no identifier
is repeated, and only entries of the section are skipped. -/
structure SectionRead (s : Section) (fields : List (String × Json)) (size : Nat)
    (ws : List Diagnostic) : Prop where
  count : size + skipsAt (s.places fields) ws = (s.places fields).length ↔
    (keptIds s.keeps (membersOf fields s.member)).Nodup
  word : ∀ place ∈ skipPlaces ws, firstWord place = s.text.toList

theorem SectionRead.of_places {s : Section} {fields : List (String × Json)} {size : Nat}
    {ws : List Diagnostic} (hplaces : ∀ place ∈ skipPlaces ws, place ∈ s.places fields)
    (hcount : size + (skipPlaces ws).length = (s.places fields).length ↔
      (keptIds s.keeps (membersOf fields s.member)).Nodup) : SectionRead s fields size ws where
  count := by rwa [skipsAt_eq_length hplaces]
  word place hplace := firstWord_of_mem_places (hplaces place hplace)

theorem forall_skipPlaces {α γ : Type} {R : α → γ × List Diagnostic → Prop} {P : String → Prop}
    {xs : List α} {ys : List (γ × List Diagnostic)} (h : List.Forall₂ R xs ys)
    (hplaces : ∀ x ∈ xs, ∀ y, R x y → ∀ place ∈ skipPlaces y.2, P place) :
    ∀ place ∈ skipPlaces (ys.flatMap Prod.snd), P place := by
  induction h with
  | nil => simp
  | cons hxy _ ih =>
    rw [List.flatMap_cons, skipPlaces_append, List.forall_mem_append]
    exact ⟨hplaces _ (by simp) _ hxy, ih fun x hx => hplaces x (by simp [hx])⟩

/-- Of the skipped places of many steps, those that `p` picks are the ones of a single step. -/
theorem countP_skipPlaces {α γ δ : Type} {R : α → γ × List Diagnostic → Prop} {p : String → Bool}
    {id : α → δ} {x : α} {xs : List α} {ys : List (γ × List Diagnostic)} (h : List.Forall₂ R xs ys)
    (hx : x ∈ xs) (hids : (xs.map id).Nodup)
    (hown : ∀ y, R x y → ∀ place ∈ skipPlaces y.2, p place = true)
    (hother : ∀ x' ∈ xs, id x' ≠ id x → ∀ y, R x' y → ∀ place ∈ skipPlaces y.2, ¬p place = true) :
    ∃ y ∈ ys, R x y ∧ (skipPlaces (ys.flatMap Prod.snd)).countP p = (skipPlaces y.2).length := by
  -- the step of `x` comes once: before and after it nothing is picked
  induction h with
  | nil => cases hx
  | @cons x' y' xs ys hxy hrest ih =>
    rw [List.map_cons, List.nodup_cons] at hids
    rw [List.flatMap_cons, skipPlaces_append, List.countP_append]
    rcases List.mem_cons.1 hx with rfl | hx
    · refine ⟨y', by simp, hxy, ?_⟩
      have hnone : (skipPlaces (ys.flatMap Prod.snd)).countP p = 0 :=
        List.countP_eq_zero.2 <| forall_skipPlaces hrest fun x' hx' =>
          hother x' (by simp [hx']) fun heq => hids.1 (heq ▸ List.mem_map_of_mem hx')
      rw [List.countP_eq_length.2 (hown y' hxy), hnone, Nat.add_zero]
    · obtain ⟨y, hy, hxy', hcount⟩ := ih hx hids.2 fun x' hx' => hother x' (by simp [hx'])
      have hne : id x' ≠ id x := fun heq => hids.1 (heq ▸ List.mem_map_of_mem hx)
      refine ⟨y, by simp [hy], hxy', ?_⟩
      rw [List.countP_eq_zero.2 (hother x' (by simp) hne y' hxy), Nat.zero_add, hcount]

theorem skipPlaces_flatMap {α γ : Type} {f : α → List String} {xs : List α}
    {ys : List (γ × List Diagnostic)} (h : List.Forall₂ (fun x y => skipPlaces y.2 = f x) xs ys) :
    skipPlaces (ys.flatMap Prod.snd) = xs.flatMap f := by
  induction h with
  | nil => rfl
  | cons hxy _ ih => rw [List.flatMap_cons, skipPlaces_append, hxy, ih, List.flatMap_cons]

theorem flatMap_skipped {α : Type} (p : α → Bool) (place : α → String) (xs : List α) :
    (xs.flatMap fun x => if p x then [] else [place x]) = (xs.filter fun x => !p x).map place := by
  induction xs with
  | nil => rfl
  | cons x xs ih => cases hx : p x <;> simp [hx, ih]

section Members

variable {ν : Type} {keeps : Json → Bool} {members : List (String × Json)}

/-- Enters an entity, if there is one, under its key. -/
def enter (d : Dict Uuid ν) : Option (Uuid × ν) → Dict Uuid ν
  | none => d
  | some e => d.insert e.1 e.2

/-- What is entered for a member: an entity under its identifier when the member is kept. -/
def Entered (keeps : Json → Bool) (member : String × Json) (entity : Option (Uuid × ν)) : Prop :=
  ∃ key, Uuid.ofText? member.1 = some key ∧
    entity.map Prod.fst = if keeps member.2 then some key else none

theorem keptIds_of_all (h : ∀ value, keeps value = true) :
    keptIds keeps members = members.map fun e => Uuid.ofText? e.1 := by
  rw [keptIds, List.filter_eq_self.2 fun e _ => h e.2]

theorem foldl_enter (ys : List (Option (Uuid × ν))) :
    ys.foldl enter ∅ = Dict.ofList ys.reduceOption := by
  suffices hgen : ∀ d : Dict Uuid ν,
      ys.foldl enter d = ys.reduceOption.foldl (fun d e => d.insert e.1 e.2) d from hgen ∅
  induction ys with
  | nil => exact fun d => rfl
  | cons y ys ih =>
    intro d
    cases y with
    | none => rw [List.foldl_cons, List.reduceOption_cons_of_none, ih]; rfl
    | some e => rw [List.foldl_cons, List.reduceOption_cons_of_some, List.foldl_cons, ih]; rfl

theorem keptIds_eq {ys : List (Option (Uuid × ν))} (h : List.Forall₂ (Entered keeps) members ys) :
    keptIds keeps members = (ys.reduceOption.map Prod.fst).map some := by
  induction h with
  | nil => rfl
  | @cons member y members ys hy _ ih =>
    obtain ⟨key, hkey, hentity⟩ := hy
    rw [keptIds] at ih ⊢
    cases y with
    | none =>
      have hskip : keeps member.2 = false := by
        cases hkeeps : keeps member.2 with
        | false => rfl
        | true => simp [hkeeps] at hentity
      rw [List.filter_cons_of_neg (by simp [hskip]), ih, List.reduceOption_cons_of_none]
    | some e =>
      have hkeep : keeps member.2 = true ∧ e.1 = key := by
        cases hkeeps : keeps member.2 with
        | false => simp [hkeeps] at hentity
        | true => simpa [hkeeps] using hentity
      rw [List.filter_cons_of_pos (by simp [hkeep.1]), List.map_cons, ih, hkey,
        List.reduceOption_cons_of_some, List.map_cons, List.map_cons, hkeep.2]

/-- As many entities are entered as members are kept when no identifier is repeated. -/
theorem size_entered_iff {ys : List (Option (Uuid × ν))}
    (h : List.Forall₂ (Entered keeps) members ys) :
    (ys.foldl enter ∅).size = (keptIds keeps members).length ↔ (keptIds keeps members).Nodup := by
  rw [foldl_enter, keptIds_eq h, List.nodup_map_iff fun _ _ => Option.some.inj, List.length_map,
    List.length_map]
  exact Dict.size_ofList_eq_iff

/-- One member is entered, or skipped with a warning. -/
def Enters (parent : String) (keeps : Json → Bool)
    (step : Dict Uuid ν → String × Json → Reading (Dict Uuid ν)) : Prop :=
  ∀ d member next new, step d member = .read next new →
    ∃ entity, (Entered keeps member entity ∧
      skipPlaces new = if keeps member.2 then [] else [parent ++ "." ++ member.1]) ∧
        next = enter d entity

/-- Members that are read one by one are all accounted for when no identifier is repeated. -/
theorem members_accounted {parent : String}
    {step : Dict Uuid ν → String × Json → Reading (Dict Uuid ν)} {d : Dict Uuid ν}
    {ws : List Diagnostic} (hstep : Enters parent keeps step)
    (h : members.foldlM step ∅ = .read d ws) :
    (d.size + (skipPlaces ws).length = members.length ↔ (keptIds keeps members).Nodup) ∧
      ∀ place ∈ skipPlaces ws, place ∈ members.map fun e => parent ++ "." ++ e.1 := by
  obtain ⟨ys, hys, rfl, rfl⟩ := foldlM_eq_read h hstep
  have hentered : List.Forall₂ (Entered keeps) members (ys.map Prod.fst) :=
    List.forall₂_map_right_iff.2 (hys.imp fun _ _ hy => hy.1)
  have hskips : skipPlaces (ys.flatMap Prod.snd)
      = (members.filter fun e => !keeps e.2).map fun e => parent ++ "." ++ e.1 := by
    rw [skipPlaces_flatMap (hys.imp fun _ _ hy => hy.2), flatMap_skipped]
  refine ⟨?_, ?_⟩
  · rw [← size_entered_iff hentered, hskips, keptIds, List.length_map, List.length_map]
    have hparts := List.length_eq_length_filter_add (l := members) fun e => keeps e.2
    constructor <;> intro heq <;> omega
  · intro place hplace
    rw [hskips] at hplace
    exact List.map_subset _ (List.filter_subset_self _) hplace

end Members

section KeyedSections

variable {β : Type} {s : Section} {fields : List (String × Json)} {location : String}
  {ws : List Diagnostic}

/-- Reads a member of a section as an entry of it. -/
def readMember (parent : String) (step : β → Keyed → Reading β) (acc : β) (member : String × Json) :
    Reading β := do
  let entry ← readKeyed parent member
  step acc entry

theorem foldlM_readMember {parent : String} {members : List (String × Json)} {entries : List Keyed}
    (h : List.Forall₂ (fun e entry => readKeyed parent e = .ok entry) members entries)
    (step : β → Keyed → Reading β) (start : β) :
    entries.foldlM step start = members.foldlM (readMember parent step) start := by
  induction h generalizing start with
  | nil => rfl
  | cons hentry _ ih =>
    rw [List.foldlM_cons, List.foldlM_cons, readMember, hentry, lift_ok, read_nil_bind]
    exact congrArg _ (funext ih)

/-- The places of a keyed section are those of its members. -/
theorem places_of_keyedSection {entries : List Keyed}
    (h : keyedSection ⟨fields, location⟩ s.text = .ok entries) :
    s.places fields = (membersOf fields s.member).map fun e => s.text ++ "." ++ e.1 := by
  have hmember : sectionKey s.text = s.member := rfl
  rw [keyedSection, Fields.object?, Fields.value?, hmember] at h
  rw [Section.places, membersOf]
  dsimp only at h
  cases hfind : find? fields s.member with
  | none => rfl
  | some json =>
    rw [hfind] at h
    cases json with
    | null => rfl
    | object members => rfl
    | _ => cases h

/-- An accepted keyed section is read member by member. -/
theorem readEntries_eq_read {step : β → Keyed → Reading β} {start result : β}
    (h : readEntries s step start ⟨fields, location⟩ = .read result ws) :
    (membersOf fields s.member).foldlM (readMember s.text step) start = .read result ws ∧
      s.places fields = (membersOf fields s.member).map fun e => s.text ++ "." ++ e.1 := by
  obtain ⟨entries, hentries, hfold⟩ := lift_bind_eq_read_iff.1 h
  refine ⟨?_, places_of_keyedSection hentries⟩
  rwa [← foldlM_readMember (keyedSection_eq_ok hentries) step start]

/-- Reading one entry of a section enters an entity, or warns that it is skipped. -/
def EntersKeyed {ν : Type} (keeps : Json → Bool)
    (step : Dict Uuid ν → Keyed → Reading (Dict Uuid ν)) : Prop :=
  ∀ d entry next new, step d entry = .read next new →
    (keeps entry.value = true ∧ (∃ v, next = d.insert entry.key v) ∧ skipPlaces new = []) ∨
      (keeps entry.value = false ∧ next = d ∧ skipPlaces new = [entry.location])

theorem EntersKeyed.enters {ν : Type} {keeps : Json → Bool}
    {step : Dict Uuid ν → Keyed → Reading (Dict Uuid ν)} (h : EntersKeyed keeps step)
    (parent : String) : Enters parent keeps (readMember parent step) := by
  intro d member next new hread
  obtain ⟨entry, hentry, hread⟩ := lift_bind_eq_read_iff.1 hread
  obtain ⟨hkey, hvalue, hlocation⟩ := readKeyed_eq_ok hentry
  rcases h d entry next new hread with ⟨hkeeps, ⟨v, rfl⟩, hnew⟩ | ⟨hkeeps, rfl, hnew⟩
  · rw [hvalue] at hkeeps
    exact ⟨some (entry.key, v), ⟨⟨entry.key, hkey, by rw [hkeeps]; rfl⟩, by rw [hkeeps, hnew]; rfl⟩,
      rfl⟩
  · rw [hvalue] at hkeeps
    refine ⟨none, ⟨⟨entry.key, hkey, by rw [hkeeps]; rfl⟩, ?_⟩, rfl⟩
    rw [hkeeps, hnew, hlocation]
    rfl

/-- The entries of a keyed section are all accounted for when no identifier is repeated. -/
theorem entries_accounted {ν : Type} {step : Dict Uuid ν → Keyed → Reading (Dict Uuid ν)}
    {d : Dict Uuid ν} (hstep : EntersKeyed s.keeps step)
    (h : readEntries s step ∅ ⟨fields, location⟩ = .read d ws) :
    SectionRead s fields d.size ws := by
  obtain ⟨hmembers, hplaces⟩ := readEntries_eq_read h
  obtain ⟨hcount, hskipped⟩ := members_accounted (hstep.enters s.text) hmembers
  rw [← hplaces] at hskipped
  refine .of_places hskipped ?_
  rwa [hplaces, List.length_map]

end KeyedSections

section ListSections

variable {γ : Type} {s : Section} {fields : List (String × Json)} {location : String}
  {ws : List Diagnostic}

/-- The place of an item of an array section. -/
def itemPlace (s : Section) (position : Nat) : String :=
  s.text ++ "[" ++ Text.decimal position ++ "]"

/-- Reading one item adds an entity, or warns that the item is skipped. -/
def AddsItem (s : Section) (step : List γ → Json × Nat → Reading (List γ)) : Prop :=
  ∀ read item next new, step read item = .read next new →
    ∃ entity : Option γ,
      skipPlaces new = (if entity.isSome then [] else [itemPlace s item.2]) ∧
        next = read ++ entity.toList

theorem length_added {start : List γ} {items : List (Json × Nat)}
    {ys : List (Option γ × List Diagnostic)}
    (h : List.Forall₂ (fun item y =>
      skipPlaces y.2 = if y.1.isSome then [] else [itemPlace s item.2]) items ys) :
    ((ys.map Prod.fst).foldl (fun read entity => read ++ entity.toList) start).length
        + (skipPlaces (ys.flatMap Prod.snd)).length = start.length + items.length := by
  induction h generalizing start with
  | nil => simp
  | @cons item y items ys hy _ ih =>
    obtain ⟨entity, new⟩ := y
    rw [List.map_cons, List.foldl_cons, List.flatMap_cons, skipPlaces_append, List.length_append,
      Nat.add_left_comm, ih, hy]
    cases entity <;> simp <;> omega

/-- An array section has no members, and the places of its items are numbered. -/
theorem listSection_eq_ok {items : List Json}
    (h : listSection ⟨fields, location⟩ s.text = .ok items) :
    membersOf fields s.member = [] ∧
      s.places fields = (List.range items.length).map (itemPlace s) := by
  have hmember : sectionKey s.text = s.member := rfl
  rw [listSection, Fields.array?, Fields.value?, hmember] at h
  rw [membersOf, Section.places]
  dsimp only at h
  cases hfind : find? fields s.member with
  | none =>
    rw [hfind] at h
    cases h
    exact ⟨rfl, rfl⟩
  | some json =>
    rw [hfind] at h
    cases json with
    | null =>
      cases h
      exact ⟨rfl, rfl⟩
    | array items' =>
      cases h
      exact ⟨rfl, rfl⟩
    | _ => cases h

/-- The items of an array section are all accounted for. -/
theorem items_accounted {step : List γ → Json × Nat → Reading (List γ)} {result : List γ}
    (hstep : AddsItem s step) (h : readItems s step [] ⟨fields, location⟩ = .read result ws) :
    SectionRead s fields result.length ws := by
  obtain ⟨items, hitems, hfold⟩ := lift_bind_eq_read_iff.1 h
  obtain ⟨hmembers, hplaces⟩ := listSection_eq_ok hitems
  obtain ⟨ys, hys, rfl, rfl⟩ := foldlM_eq_read hfold hstep
  refine .of_places ?_ ?_
  · rw [hplaces]
    refine forall_skipPlaces hys fun item hitem y hy place hplace => ?_
    rw [hy] at hplace
    split at hplace
    · cases hplace
    · rw [List.mem_singleton.1 hplace]
      exact List.mem_map_of_mem (List.mem_range.2 (by
        have := List.snd_lt_of_mem_zipIdx hitem
        omega))
  · have hlength := @length_added γ s [] _ _ hys
    rw [hmembers, hplaces, List.length_map, List.length_range]
    simpa [keptIds] using hlength

end ListSections

section Steps

variable {ν : Type} {step : Dict Uuid ν → Keyed → Reading (Dict Uuid ν)} {keeps : Json → Bool}

theorem EntersKeyed.of_quiet (hkeeps : ∀ value, keeps value = true)
    (hquiet : ∀ d entry, Quiet (step d entry))
    (hinsert : ∀ d entry next new, step d entry = .read next new →
      ∃ v, next = d.insert entry.key v) : EntersKeyed keeps step := by
  intro d entry next new hread
  exact .inl ⟨hkeeps _, hinsert d entry next new hread, hquiet d entry next new hread⟩

/-- The end of reading an item: a repeated one is skipped. -/
theorem adds_unless_repeated {γ : Type} {s : Section} {read next : List γ} {item : γ} {position : Nat}
    {message : String} {new : List Diagnostic} {repeated : Prop} [Decidable repeated]
    (h : (if repeated then do
        Reading.warn (message ++ ", skipped") (itemPlace s position)
        return read
      else return read ++ [item]) = .read next new) :
    ∃ entity : Option γ, skipPlaces new = (if entity.isSome then [] else [itemPlace s position]) ∧
      next = read ++ entity.toList := by
  split at h
  · obtain ⟨ws, hpure, rfl⟩ := warn_bind_eq_read_iff.1 h
    obtain ⟨rfl, rfl⟩ := pure_eq_read_iff.1 hpure
    refine ⟨none, ?_, by simp⟩
    rw [skipPlaces_warning]
    exact if_pos (skipMessage_of_end (by decide))
  · obtain ⟨rfl, rfl⟩ := pure_eq_read_iff.1 h
    exact ⟨some item, rfl, rfl⟩

/-- The place of an item starts with the name of its section, which is the plural of its word. -/
theorem addsItem_readListed {α : Type} {s : Section} {word : String} (hs : s.text = word ++ "s")
    (make : Uuid → String → α) (idOf : α → Uuid) :
    AddsItem s (readListed word make idOf) := by
  intro read item next new h
  rw [readListed, ← hs] at h
  obtain ⟨o, -, h⟩ := lift_bind_eq_read_iff.1 h
  obtain ⟨id, -, h⟩ := lift_bind_eq_read_iff.1 h
  obtain ⟨name, -, h⟩ := lift_bind_eq_read_iff.1 h
  exact adds_unless_repeated h

theorem entersKeyed_readNote (kind : NoteKind) (hkeeps : ∀ value, keeps value = true) :
    EntersKeyed keeps (readNote kind) := by
  refine .of_quiet hkeeps (quiet_readNote kind) ?_
  intro notes entry next new h
  rw [readNote] at h
  obtain ⟨o, -, h⟩ := lift_bind_eq_read_iff.1 h
  obtain ⟨id, -, h⟩ := lift_bind_eq_read_iff.1 h
  obtain ⟨_, _, _, -, h, -⟩ := bind_eq_read_iff.1 h
  obtain ⟨schemaId, _, _, -, h, -⟩ := bind_eq_read_iff.1 h
  obtain ⟨name, -, h⟩ := lift_bind_eq_read_iff.1 h
  obtain ⟨description, -, h⟩ := lift_bind_eq_read_iff.1 h
  exact ⟨_, (pure_eq_read_iff.1 h).1.symm⟩

theorem entersKeyed_readFlow (hkeeps : ∀ value, keeps value = true) :
    EntersKeyed keeps readFlow := by
  refine .of_quiet hkeeps quiet_readFlow ?_
  intro flows entry next new h
  rw [readFlow] at h
  obtain ⟨o, -, h⟩ := lift_bind_eq_read_iff.1 h
  obtain ⟨source, -, h⟩ := lift_bind_eq_read_iff.1 h
  obtain ⟨target, -, h⟩ := lift_bind_eq_read_iff.1 h
  exact ⟨_, (pure_eq_read_iff.1 h).1.symm⟩

theorem entersKeyed_readSchema (hkeeps : ∀ value, keeps value = true) :
    EntersKeyed keeps readSchema := by
  refine .of_quiet hkeeps quiet_readSchema ?_
  intro schemas entry next new h
  obtain ⟨s, -, hinsert⟩ := readSchema_eq_read h
  exact ⟨s, hinsert⟩

theorem skipMessage_severalNotes :
    ∀ kind : NoteKind,
      skipMessage ("placement references several notes, using the " ++ kind.text) = false := by
  intro kind
  cases kind <;> decide +kernel

theorem entersKeyed_readPlacement : EntersKeyed namesNote readPlacement := by
  intro placements entry next new h
  obtain ⟨key, value, location⟩ := entry
  cases value with
  | object fields =>
    rw [readPlacement_object] at h
    obtain ⟨id, -, h⟩ := lift_bind_eq_read_iff.1 h
    obtain ⟨_, kw, later, hkey, hchosen, rfl⟩ := bind_eq_read_iff.1 h
    rw [skipPlaces_append, quiet_checkKey _ _ _ _ _ hkey, List.nil_append]
    simp only [namesNote]
    cases hchoice : noteChoice fields with
    | none =>
      rw [hchoice] at hchosen
      obtain ⟨ws, hpure, rfl⟩ := warn_bind_eq_read_iff.1 hchosen
      obtain ⟨rfl, rfl⟩ := pure_eq_read_iff.1 hpure
      exact .inr ⟨rfl, rfl, by rw [skipPlaces_warning, if_pos (by decide)]⟩
    | some choice =>
      obtain ⟨kind, only⟩ := choice
      rw [hchoice] at hchosen
      cases only with
      | true =>
        obtain ⟨hinsert, rfl⟩ := placeNote_eq_read hchosen
        exact .inl ⟨rfl, hinsert, rfl⟩
      | false =>
        obtain ⟨ws, hplace, rfl⟩ := warn_bind_eq_read_iff.1 hchosen
        obtain ⟨hinsert, rfl⟩ := placeNote_eq_read hplace
        refine .inl ⟨rfl, hinsert, ?_⟩
        rw [skipPlaces_warning, skipMessage_severalNotes]
        rfl
  | _ => cases h

theorem enters_readElement (parent : String) :
    Enters parent hasKnownType (readElement parent) := by
  intro elements member next new h
  rw [readElement] at h
  obtain ⟨⟨key, value, location⟩, hentry, h⟩ := lift_bind_eq_read_iff.1 h
  obtain ⟨hkey, hvalue, hlocation⟩ := readKeyed_eq_ok hentry
  obtain ⟨o, ho, h⟩ := lift_bind_eq_read_iff.1 h
  obtain ⟨id, -, h⟩ := lift_bind_eq_read_iff.1 h
  obtain ⟨_, kw, later, hcheck, h', rfl⟩ := bind_eq_read_iff.1 h
  obtain ⟨tag, htag, h'⟩ := lift_bind_eq_read_iff.1 h'
  have hknown : hasKnownType member.2 = (ElementKind.ofTag? (lastSegment tag)).isSome := by
    rw [← hvalue, (Fields.ofJson_eq_ok_iff.1 ho).1, hasKnownType, Fields.text_eq_ok_iff.1 htag]
  rw [skipPlaces_append, quiet_checkKey _ _ _ _ _ hcheck, List.nil_append, hknown]
  cases hkind : ElementKind.ofTag? (lastSegment tag) with
  | none =>
    rw [hkind] at h'
    obtain ⟨ws, hpure, rfl⟩ := warn_bind_eq_read_iff.1 h'
    obtain ⟨rfl, rfl⟩ := pure_eq_read_iff.1 hpure
    refine ⟨none, ⟨⟨key, hkey, by rw [hknown, hkind]; rfl⟩, ?_⟩, rfl⟩
    rw [skipPlaces_warning, ← hlocation]
    exact if_pos (skipMessage_of_end (by decide))
  | some kind =>
    rw [hkind] at h'
    obtain ⟨name, -, hpure⟩ := lift_bind_eq_read_iff.1 h'
    obtain ⟨rfl, rfl⟩ := pure_eq_read_iff.1 hpure
    exact ⟨some (key, ⟨id, kind, name⟩), ⟨⟨key, hkey, by rw [hknown, hkind]; rfl⟩, rfl⟩, rfl⟩

end Steps

end EventForge.Document
