import EventForge.Proofs.Document.Entities
import EventForge.Proofs.Document.Reading

/-!
# Readings of two documents

The reading of a document is compared with that of an edited one, step by step. The edited document
is refused only when the first one is; it is read with the same result (`Follows false`), or the
first one is refused or has more warnings (`Follows true`).
-/

namespace EventForge.Document

open Reading

variable {α β : Type}

/-- What an accepted reading gives. -/
def Reading.accepted? : Reading α → Option (α × List Diagnostic)
  | refused _ => none
  | read a ws => some (a, ws)

theorem accepted?_eq_none_iff {x : Reading α} : x.accepted? = none ↔ ∀ a ws, x ≠ read a ws := by
  cases x <;> simp [Reading.accepted?]

/-- A step that is refused whatever was read before refuses the whole. -/
theorem accepted?_bind_eq_none {x : Reading α} {f : α → Reading β}
    (h : ∀ a, (f a).accepted? = none) : (x >>= f).accepted? = none := by
  rw [accepted?_eq_none_iff]
  intro b ws hread
  obtain ⟨a, _, vs, -, hf, -⟩ := bind_eq_read_iff.1 hread
  exact accepted?_eq_none_iff.1 (h a) b vs hf

/-- The reading `y` follows `x`: it is refused only if `x` is, and when it is not, `x` has the same
result or, if `fewer`, the same value with more warnings unless it is refused. -/
structure Follows (fewer : Bool) (x y : Reading α) : Prop where
  refused : y.accepted? = none → x.accepted? = none
  same : fewer = false → ∀ a ws, y = read a ws → x = read a ws
  more : fewer = true → ∀ a ws, y = read a ws → ∀ b vs, x = read b vs →
    b = a ∧ ws.length < vs.length

namespace Follows

variable {s t : Bool} {x y : Reading α}

theorem refl (x : Reading α) : Follows false x x :=
  ⟨id, fun _ _ _ h => h, nofun⟩

theorem of_eq (h : y = x) : Follows false x y := h ▸ refl x

theorem of_refused (h : x.accepted? = none) : Follows true x y :=
  ⟨fun _ => h, nofun, fun _ _ _ _ b vs hx => absurd hx (accepted?_eq_none_iff.1 h b vs)⟩

/-- Whatever is accepted has the same value on both sides. -/
theorem value_eq (h : Follows s x y) {a b : α} {ws vs : List Diagnostic} (hy : y = read a ws)
    (hx : x = read b vs) : b = a := by
  cases s with
  | false => cases (h.same rfl a ws hy).symm.trans hx; rfl
  | true => exact (h.more rfl a ws hy b vs hx).1

theorem length_le (h : Follows s x y) {a b : α} {ws vs : List Diagnostic} (hy : y = read a ws)
    (hx : x = read b vs) : ws.length ≤ vs.length := by
  cases s with
  | false => cases (h.same rfl a ws hy).symm.trans hx; exact Nat.le_refl _
  | true => exact Nat.le_of_lt (h.more rfl a ws hy b vs hx).2

theorem bind {f g : α → Reading β} (h : Follows s x y) (hrest : ∀ a, Follows t (f a) (g a)) :
    Follows (s || t) (x >>= f) (y >>= g) where
  refused hnone := by
    rw [accepted?_eq_none_iff] at hnone ⊢
    intro c us hread
    obtain ⟨a, ws, vs, hx, hf, -⟩ := bind_eq_read_iff.1 hread
    cases y with
    | refused e =>
      exact absurd hx (accepted?_eq_none_iff.1 (h.refused rfl) a ws)
    | read b ws' =>
      obtain rfl := h.value_eq rfl hx
      cases hg : g a with
      | refused e =>
        have hf' := (hrest a).refused (by rw [hg]; rfl)
        exact accepted?_eq_none_iff.1 hf' c vs hf
      | read d us' => exact hnone d (ws' ++ us') (bind_eq_read_iff.2 ⟨a, ws', us', rfl, hg, rfl⟩)
  same hfewer c us hread := by
    rw [Bool.or_eq_false_iff] at hfewer
    obtain ⟨a, ws, vs, hy, hg, rfl⟩ := bind_eq_read_iff.1 hread
    exact bind_eq_read_iff.2
      ⟨a, ws, vs, h.same hfewer.1 a ws hy, (hrest a).same hfewer.2 c vs hg, rfl⟩
  more hfewer c us hread d us' hread' := by
    obtain ⟨a, ws, vs, hy, hg, rfl⟩ := bind_eq_read_iff.1 hread
    obtain ⟨a', ws', vs', hx, hf, rfl⟩ := bind_eq_read_iff.1 hread'
    obtain rfl := h.value_eq hy hx
    have hws := h.length_le hy hx
    have hvs := (hrest a').length_le hg hf
    refine ⟨(hrest a').value_eq hg hf, ?_⟩
    simp only [List.length_append]
    cases s with
    | true =>
      have := (h.more rfl _ _ hy _ _ hx).2
      omega
    | false =>
      have := ((hrest a').more hfewer _ _ hg _ _ hf).2
      omega

/-- A step that is the same on both sides. -/
theorem bind_left (x : Reading α) {f g : α → Reading β} (hrest : ∀ a, Follows t (f a) (g a)) :
    Follows t (x >>= f) (x >>= g) :=
  (refl x).bind hrest

/-- A warning that is raised on the first side only. -/
theorem warn_bind {message location : String} (h : Follows false x y) :
    Follows true (warn message location >>= fun _ => x) y where
  refused hnone := accepted?_bind_eq_none fun _ => h.refused hnone
  same := nofun
  more _ a ws hy b vs hread := by
    obtain ⟨_, _, vs, hwarn, hx, rfl⟩ := bind_eq_read_iff.1 hread
    obtain rfl := warn_eq_read_iff.1 hwarn
    cases (h.same rfl a ws hy).symm.trans hx
    exact ⟨rfl, by simp⟩

/-- Two folds that differ in the entry at one position. -/
theorem foldlM_modify {step : β → α → Reading β} {change : α → α} {fewer : α → Bool}
    {entries : List α} {index : Nat}
    (h : ∀ acc, ∀ e ∈ entries[index]?, Follows (fewer e) (step acc e) (step acc (change e)))
    (start : β) : Follows (entries[index]?.any fewer) (entries.foldlM step start)
      ((entries.modify index change).foldlM step start) := by
  induction entries generalizing index start with
  | nil => exact of_eq (by simp)
  | cons e entries ih =>
    cases index with
    | zero =>
      simp only [List.modify_zero_cons, List.foldlM_cons, List.getElem?_cons_zero, Option.any_some]
      have hfirst := h start e (by simp)
      simpa using hfirst.bind fun acc => refl (entries.foldlM step acc)
    | succ index =>
      simp only [List.modify_succ_cons, List.foldlM_cons, List.getElem?_cons_succ]
      exact bind_left _ fun acc => ih (fun acc e he => h acc e (by simpa using he)) acc

/-- The outcome is the same exactly when the second reading is refused or nothing is saved. -/
theorem accepted?_eq_iff (h : Follows s x y) :
    y.accepted? = x.accepted? ↔ y.accepted? = none ∨ s = false := by
  cases y with
  | refused e =>
    rw [h.refused rfl]
    simp [Reading.accepted?]
  | read a ws =>
    cases s with
    | false => simp [h.same rfl a ws rfl]
    | true =>
      simp only [Reading.accepted?, reduceCtorEq, or_self, iff_false]
      intro heq
      cases x with
      | refused e => cases heq
      | read b vs =>
        obtain ⟨rfl, hlt⟩ := h.more rfl a ws rfl b vs rfl
        cases heq
        omega

theorem refused_both (e e' : Fault) :
    Follows s (Reading.refused e : Reading α) (Reading.refused e') :=
  ⟨fun _ => rfl, nofun, nofun⟩

end Follows

section Sections

variable {edit : Json → Json} {fields : List (String × Json)} {index : Nat} {location : String}

/-- A keyed entry with its value changed. -/
def Keyed.editValue (edit : Json → Json) (e : Keyed) : Keyed := { e with value := edit e.value }

theorem mapM_modify {f : α → Except Fault β} {change : α → α} {change' : β → β}
    (h : ∀ a, f (change a) = (f a).map change') (xs : List α) (index : Nat) :
    (xs.modify index change).mapM f = (xs.mapM f).map fun ys => ys.modify index change' := by
  induction xs generalizing index with
  | nil => simp [Except.map, pure, Except.pure]
  | cons x xs ih =>
    cases index with
    | zero =>
      rw [List.modify_zero_cons, List.mapM_cons, List.mapM_cons, h]
      cases f x with
      | error e => rfl
      | ok y => cases xs.mapM f <;> rfl
    | succ index =>
      rw [List.modify_succ_cons, List.mapM_cons, List.mapM_cons, ih]
      cases f x with
      | error e => rfl
      | ok y => cases xs.mapM f <;> rfl

theorem readKeyed_edit (parent : String) (e : String × Json) :
    readKeyed parent (e.1, edit e.2) = (readKeyed parent e).map (Keyed.editValue edit) := by
  simp only [readKeyed]
  cases readId e.1 (parent ++ "." ++ e.1) <;> rfl

theorem listSection_edit (s : Section) :
    listSection ⟨editMember s.member (editEntry index edit) fields, location⟩ s.text
      = (listSection ⟨fields, location⟩ s.text).map fun items => items.modify index edit := by
  have hmember : sectionKey s.text = s.member := rfl
  simp only [listSection, Fields.array?, Fields.value?, hmember, find?_editMember, ↓reduceIte]
  cases find? fields s.member with
  | none => simp [Except.map]
  | some json => cases json <;> simp [editEntry, Except.map]

theorem keyedSection_edit (s : Section) :
    keyedSection ⟨editMember s.member (editEntry index edit) fields, location⟩ s.text
      = (keyedSection ⟨fields, location⟩ s.text).map fun entries =>
          entries.modify index (Keyed.editValue edit) := by
  have hmember : sectionKey s.text = s.member := rfl
  simp only [keyedSection, Fields.object?, Fields.value?, hmember, find?_editMember, ↓reduceIte]
  cases find? fields s.member with
  | none => simp [Except.map]
  | some json =>
    cases json with
    | object entries => exact mapM_modify (readKeyed_edit s.text) entries index
    | _ => simp [editEntry, Except.map]

/-- A keyed section whose entry at some position is edited, when the readings of the entry are as
`fewer` says of its value. -/
theorem follows_readEntries {s : Section} {step : β → Keyed → Reading β} {fewer : Json → Bool}
    (h : ∀ acc e, Follows (fewer e.value) (step acc e) (step acc (e.editValue edit))) (start : β) :
    Follows ((membersOf fields s.member)[index]?.any fun e => fewer e.2)
      (readEntries s step start ⟨fields, location⟩)
      (readEntries s step start ⟨editMember s.member (editEntry index edit) fields, location⟩) := by
  rw [readEntries, readEntries, keyedSection_edit]
  cases hentries : keyedSection ⟨fields, location⟩ s.text with
  | error e => exact .refused_both e e
  | ok entries =>
    have hvalues : (membersOf fields s.member).map Prod.snd = entries.map Keyed.value :=
      map_eq_map_of_forall₂ <|
        (keyedSection_eq_ok hentries).imp fun _ _ h => (readKeyed_eq_ok h).2.1.symm
    have hat : (membersOf fields s.member)[index]?.any (fun e => fewer e.2) =
        entries[index]?.any fun e => fewer e.value := by
      have hvalue := congrArg (fun values => (values[index]?).any fewer) hvalues
      simpa only [List.getElem?_map, Option.any_map] using hvalue
    simp only [hat, Except.map, lift_ok, read_nil_bind]
    exact .foldlM_modify (fun acc e _ => h acc e) start

theorem follows_readEntries_same {s : Section} {step : β → Keyed → Reading β}
    (h : ∀ acc e, Follows false (step acc e) (step acc (e.editValue edit))) (start : β) :
    Follows false (readEntries s step start ⟨fields, location⟩)
      (readEntries s step start ⟨editMember s.member (editEntry index edit) fields, location⟩) := by
  have hsection :=
    @follows_readEntries β edit fields index location s step (fun _ => false) h start
  simpa using hsection

theorem zipIdx_modify (items : List Json) (index start : Nat) :
    (items.modify index edit).zipIdx start
      = (items.zipIdx start).modify index fun item => (edit item.1, item.2) := by
  induction items generalizing index start with
  | nil => simp
  | cons item items ih =>
    cases index with
    | zero => simp
    | succ index => simp [ih]

/-- An array section whose item at some position is edited without effect. -/
theorem follows_readItems {s : Section} {step : β → Json × Nat → Reading β}
    (h : ∀ acc item position, step acc (edit item, position) = step acc (item, position))
    (start : β) :
    Follows false (readItems s step start ⟨fields, location⟩)
      (readItems s step start ⟨editMember s.member (editEntry index edit) fields, location⟩) := by
  rw [readItems, readItems, listSection_edit]
  cases listSection ⟨fields, location⟩ s.text with
  | error e => exact .refused_both e e
  | ok items =>
    simp only [Except.map, lift_ok, read_nil_bind, zipIdx_modify]
    have hfold : Follows (items.zipIdx[index]?.any fun _ => false) (items.zipIdx.foldlM step start)
        ((items.zipIdx.modify index fun item => (edit item.1, item.2)).foldlM step start) :=
      .foldlM_modify (fun acc item _ => .of_eq (h acc item.1 item.2)) start
    simpa using hfold

/-- How the readings of a section of two event-model objects compare. -/
def Section.Follows (d d' : Fields) (fewer : Bool) : Section → Prop
  | audiences => Document.Follows fewer (readAudiences d) (readAudiences d')
  | streams => Document.Follows fewer (readStreams d) (readStreams d')
  | interfaces => Document.Follows fewer (readInterfaces d) (readInterfaces d')
  | readModels => Document.Follows fewer (readNotes d .readModel) (readNotes d' .readModel)
  | events => Document.Follows fewer (readNotes d .event) (readNotes d' .event)
  | commands => Document.Follows fewer (readNotes d .command) (readNotes d' .command)
  | flows => Document.Follows fewer (readFlows d) (readFlows d')
  | placements => Document.Follows fewer (readPlacements d) (readPlacements d')
  | schemas => Document.Follows fewer (readSchemas d) (readSchemas d')

/-- A section is read from its own member of the event-model object only. -/
theorem Section.follows_of_find {d d' : Fields} {s : Section}
    (hfind : find? d'.fields s.member = find? d.fields s.member)
    (hlocation : d'.location = d.location) : s.Follows d d' false := by
  have hmember : sectionKey s.text = s.member := rfl
  have hlist : listSection d' s.text = listSection d s.text := by
    simp only [listSection, Fields.array?, Fields.value?, hmember, hfind, hlocation]
  have hkeyed : keyedSection d' s.text = keyedSection d s.text := by
    simp only [keyedSection, Fields.object?, Fields.value?, hmember, hfind, hlocation]
  have hentries {β : Type} (step : β → Keyed → Reading β) (start : β) :
      Document.Follows false (readEntries s step start d) (readEntries s step start d') :=
    .of_eq (by rw [readEntries, readEntries, hkeyed])
  have hitems {β : Type} (step : β → Json × Nat → Reading β) (start : β) :
      Document.Follows false (readItems s step start d) (readItems s step start d') :=
    .of_eq (by rw [readItems, readItems, hlist])
  cases s with
  | audiences => exact hitems readAudience []
  | streams => exact hitems readStream []
  | interfaces => exact hentries readInterface ∅
  | readModels => exact hentries (readNote .readModel) ∅
  | events => exact hentries (readNote .event) ∅
  | commands => exact hentries (readNote .command) ∅
  | flows => exact hentries readFlow ∅
  | placements => exact hentries readPlacement ∅
  | schemas => exact hentries readSchema ∅

/-- Two event-model objects with the same header, when their sections compare as `fewer` says. -/
theorem follows_readModel {d d' : Fields} {fewer : Section → Bool}
    (hid : d'.id "event-model/id" = d.id "event-model/id")
    (hname : d'.text "event-model/name" = d.text "event-model/name")
    (hdescription : d'.text? "event-model/description" = d.text? "event-model/description")
    (h : ∀ s : Section, s.Follows d d' (fewer s)) :
    Follows (fewer .audiences || (fewer .streams || (fewer .interfaces || (fewer .readModels ||
      (fewer .events || (fewer .commands || (fewer .flows || (fewer .placements ||
        (fewer .schemas || false))))))))) (readModel d) (readModel d') := by
  rw [readModel, readModel, hid, hname, hdescription]
  refine .bind_left _ fun id => .bind_left _ fun name => .bind_left _ fun description => ?_
  refine (h .audiences).bind fun audiences => ?_
  refine (h .streams).bind fun streams => ?_
  refine (h .interfaces).bind fun interfaces => ?_
  refine (h .readModels).bind fun readModels => ?_
  refine (h .events).bind fun events => ?_
  refine (h .commands).bind fun commands => ?_
  refine (h .flows).bind fun flows => ?_
  refine (h .placements).bind fun placements => ?_
  exact (h .schemas).bind fun schemas => .refl _

/-- An edited section decides how the readings of the whole compare. -/
theorem follows_readModel_edit {s : Section} {fewer : Bool} {fields : List (String × Json)}
    {location : String} {edit : Json → Json}
    (h : s.Follows ⟨fields, location⟩ ⟨editMember s.member edit fields, location⟩ fewer) :
    Follows fewer (readModel ⟨fields, location⟩)
      (readModel ⟨editMember s.member edit fields, location⟩) := by
  have hfind {key : String} (hne : key ≠ s.member) :
      find? (editMember s.member edit fields) key = find? fields key := by
    rw [find?_editMember, if_neg hne]
  have hsections (t : Section) : t.Follows ⟨fields, location⟩
      ⟨editMember s.member edit fields, location⟩ (decide (t = s) && fewer) := by
    by_cases hts : t = s
    · subst hts
      simpa using h
    · have hmember := hfind fun heq => hts (Section.member_injective t s heq)
      have hother : t.Follows ⟨fields, location⟩ ⟨editMember s.member edit fields, location⟩
          false := Section.follows_of_find hmember rfl
      simpa [hts] using hother
  have hid : "event-model/id" ≠ s.member := by cases s <;> decide
  have hname : "event-model/name" ≠ s.member := by cases s <;> decide
  have hdescription : "event-model/description" ≠ s.member := by cases s <;> decide
  have hmodel := follows_readModel (d := ⟨fields, location⟩)
    (by simp only [Fields.id, Fields.text, Fields.text?, Fields.value?, hfind hid])
    (by simp only [Fields.text, Fields.text?, Fields.value?, hfind hname])
    (by simp only [Fields.text?, Fields.value?, hfind hdescription]) hsections
  cases s <;> simpa using hmodel

end Sections

end EventForge.Document
