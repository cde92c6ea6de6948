import EventForge.Document.Reader
import EventForge.Proofs.Document.Reading
import EventForge.Proofs.Uuid
import Mathlib.Data.List.Infix

/-!
# Warnings that an entry is skipped

Such a warning says so at the end of its message. Most readers never raise one (`Quiet`), in
particular none of a type tree does.
-/

namespace EventForge.Document

open Reading TypeTree

/-- The message says that an entry is skipped. -/
def skipMessage (message : String) : Bool := ", skipped".toList.isSuffixOf message.toList

/-- The places of the entries that warnings say are skipped, in order. -/
def skipPlaces (ws : List Diagnostic) : List String :=
  ws.filterMap fun d => if skipMessage d.message then d.location else none

@[simp]
theorem skipPlaces_nil : skipPlaces [] = [] := rfl

@[simp]
theorem skipPlaces_append (ws vs : List Diagnostic) :
    skipPlaces (ws ++ vs) = skipPlaces ws ++ skipPlaces vs :=
  List.filterMap_append

theorem skipPlaces_warning {message location : String} :
    skipPlaces [warning message location] = if skipMessage message then [location] else [] := by
  by_cases h : skipMessage message <;> simp [skipPlaces, warning, h]

/-- A message ends as its last part does, unless that part is short. -/
theorem skipMessage_append {a b : String} (h : skipMessage b = false)
    (hshort : b.toList.isSuffixOf ", skipped".toList = false) : skipMessage (a ++ b) = false := by
  rw [← Bool.not_eq_true, skipMessage, List.isSuffixOf_iff_suffix] at h ⊢
  rw [← Bool.not_eq_true, List.isSuffixOf_iff_suffix] at hshort
  intro hskip
  rw [String.toList_append] at hskip
  rcases List.suffix_or_suffix_of_suffix hskip (List.suffix_append a.toList b.toList) with
    hlong | hshort'
  · exact h hlong
  · exact hshort hshort'

theorem skipMessage_of_end {a b : String} (h : skipMessage b = true) :
    skipMessage (a ++ b) = true := by
  rw [skipMessage, List.isSuffixOf_iff_suffix] at h ⊢
  rw [String.toList_append]
  exact h.trans (List.suffix_append _ _)

/-- The reading never says that an entry is skipped. -/
def Quiet {α : Type} (x : Reading α) : Prop := ∀ a ws, x = .read a ws → skipPlaces ws = []

theorem quiet_of_raises {α : Type} {x : Reading α} (h : x.Raises fun d => skipPlaces [d] = []) :
    Quiet x := by
  intro a ws hread
  have hnone := h a ws hread
  clear hread
  induction ws with
  | nil => rfl
  | cons d ws ih =>
    rw [← List.singleton_append, skipPlaces_append, hnone d (by simp),
      ih fun d' hd' => hnone d' (by simp [hd']), List.append_nil]

/-- The property holds of every warning that does not say that an entry is skipped. -/
def CoversUnskipped (P : Diagnostic → Prop) : Prop :=
  ∀ message location, skipMessage message = false → P (warning message location)

theorem coversUnskipped_skipPlaces : CoversUnskipped fun d => skipPlaces [d] = [] := by
  intro message location h
  rw [skipPlaces_warning, h]
  rfl

variable {P : Diagnostic → Prop}

section TypeNodes

theorem raises_readProperty (hP : CoversUnskipped P) (location : String)
    (bag : Dict String String) (item : Json) : (readProperty location bag item).Raises P := by
  refine .lift_bind _ fun entry => .lift_bind _ fun key => ?_
  split
  · exact .pure _
  · exact .bind (.warn (hP _ _ (skipMessage_append (by decide) (by decide)))) fun _ => .pure _

theorem raises_readProperties (hP : CoversUnskipped P) (node : Fields) :
    (readProperties node).Raises P := by
  refine .lift_bind _ fun items => ?_
  cases items with
  | none => exact .pure _
  | some items =>
    refine .bind (.foldlM (fun bag item _ => ?_) ∅) fun _ => .pure _
    exact raises_readProperty hP _ bag item

theorem raises_childless (hP : CoversUnskipped P) (label : Label) (shape : Shape)
    (location : String) : (childless label shape location).Raises P :=
  .bind (.warn (hP _ _ (skipMessage_append (by decide) (by decide)))) fun _ => .pure _

variable {fields : List (String × Json)}
  {readPart : Part fields → String → String → Reading TypeTree}

theorem raises_addEntry (hP : CoversUnskipped P)
    (hpart : ∀ part name place, (readPart part name place).Raises P) (location name : String)
    (entries : List (String × TypeTree)) (child : Part fields) :
    (addEntry location readPart name entries child).Raises P := by
  refine .lift_bind _ fun entry => (hpart _ _ _).bind fun type => ?_
  dsimp only
  split
  · exact .bind (.warn (hP _ _ (skipMessage_append (by decide) (by decide)))) fun _ => .pure _
  · exact .pure _

theorem raises_readShape (hP : CoversUnskipped P)
    (hpart : ∀ part name place, (readPart part name place).Raises P) (shape : Shape)
    (label : Label) (location : String) (children : List (Part fields)) :
    (readShape shape label location children readPart).Raises P := by
  unfold readShape
  split
  · exact (hpart _ _ _).bind fun _ => .pure _
  · exact (hpart _ _ _).bind fun _ => (hpart _ _ _).bind fun _ => .pure _
  · exact .bind (.mapM fun _ _ => hpart _ _ _) fun _ => .pure _
  · refine .bind (.foldlM (fun entries child _ => ?_) []) fun _ => .pure _
    exact raises_addEntry hP hpart _ _ entries child
  · exact .bind (.mapM fun _ _ => .lift _) fun _ => .pure _
  · exact .lift_bind _ fun _ => .pure _
  · exact .lift_bind _ fun _ => .lift_bind _ fun _ => .pure _
  · exact .pure _
  · exact .bind (.warn (hP _ _ (skipMessage_append (by decide) (by decide)))) fun _ => .pure _
  · exact raises_childless hP _ _ _

/-- No node of a type tree is skipped. -/
theorem raises_readNode (hP : CoversUnskipped P) (node : Json) (inherited : String)
    (nested : Bool) (location : String) : (readNode node inherited nested location).Raises P := by
  match node with
  | .object fields =>
    have hpart (part : Part fields) (name place : String) :=
      raises_readNode hP part.1 name true place
    rw [readNode, readObject]
    refine .lift_bind _ fun declared => (raises_readProperties hP _).bind fun bag => ?_
    split
    · exact .bind (.warn (hP _ _ (skipMessage_append (by decide) (by decide)))) fun _ => .pure _
    · exact .lift_bind _ fun children => raises_readShape hP hpart _ _ _ children
  | .null | .bool _ | .number _ | .string _ | .array _ =>
    simp only [readNode]
    exact .refused _
termination_by sizeOf node
decreasing_by
  have := part.2
  simp only [Json.object.sizeOf_spec]
  omega

end TypeNodes

section Readers

theorem skipMessage_toText (a : String) (id : Uuid) : skipMessage (a ++ id.toText) = false := by
  have hspelling := Uuid.isSpelling_of_ofText? id.ofText?_toText
  apply skipMessage_append
  · rw [← Bool.not_eq_true, skipMessage, List.isSuffixOf_iff_suffix]
    intro hskip
    have hcomma := hspelling ',' (hskip.subset (by decide))
    exact absurd hcomma (by decide)
  · rw [← Bool.not_eq_true, List.isSuffixOf_iff_suffix]
    intro hshort
    obtain ⟨d, rest, htext, hhyphen⟩ := id.toList_toText_eq_cons
    have hmem : '-' ∈ ", skipped".toList := hshort.subset (by rw [htext]; simp [hhyphen])
    exact absurd hmem (by decide)

theorem raises_checkVersion (hP : CoversUnskipped P) (root : List (String × Json)) :
    (checkVersion root).Raises P := by
  rw [checkVersion]
  split
  · split
    · exact .pure _
    · exact .warn (hP _ _ (skipMessage_append (by decide) (by decide)))
  · exact .warn (hP _ _ (by decide))

theorem raises_checkKey (hP : CoversUnskipped P) (key id : Uuid) (location : String) :
    (checkKey key id location).Raises P := by
  rw [checkKey]
  split
  · exact .pure _
  · exact .warn (hP _ _ (skipMessage_toText _ id))

theorem raises_readInterfaceKind (hP : CoversUnskipped P) (interface : Fields) :
    (readInterfaceKind interface).Raises P := by
  refine .lift_bind _ fun tag => ?_
  split
  · exact .pure _
  · exact .pure _
  · exact .pure _
  · exact .pure _
  · exact .lift_bind _ fun url => .pure _
  · exact .bind (.warn (hP _ _ (skipMessage_append (by decide) (by decide)))) fun _ => .pure _

theorem raises_readNoteSchema (hP : CoversUnskipped P) (note : Fields) (kind : NoteKind) :
    (readNoteSchema note kind).Raises P := by
  refine .lift_bind _ fun declared => ?_
  split
  · exact .pure _
  · exact .lift_bind _ fun target => .pure _
  · exact .refused _
  · exact .bind (.warn (hP _ _ (by decide))) fun _ => .pure _
  · exact .bind (.warn (hP _ _ (skipMessage_append (by decide) (by decide)))) fun _ => .pure _

theorem raises_readNote (hP : CoversUnskipped P) (kind : NoteKind) (notes : Dict Uuid Note)
    (entry : Keyed) : (readNote kind notes entry).Raises P := by
  refine .lift_bind _ fun o => .lift_bind _ fun id => (raises_checkKey hP _ _ _).bind fun _ => ?_
  refine (raises_readNoteSchema hP _ _).bind fun schema => .lift_bind _ fun name => ?_
  exact .lift_bind _ fun description => .pure _

theorem raises_readFlow (flows : Dict Uuid Flow) (entry : Keyed) :
    (readFlow flows entry).Raises P :=
  .lift_bind _ fun _ => .lift_bind _ fun _ => .lift_bind _ fun _ => .pure _

theorem raises_readSchema (hP : CoversUnskipped P) (schemas : Dict Uuid Schema) (entry : Keyed) :
    (readSchema schemas entry).Raises P := by
  refine .lift_bind _ fun o => .lift_bind _ fun id => (raises_checkKey hP _ _ _).bind fun _ => ?_
  refine .lift_bind _ fun name => ?_
  dsimp only
  split
  · exact .refused _
  · exact (raises_readNode hP _ _ _ _).bind fun type => .lift_bind _ fun description => .pure _

theorem quiet_checkVersion (root : List (String × Json)) : Quiet (checkVersion root) :=
  quiet_of_raises (raises_checkVersion coversUnskipped_skipPlaces root)

theorem quiet_checkKey (key id : Uuid) (location : String) : Quiet (checkKey key id location) :=
  quiet_of_raises (raises_checkKey coversUnskipped_skipPlaces key id location)

theorem quiet_readInterfaceKind (interface : Fields) : Quiet (readInterfaceKind interface) :=
  quiet_of_raises (raises_readInterfaceKind coversUnskipped_skipPlaces interface)

theorem quiet_readNote (kind : NoteKind) (notes : Dict Uuid Note) (entry : Keyed) :
    Quiet (readNote kind notes entry) :=
  quiet_of_raises (raises_readNote coversUnskipped_skipPlaces kind notes entry)

theorem quiet_readFlow (flows : Dict Uuid Flow) (entry : Keyed) : Quiet (readFlow flows entry) :=
  quiet_of_raises (raises_readFlow flows entry)

theorem quiet_readSchema (schemas : Dict Uuid Schema) (entry : Keyed) :
    Quiet (readSchema schemas entry) :=
  quiet_of_raises (raises_readSchema coversUnskipped_skipPlaces schemas entry)

end Readers

end EventForge.Document
