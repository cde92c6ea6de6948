import EventForge.Layout
import EventForge.Proofs.Model
import EventForge.Proofs.Path
import EventForge.Proofs.Text.Letters
import Mathlib.Data.List.TakeWhile

/-!
# The packages of a project

The segments of a package name are the directories below the source root
(`components_packageDir`). A base namespace without faults and a name that is one segment without
faults do not yet give package names without faults: the name changes its case on the way, and the
base is not trimmed. What can go wrong is listed in `Blameless`, and it is all that can
(`fault?_package_iff`).
-/

namespace EventForge

open Text (pieces trim compact lowerFirst isBlank splitOn)

/-! ## Trimmed texts -/

theorem Text.toList_eq_trim (s : String) :
    ∃ front back, s.toList = front ++ (trim s).toList ++ back ∧
      (∀ c ∈ front, isBlank c) ∧ ∀ c ∈ back, isBlank c := by
  let rest := s.toList.dropWhile isBlank
  refine ⟨s.toList.takeWhile isBlank, (rest.reverse.takeWhile isBlank).reverse, ?_,
    fun c hc => List.mem_takeWhile_imp hc,
    fun c hc => List.mem_takeWhile_imp (List.mem_reverse.1 hc)⟩
  have hrest : (rest.reverse.dropWhile isBlank).reverse ++
      (rest.reverse.takeWhile isBlank).reverse = rest := by
    rw [← List.reverse_append, List.takeWhile_append_dropWhile, List.reverse_reverse]
  rw [trim, String.toList_ofList, List.append_assoc, hrest, List.takeWhile_append_dropWhile]

/-- Behind a text that neither starts nor ends blank, only the blanks in front are cut. -/
theorem Text.toList_trim_append {s t : String} {c d : Char} (hhead : t.toList.head? = some c)
    (hc : ¬ isBlank c) (hlast : t.toList.getLast? = some d) (hd : ¬ isBlank d) :
    (trim (s ++ t)).toList = s.toList.dropWhile isBlank ++ t.toList := by
  obtain ⟨cs, hcs⟩ := List.head?_eq_some_iff.1 hhead
  obtain ⟨ds, hds⟩ := List.getLast?_eq_some_iff.1 hlast
  have hfront : (s ++ t).toList.dropWhile isBlank = s.toList.dropWhile isBlank ++ t.toList := by
    rw [String.toList_append, List.dropWhile_append]
    split
    · next hempty =>
      rw [List.isEmpty_iff.1 hempty, List.nil_append, hcs, List.dropWhile_cons_of_neg hc]
    · rfl
  rw [trim, String.toList_ofList, hfront, hds, List.reverse_append, List.reverse_append]
  simp [hd]

theorem Text.trim_compact (s : String) : trim (compact s) = compact s := by
  obtain ⟨front, back, hsplit, hfront, hback⟩ := Text.toList_eq_trim (compact s)
  have hplain : ∀ c ∈ (compact s).toList, ¬ isBlank c := by
    intro c hc
    rw [Text.toList_compact] at hc
    simpa using (List.mem_filter.1 hc).2
  have hnofront : front = [] := List.eq_nil_iff_forall_not_mem.2 fun c hc =>
    hplain c (by simp [hsplit, hc]) (hfront c hc)
  have hnoback : back = [] := List.eq_nil_iff_forall_not_mem.2 fun c hc =>
    hplain c (by simp [hsplit, hc]) (hback c hc)
  apply String.toList_inj.1
  rw [hsplit, hnofront, hnoback, List.nil_append, List.append_nil]

/-- The text ends in a blank. -/
def Text.EndsBlank (s : String) : Prop := ∃ c ∈ s.toList.getLast?, isBlank c

namespace NamespaceChoice

/-! ## Texts without faults -/

theorem segmentFault?_eq_none_iff {ns segment : String} :
    segmentFault? ns segment = none ↔ isIdentifier segment ∧ ¬ Java.isReserved segment := by
  rw [segmentFault?]
  cases isIdentifier segment <;> cases Java.isReserved segment <;> simp

theorem fault?_eq_none_iff {text : String} :
    fault? text = none ↔
      ∀ piece ∈ pieces '.' (trim text), isIdentifier piece ∧ ¬ Java.isReserved piece := by
  rw [fault?]
  split
  · next hempty =>
    have hpieces : pieces '.' "" = [""] := by decide
    have hidentifier : isIdentifier "" = false := by decide
    rw [hempty, hpieces]
    simp [hidentifier]
  · simp only [List.findSome?_eq_none_iff, segmentFault?_eq_none_iff]

theorem isIdentifierPart_of_mem {s : String} (h : isIdentifier s) {c : Char} (hc : c ∈ s.toList) :
    isIdentifierPart c := by
  by_contra hpart
  have hnot := Text.not_isIdentifier_of_mem hc (Bool.not_eq_true _ ▸ hpart)
  rw [String.ofList_toList, h] at hnot
  cases hnot

theorem not_isBlank_of_isIdentifierPart {c : Char} (h : isIdentifierPart c) : ¬ isBlank c := by
  intro hblank
  rw [Text.not_isIdentifierPart_of_isBlank hblank] at h
  cases h

/-- A base namespace without faults is a text without faults with blanks around it. -/
structure Framed (base : String) (front core back : List Char) : Prop where
  toList : base.toList = front ++ core ++ back
  front : ∀ c ∈ front, isBlank c
  back : ∀ c ∈ back, isBlank c
  core : ∀ piece ∈ splitOn '.' core,
    isIdentifier (String.ofList piece) ∧ ¬ Java.isReserved (String.ofList piece)

theorem exists_framed {base : String} (h : fault? base = none) :
    ∃ front core back, Framed base front core back := by
  obtain ⟨front, back, hsplit, hfront, hback⟩ := Text.toList_eq_trim base
  refine ⟨front, (trim base).toList, back, hsplit, hfront, hback, fun piece hpiece => ?_⟩
  exact fault?_eq_none_iff.1 h _ (List.mem_map_of_mem hpiece)

namespace Framed

variable {base : String} {front core back : List Char}

theorem ne_nil (h : Framed base front core back) : core ≠ [] := by
  rintro rfl
  have hidentifier : isIdentifier "" = false := by decide
  simpa [splitOn, hidentifier] using h.core

theorem not_isBlank (h : Framed base front core back) {c : Char} (hc : c ∈ core) : ¬ isBlank c := by
  by_cases hdot : c = '.'
  · have hsign : isBlank '.' = false := by decide
    simp [hdot, hsign]
  · obtain ⟨piece, hpiece, hmem⟩ := Text.exists_mem_splitOn hc hdot
    refine not_isBlank_of_isIdentifierPart (isIdentifierPart_of_mem (h.core piece hpiece).1 ?_)
    rwa [String.toList_ofList]

theorem dropWhile_eq (h : Framed base front core back) :
    base.toList.dropWhile isBlank = core ++ back := by
  rw [h.toList, List.append_assoc, List.dropWhile_append_of_pos h.front]
  cases hcore : core with
  | nil => exact absurd hcore h.ne_nil
  | cons c cs =>
    rw [List.cons_append, List.dropWhile_cons_of_neg]
    exact h.not_isBlank (by simp [hcore])

theorem endsBlank_iff (h : Framed base front core back) : Text.EndsBlank base ↔ back ≠ [] := by
  rw [Text.EndsBlank, h.toList]
  constructor
  · rintro ⟨c, hc, hblank⟩ rfl
    rw [List.append_nil, List.getLast?_append_of_ne_nil _ h.ne_nil] at hc
    exact h.not_isBlank (List.mem_of_getLast? hc) hblank
  · intro hne
    rw [List.getLast?_append_of_ne_nil _ hne]
    exact ⟨back.getLast hne, by simp [List.getLast?_eq_some_getLast hne],
      h.back _ (List.getLast_mem hne)⟩

/-- Of the blanks around a base namespace only those behind it are faults of a longer name. -/
theorem pieces_iff (h : Framed base front core back) :
    (∀ piece ∈ splitOn '.' (base.toList.dropWhile isBlank),
      isIdentifier (String.ofList piece) ∧ ¬ Java.isReserved (String.ofList piece)) ↔
      ¬ Text.EndsBlank base := by
  rw [h.dropWhile_eq, h.endsBlank_iff, not_not]
  constructor
  · intro hall
    by_contra hne
    obtain ⟨c, hc⟩ := List.exists_mem_of_ne_nil _ hne
    have hblank := h.back c hc
    have hsign : isBlank '.' = false := by decide
    have hdot : c ≠ '.' := by
      rintro rfl
      simp [hsign] at hblank
    obtain ⟨piece, hpiece, hmem⟩ :=
      Text.exists_mem_splitOn (List.mem_append_right core hc) hdot
    refine not_isBlank_of_isIdentifierPart (isIdentifierPart_of_mem (hall piece hpiece).1 ?_) hblank
    rwa [String.toList_ofList]
  · rintro rfl
    rw [List.append_nil]
    exact h.core

end Framed

end NamespaceChoice

namespace Layout

open NamespaceChoice

variable {c : Context} {base : String}

/-- The segment that a context adds to the base namespace. -/
def segment (c : Context) : String := lowerFirst c.projectName

theorem not_mem_segment {x : Char} (hx : x ∈ Text.plainSigns) (h : x ∉ (compact c.name).toList) :
    x ∉ (segment c).toList :=
  Text.not_mem_lowerFirst hx (Text.not_mem_capitalizeFirst hx h)

theorem toList_package (c : Context) (base : String) (mode : ProjectMode) (kind : PackageKind) :
    ((ofContext c base mode).package kind).toList =
      base.toList ++ '.' :: ((segment c).toList ++ '.' :: kind.text.toList) := by
  simp [package, ofContext, segment]

theorem splitOn_kind (kind : PackageKind) : splitOn '.' kind.text.toList = [kind.text.toList] :=
  Text.splitOn_of_not_mem (by cases kind <;> decide)

/-- Behind anything, the last two segments are those of the context and of the kind. -/
theorem splitOn_segments (hdot : '.' ∉ (segment c).toList) (kind : PackageKind)
    (front : List Char) :
    splitOn '.' (front ++ '.' :: ((segment c).toList ++ '.' :: kind.text.toList)) =
      splitOn '.' front ++ [(segment c).toList, kind.text.toList] := by
  rw [Text.splitOn_append_sep, Text.splitOn_append_sep, Text.splitOn_of_not_mem hdot,
    splitOn_kind, List.singleton_append]

/-- A name that is accepted as a single segment of a namespace. -/
structure SegmentName (name : String) : Prop where
  accepted : fault? (compact name) = none
  single : pieces '.' (compact name) = [compact name]

namespace SegmentName

theorem not_mem_dot {name : String} (h : SegmentName name) : '.' ∉ (compact name).toList :=
  Text.not_mem_of_mem_pieces (by rw [h.single]; simp)

theorem identifier {name : String} (h : SegmentName name) : isIdentifier (compact name) := by
  have hpieces := fault?_eq_none_iff.1 h.accepted
  rw [Text.trim_compact, h.single] at hpieces
  exact (hpieces _ (List.mem_singleton_self _)).1

/-- The segment of a context is the name with its first letter in another case. -/
theorem exists_segment (h : SegmentName c.name) :
    ∃ x xs, (compact c.name).toList = x :: xs ∧ segment c = String.ofList (Text.recased x ++ xs) := by
  have hname := h.identifier
  cases hcs : (compact c.name).toList with
  | nil => simp [isIdentifier, hcs] at hname
  | cons x xs => exact ⟨x, xs, rfl, Text.lowerFirst_capitalizeFirst hcs⟩

/-- The segment of a context is an identifier but for a name that starts with a marked letter. -/
theorem isIdentifier_segment_iff (h : SegmentName c.name) :
    isIdentifier (segment c) ↔
      ∀ x ∈ (compact c.name).toList.head?, ¬ Text.isMarked x := by
  obtain ⟨x, xs, hcs, hsegment⟩ := h.exists_segment
  have hname := h.identifier
  simp only [isIdentifier, hcs, Bool.and_eq_true] at hname
  rw [hsegment, hcs, Text.isIdentifier_append (Text.recased_ne_nil x) hname.2,
    Text.isIdentifier_recased_iff hname.1]
  simp

end SegmentName

/-- The ways in which a package name can get a fault that neither its base namespace nor the name of
its context has. -/
structure Blameless (c : Context) (base : String) : Prop where
  trimmed : ¬ Text.EndsBlank base
  plain : ∀ x ∈ (compact c.name).toList.head?, ¬ Text.isMarked x
  free : ¬ Java.isReserved (segment c)

/-- Of a package name only the blanks in front of the base are trimmed. -/
theorem toList_trim_package (c : Context) (base : String) (mode : ProjectMode)
    (kind : PackageKind) :
    (trim ((ofContext c base mode).package kind)).toList =
      base.toList.dropWhile isBlank ++
        '.' :: ((segment c).toList ++ '.' :: kind.text.toList) := by
  let added := "." ++ segment c ++ "." ++ kind.text
  have hadded : added.toList = '.' :: ((segment c).toList ++ '.' :: kind.text.toList) := by
    simp [added]
  have hpackage : (ofContext c base mode).package kind = base ++ added := by
    apply String.toList_inj.1
    rw [toList_package, String.toList_append, hadded]
  have hhead : added.toList.head? = some '.' := by rw [hadded, List.head?_cons]
  have hlast : added.toList.getLast? = some 's' := by
    have hkind : kind.text.toList.getLast? = some 's' := by cases kind <;> decide
    rw [hadded, List.getLast?_cons, List.getLast?_append, List.getLast?_cons, hkind]
    rfl
  have hsigns : ¬ isBlank '.' ∧ ¬ isBlank 's' := by decide
  rw [hpackage, Text.toList_trim_append hhead hsigns.1 hlast hsigns.2, hadded]

theorem fault?_package_iff (hbase : fault? base = none) (hname : SegmentName c.name)
    (mode : ProjectMode) (kind : PackageKind) :
    fault? ((ofContext c base mode).package kind) = none ↔ Blameless c base := by
  obtain ⟨front, core, back, hframed⟩ := exists_framed hbase
  have hdot : '.' ∉ (segment c).toList := not_mem_segment (by decide) hname.not_mem_dot
  have hkind : isIdentifier kind.text ∧ ¬ Java.isReserved kind.text := by
    cases kind <;> decide
  rw [fault?_eq_none_iff, pieces, toList_trim_package, splitOn_segments hdot]
  simp only [List.forall_mem_map, List.forall_mem_append, List.forall_mem_cons,
    String.ofList_toList, hkind, hframed.pieces_iff, hname.isIdentifier_segment_iff]
  constructor
  · rintro ⟨htrimmed, ⟨hplain, hfree⟩, -⟩
    exact ⟨htrimmed, hplain, hfree⟩
  · rintro ⟨htrimmed, hplain, hfree⟩
    exact ⟨htrimmed, ⟨hplain, hfree⟩, by simp⟩

end Layout

/-! ## Directories -/

/-- A text that is one step of a path. -/
structure Path.Plain (s : String) : Prop where
  slash : '/' ∉ s.toList
  dot : '.' ∉ s.toList
  ne_nil : s.toList ≠ []

namespace Path

theorem Plain.innerComponent? {s : String} (h : Plain s) :
    Path.innerComponent? s.toList = some (.name s) := by
  have hdot : s.toList ≠ ['.'] := fun heq => h.dot (by simp [heq])
  have hup : s.toList ≠ ['.', '.'] := fun heq => h.dot (by simp [heq])
  rw [Path.innerComponent?, if_neg (not_or.2 ⟨h.ne_nil, hdot⟩), if_neg hup, String.ofList_toList]

/-- A plain text adds itself as a step. -/
theorem components_join_plain (p : Path) {s : String} (h : Plain s) :
    (p.join ⟨s⟩).components = p.components ++ [.name s] := by
  have habs := relative_of_no_slash h.slash
  by_cases hp : p.text.toList = []
  · have hnone : p.components = [] := by
      rw [ext (q := ⟨""⟩) hp]
      decide
    have hdot : s.toList ≠ ['.'] := fun heq => h.dot (by simp [heq])
    have hsplit : splitOn '/' (Path.mk s).text.toList = [s.toList] :=
      Text.splitOn_of_not_mem h.slash
    rw [join_of_empty hp, hnone, components_of_splitOn hsplit, if_neg habs, if_neg hdot,
      h.innerComponent?]
    rfl
  · rw [components_join hp habs, steps_of_no_slash h.slash, h.innerComponent?, Option.toList_some]

theorem components_extend_plain (p : Path) {ss : List String} (h : ∀ s ∈ ss, Plain s) :
    (p.extend ss).components = p.components ++ ss.map .name := by
  induction ss generalizing p with
  | nil => exact (List.append_nil _).symm
  | cons s ss ih =>
    have hstep : p.extend (s :: ss) = (p.join ⟨s⟩).extend ss := rfl
    rw [hstep, ih _ fun s' hs' => h s' (List.mem_cons_of_mem s hs'),
      components_join_plain p (h s List.mem_cons_self), List.append_assoc, List.singleton_append,
      List.map_cons]

end Path

namespace NamespaceChoice

theorem slash_not_mem_of_isIdentifier {s : String} (h : isIdentifier s) : '/' ∉ s.toList := by
  have hslash : isIdentifierPart '/' = false := by decide +kernel
  intro hmem
  rw [isIdentifierPart_of_mem h hmem] at hslash
  cases hslash

/-- The pieces of a base namespace without faults are steps of a path, also before it is trimmed. -/
theorem Framed.plain {base : String} {front core back : List Char} (h : Framed base front core back)
    {piece : String} (hpiece : piece ∈ pieces '.' base) : Path.Plain piece := by
  have hsigns : ¬ isBlank '.' ∧ ¬ isBlank '/' := by decide
  refine ⟨fun hslash => ?_, Text.not_mem_of_mem_pieces hpiece, fun hnil => ?_⟩
  · have hmem := Text.mem_of_mem_pieces hpiece hslash
    rw [h.toList, List.mem_append, List.mem_append] at hmem
    rcases hmem with (hmem | hmem) | hmem
    · exact hsigns.2 (h.front _ hmem)
    · obtain ⟨part, hpart, hin⟩ := Text.exists_mem_splitOn hmem (show '/' ≠ '.' by decide)
      refine slash_not_mem_of_isIdentifier (h.core part hpart).1 ?_
      rwa [String.toList_ofList]
    · exact hsigns.2 (h.back _ hmem)
  · obtain ⟨p, hp, rfl⟩ := List.mem_map.1 hpiece
    rw [h.toList] at hp
    obtain ⟨part, hpart, hwithin⟩ := Text.exists_infix_of_mem_splitOn
      (fun hdot => hsigns.1 (h.front _ hdot)) (fun hdot => hsigns.1 (h.back _ hdot)) hp
    rw [String.toList_ofList] at hnil
    rw [hnil, List.infix_nil] at hwithin
    have hidentifier := (h.core part hpart).1
    rw [hwithin] at hidentifier
    exact absurd hidentifier (by decide)

end NamespaceChoice

namespace Layout

open NamespaceChoice

variable {c : Context} {base : String}

/-- The directory of a package is the source root with its segments behind. -/
theorem packageDir_eq (l : Layout) (kind : PackageKind) :
    l.packageDir kind = l.sourceRoot.extend (pieces '.' (l.package kind)) := by
  have hpackage : l.package kind = l.ns ++ String.singleton '.' ++ kind.text := rfl
  have hkind : pieces '.' kind.text = [kind.text] := by
    rw [pieces, splitOn_kind, List.map_singleton, String.ofList_toList]
  rw [hpackage, Text.pieces_append, hkind, packageDir, Path.extend, Path.extend, List.foldl_append]
  rfl

theorem pieces_package (hname : SegmentName c.name) (base : String) (mode : ProjectMode)
    (kind : PackageKind) :
    pieces '.' ((ofContext c base mode).package kind) =
      pieces '.' base ++ [segment c, kind.text] := by
  have hdot : '.' ∉ (segment c).toList := not_mem_segment (by decide) hname.not_mem_dot
  rw [pieces, toList_package, splitOn_segments hdot, List.map_append]
  simp [pieces]

theorem SegmentName.plain (h : SegmentName c.name) : Path.Plain (segment c) where
  slash := not_mem_segment (by decide) (slash_not_mem_of_isIdentifier h.identifier)
  dot := not_mem_segment (by decide) h.not_mem_dot
  ne_nil := by
    obtain ⟨x, xs, -, hsegment⟩ := h.exists_segment
    rw [hsegment, String.toList_ofList]
    exact List.append_ne_nil_of_left_ne_nil (Text.recased_ne_nil x) xs

/-- Each segment of a package is one step below the source root. -/
theorem components_packageDir (hbase : fault? base = none) (hname : SegmentName c.name)
    (mode : ProjectMode) (kind : PackageKind) :
    ((ofContext c base mode).packageDir kind).components =
      (ofContext c base mode).sourceRoot.components ++
        (pieces '.' ((ofContext c base mode).package kind)).map .name := by
  obtain ⟨front, core, back, hframed⟩ := exists_framed hbase
  have hkind : Path.Plain kind.text := by
    cases kind <;> exact ⟨by decide, by decide, by decide⟩
  rw [packageDir_eq]
  refine Path.components_extend_plain _ fun piece hpiece => ?_
  rw [pieces_package hname, List.mem_append, List.mem_cons, List.mem_singleton] at hpiece
  rcases hpiece with hpiece | hpiece | hpiece
  · exact hframed.plain hpiece
  · rw [hpiece]
    exact hname.plain
  · rw [hpiece]
    exact hkind

/-- A package name has no fault exactly when nothing on the way from the base namespace and the name
of the context gives it one, and its segments are the steps below the source root. -/
theorem package_accepted_iff (hbase : fault? base = none) (hname : SegmentName c.name)
    (mode : ProjectMode) (kind : PackageKind) :
    let l := ofContext c base mode
    (fault? (l.package kind) = none ↔ Blameless c base) ∧
      l.packageDir kind = l.sourceRoot.extend (pieces '.' (l.package kind)) ∧
      (l.packageDir kind).components =
        l.sourceRoot.components ++ (pieces '.' (l.package kind)).map .name :=
  ⟨fault?_package_iff hbase hname mode kind, packageDir_eq _ kind,
    components_packageDir hbase hname mode kind⟩

/-- A context whose name has two words. -/
def orderHistory : Context := ⟨some (.uniform 1), "Order History", []⟩

theorem package_accepted_orderHistory :
    fault? "com.acme" = none ∧ SegmentName orderHistory.name ∧
      fault? ((ofContext orderHistory "com.acme" .createNew).package .readModels) = none := by
  have hbase : fault? "com.acme" = none := by decide
  have hname : SegmentName orderHistory.name := ⟨by decide, by decide⟩
  have hhead : (compact orderHistory.name).toList.head? = some 'O' := by decide
  have hsigns : isBlank 'e' = false ∧ Text.isMarked 'O' = false := by decide
  have hblameless : Blameless orderHistory "com.acme" :=
    ⟨by simp [Text.EndsBlank, hsigns.1], by simp [hhead, hsigns.2], by decide⟩
  exact ⟨hbase, hname, (package_accepted_iff hbase hname .createNew .readModels).1.2 hblameless⟩

/-- The segment of a stream named `Class` is the reserved word `class`. -/
theorem package_of_reserved :
    fault? "main" = none ∧ SegmentName "Class" ∧
      fault? ((ofContext ⟨some (.uniform 1), "Class", []⟩ "main" .useExisting).package .events) =
        some (.reserved "main.class.events" "class") :=
  ⟨by decide, ⟨by decide, by decide⟩, by decide⟩

end Layout

end EventForge
