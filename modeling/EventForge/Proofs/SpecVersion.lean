import EventForge.Proofs.Text.Numeral
import EventForge.Proofs.Text.Split
import EventForge.SpecVersion

/-!
# Texts of versions

A text is read as a version exactly when it is three numerals of 32 bits with dots between them and,
behind the first hyphen, a label that is not empty (`ofText_eq_ok_iff`). Reading forgets signs and
leading zeros only: the text that is written for a version is one of its spellings, so versions that
were read are equal when their written texts are.
-/

namespace EventForge.SpecVersion

open Text (SpellsNumber)

variable {n : Nat} {cs core : List Char} {text : String} {label : Option String} {v : SpecVersion}

/-- A component of a version: an optional plus sign and one or more ASCII digits, whose value is at
most 4294967295. -/
def SpellsComponent (n : Nat) (cs : List Char) : Prop := SpellsNumber n cs ∧ n ≤ 4294967295

/-- The numbers of a version with dots between them. -/
def SpellsCore (v : SpecVersion) (core : List Char) : Prop :=
  ∃ x y z, core = x ++ '.' :: (y ++ '.' :: z) ∧
    SpellsComponent v.major x ∧ SpellsComponent v.minor y ∧ SpellsComponent v.patch z

/-- A label as it stands behind the numbers. -/
def labelText : Option String → List Char
  | none => []
  | some label => '-' :: label.toList

/-- The text is the numbers of the version with its label behind them. -/
def Spells (text : String) (v : SpecVersion) : Prop :=
  v.label ≠ some "" ∧ ∃ core, text.toList = core ++ labelText v.label ∧ SpellsCore v core

/-- A text of the form `X.Y.Z` or `X.Y.Z-label`: what stands in front of the first hyphen has three
components with dots between them, and a label is not empty. -/
def IsVersionText (text : String) : Prop :=
  ∃ core after, text.toList = core ++ after ∧ '-' ∉ core ∧
    (after = [] ∨ ∃ label, label ≠ [] ∧ after = '-' :: label) ∧
    ∃ x y z, core = x ++ '.' :: (y ++ '.' :: z) ∧ ∀ cs ∈ [x, y, z], ∃ n, SpellsComponent n cs

theorem component_eq_ok_iff {fault : Fault} :
    component fault cs = .ok n ↔ SpellsComponent n cs := by
  have hread : Text.numeral? componentBound cs = some n ↔ SpellsComponent n cs :=
    Text.numeral?_eq_some_iff
  rw [component, ← hread]
  split
  · next m hm => simp [hm]
  · next hm => simp [hm]

theorem SpellsComponent.not_mem {c : Char} (h : SpellsComponent n cs) (hdigit : ¬ c.isDigit)
    (hplus : c ≠ '+') : c ∉ cs :=
  h.1.not_mem hdigit hplus

/-- The numbers hold no hyphen, so the first one is in front of the label. -/
theorem SpellsCore.hyphen_not_mem (h : SpellsCore v core) : '-' ∉ core := by
  obtain ⟨x, y, z, rfl, hx, hy, hz⟩ := h
  have hnone : ∀ {n cs}, SpellsComponent n cs → '-' ∉ cs :=
    fun h => h.not_mem (by decide) (by decide)
  simp [hnone hx, hnone hy, hnone hz]

theorem splitOn_core {x y z : List Char} (hx : '.' ∉ x) (hy : '.' ∉ y) (hz : '.' ∉ z) :
    Text.splitOn '.' (x ++ '.' :: (y ++ '.' :: z)) = [x, y, z] := by
  rw [Text.splitOn_append_sep, Text.splitOn_append_sep, Text.splitOn_of_not_mem hx,
    Text.splitOn_of_not_mem hy, Text.splitOn_of_not_mem hz]
  rfl

theorem ofCore_eq_ok_iff :
    ofCore text core label = .ok v ↔ v.label = label ∧ SpellsCore v core := by
  constructor
  · intro h
    rw [ofCore] at h
    split at h
    · next x y z hsplit =>
      simp only [bind, Except.bind, pure, Except.pure] at h
      -- each component that is read names its number
      split at h
      · cases h
      next major hmajor =>
      split at h
      · cases h
      next minor hminor =>
      split at h
      · cases h
      next patch hpatch =>
      cases h
      refine ⟨rfl, x, y, z, ?_, component_eq_ok_iff.1 hmajor, component_eq_ok_iff.1 hminor,
        component_eq_ok_iff.1 hpatch⟩
      rw [← Text.joined_splitOn '.' core, hsplit]
      rfl
    · cases h
  · rintro ⟨rfl, x, y, z, rfl, hx, hy, hz⟩
    have hdot : ∀ {n cs}, SpellsComponent n cs → '.' ∉ cs :=
      fun h => h.not_mem (by decide) (by decide)
    rw [ofCore, splitOn_core (hdot hx) (hdot hy) (hdot hz)]
    simp only [component_eq_ok_iff.2 hx, component_eq_ok_iff.2 hy, component_eq_ok_iff.2 hz]
    rfl

theorem spells_iff_of_not_mem (h : '-' ∉ text.toList) :
    Spells text v ↔ v.label = none ∧ SpellsCore v text.toList := by
  constructor
  · rintro ⟨-, core, htext, hcore⟩
    cases hlabel : v.label with
    | none =>
      rw [hlabel, labelText, List.append_nil] at htext
      exact ⟨rfl, htext ▸ hcore⟩
    | some label => simp [htext, hlabel, labelText] at h
  · rintro ⟨hlabel, hcore⟩
    exact ⟨by simp [hlabel], text.toList, by simp [hlabel, labelText], hcore⟩

theorem spells_iff_of_cutFirst? {rest : List Char}
    (h : Text.cutFirst? '-' text.toList = some (core, rest)) :
    Spells text v ↔ rest ≠ [] ∧ v.label = some (String.ofList rest) ∧ SpellsCore v core := by
  obtain ⟨htext, -⟩ := Text.cutFirst?_eq_some_iff.1 h
  constructor
  · rintro ⟨hne, core', htext', hcore⟩
    cases hlabel : v.label with
    | none =>
      have hmem : '-' ∈ core' := by
        rw [hlabel, labelText, List.append_nil] at htext'
        simp [← htext', htext]
      exact absurd hmem hcore.hyphen_not_mem
    | some label =>
      rw [hlabel, labelText] at htext'
      rw [Text.cutFirst?_eq_some_iff.2 ⟨htext', hcore.hyphen_not_mem⟩] at h
      obtain ⟨rfl, rfl⟩ := Prod.mk.inj (Option.some.inj h)
      refine ⟨fun hnil => hne ?_, by rw [String.ofList_toList], hcore⟩
      rw [hlabel, String.toList_eq_nil_iff.1 hnil]
  · rintro ⟨hne, hlabel, hcore⟩
    refine ⟨fun hempty => hne ?_, core, by simp [htext, hlabel, labelText], hcore⟩
    rw [hlabel, Option.some.injEq, ← String.toList_inj, String.toList_ofList] at hempty
    exact hempty

/-- A version is read exactly from its spellings. -/
theorem ofText_eq_ok_iff : ofText text = .ok v ↔ Spells text v := by
  rw [ofText]
  split
  · next hcut => simp [spells_iff_of_cutFirst? hcut]
  · next rest hne hcut =>
    rw [ofCore_eq_ok_iff, spells_iff_of_cutFirst? hcut, and_iff_right hne]
  · next hcut =>
    rw [ofCore_eq_ok_iff, spells_iff_of_not_mem (Text.cutFirst?_eq_none_iff.1 hcut)]

theorem isVersionText_iff : IsVersionText text ↔ ∃ v, Spells text v := by
  constructor
  · rintro ⟨core, after, htext, -, hafter, x, y, z, hcore, hnumbers⟩
    obtain ⟨⟨major, hmajor⟩, ⟨minor, hminor⟩, ⟨patch, hpatch⟩⟩ :
        (∃ n, SpellsComponent n x) ∧ (∃ n, SpellsComponent n y) ∧ ∃ n, SpellsComponent n z := by
      simpa using hnumbers
    have hspelled : ∀ label, SpellsCore ⟨major, minor, patch, label⟩ core :=
      fun _ => ⟨x, y, z, hcore, hmajor, hminor, hpatch⟩
    obtain rfl | ⟨label, hlabel, rfl⟩ := hafter
    · exact ⟨⟨_, _, _, none⟩, by simp, core, htext, hspelled _⟩
    · refine ⟨⟨_, _, _, some (String.ofList label)⟩, ?_, core, ?_, hspelled _⟩
      · simpa [← String.toList_inj] using hlabel
      · rw [htext, labelText, String.toList_ofList]
  · rintro ⟨v, hne, core, htext, hcore⟩
    refine ⟨core, labelText v.label, htext, hcore.hyphen_not_mem, ?_, ?_⟩
    · cases hlabel : v.label with
      | none => exact .inl rfl
      | some label =>
        refine .inr ⟨label.toList, fun hnil => hne ?_, rfl⟩
        rw [hlabel, String.toList_eq_nil_iff.1 hnil]
    · obtain ⟨x, y, z, rfl, hx, hy, hz⟩ := hcore
      exact ⟨x, y, z, rfl, by simpa using ⟨⟨_, hx⟩, ⟨_, hy⟩, ⟨_, hz⟩⟩⟩

theorem toList_toText (v : SpecVersion) :
    v.toText.toList =
      (Text.decimal v.major).toList ++ '.' :: ((Text.decimal v.minor).toList ++
        '.' :: (Text.decimal v.patch).toList) ++ labelText v.label := by
  rw [toText]
  cases hlabel : v.label <;> simp [labelText]

/-- The text that is written for a version is one of its spellings. -/
theorem Spells.toText (h : Spells text v) : Spells v.toText v := by
  obtain ⟨hne, core, -, x, y, z, -, hx, hy, hz⟩ := h
  exact ⟨hne, _, v.toList_toText, _, _, _, rfl, ⟨Text.spellsNumber_decimal _, hx.2⟩,
    ⟨Text.spellsNumber_decimal _, hy.2⟩, ⟨Text.spellsNumber_decimal _, hz.2⟩⟩

/-- Texts are read as versions exactly when they have the form of one, and a version that was read
is read again from the text written for it; so two such versions are equal when their texts are. -/
theorem texts_of_versions (text : String) :
    ((∃ v, ofText text = .ok v) ↔ IsVersionText text) ∧
    ∀ v, ofText text = .ok v →
      ofText v.toText = .ok v ∧
      ∀ other w, ofText other = .ok w → (v = w ↔ v.toText = w.toText) := by
  have hagain : ∀ {text v}, ofText text = .ok v → ofText v.toText = .ok v :=
    fun h => ofText_eq_ok_iff.2 (ofText_eq_ok_iff.1 h).toText
  refine ⟨by simp only [ofText_eq_ok_iff, isVersionText_iff], fun v hv => ⟨hagain hv, ?_⟩⟩
  intro other w hw
  constructor
  · rintro rfl
    rfl
  · intro htext
    have hread : ofText v.toText = .ok w := htext ▸ hagain hw
    exact Except.ok.inj ((hagain hv).symm.trans hread)

/-- A sign and leading zeros are forgotten; hyphens and dots of the label stay. -/
theorem texts_of_versions_padded :
    ofText "+01.2.003-beta-1.x" = .ok ⟨1, 2, 3, some "beta-1.x"⟩ ∧
      IsVersionText "+01.2.003-beta-1.x" ∧
      ofText (toText ⟨1, 2, 3, some "beta-1.x"⟩) = .ok ⟨1, 2, 3, some "beta-1.x"⟩ := by
  have hread : ofText "+01.2.003-beta-1.x" = .ok ⟨1, 2, 3, some "beta-1.x"⟩ := by decide
  obtain ⟨hform, hagain⟩ := texts_of_versions "+01.2.003-beta-1.x"
  exact ⟨hread, hform.1 ⟨_, hread⟩, (hagain _ hread).1⟩

end EventForge.SpecVersion
