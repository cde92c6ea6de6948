import EventForge.Proofs.Text.Split
import EventForge.Uuid

/-!
# Reading identifiers back

The text of an identifier is read as that identifier (`ofText?_toText`): it is in the hyphenated
spelling, whose groups hold the digits in order.
-/

namespace EventForge

namespace Uuid

theorem hexDigit?_hexChar (d : Fin 16) : hexDigit? (hexChar d) = some d := by
  revert d
  decide

/-- No digit is a hyphen or starts another spelling. -/
theorem hexChar_ne (d : Fin 16) :
    hexChar d ≠ '-' ∧ hexChar d ≠ '\x7b' ∧ (hexChar d).toLower ≠ 'u' := by
  revert d
  decide

theorem mapM_hexDigit? (ds : List (Fin 16)) : (ds.map hexChar).mapM hexDigit? = some ds := by
  induction ds with
  | nil => rfl
  | cons d ds ih => rw [List.map_cons, List.mapM_cons, hexDigit?_hexChar, ih]; rfl

theorem ofDigits?_digits (u : Uuid) : ofDigits? (u.digits.map hexChar) = some u := by
  rw [ofDigits?, mapM_hexDigit?, Option.bind_some, dif_pos u.length_eq]

/-- The digits in the groups between which hyphens are written. -/
def groups (u : Uuid) : List (List Char) :=
  let cs := u.digits.map hexChar
  [cs.take 8, (cs.drop 8).take 4, (cs.drop 12).take 4, (cs.drop 16).take 4, cs.drop 20]

theorem toList_toText (u : Uuid) : u.toText.toList = Text.joined '-' u.groups :=
  String.toList_ofList

theorem flatten_groups (u : Uuid) : u.groups.flatten = u.digits.map hexChar := by
  have hcut (cs : List Char) (i n : Nat) : (cs.drop i).take n ++ cs.drop (i + n) = cs.drop i := by
    rw [← List.drop_drop, List.take_append_drop]
  simp only [groups, List.flatten_cons, List.flatten_nil, List.append_nil]
  rw [hcut _ 16 4, hcut _ 12 4, hcut _ 8 4, List.take_append_drop]

theorem length_groups (u : Uuid) : u.groups.map List.length = [8, 4, 4, 4, 12] := by
  simp [groups, u.length_eq]

theorem hyphen_not_mem_groups (u : Uuid) : ∀ g ∈ u.groups, '-' ∉ g := by
  intro g hg hmem
  have hflat : '-' ∈ u.groups.flatten := List.mem_flatten.2 ⟨g, hg, hmem⟩
  rw [flatten_groups] at hflat
  obtain ⟨d, -, hd⟩ := List.mem_map.1 hflat
  exact (hexChar_ne d).1 hd

theorem ofHyphenated?_toText (u : Uuid) : ofHyphenated? u.toText.toList = some u := by
  have hsplit : Text.splitOn '-' u.toText.toList = u.groups := by
    rw [toList_toText]
    exact Text.splitOn_joined (by simp [groups]) u.hyphen_not_mem_groups
  rw [ofHyphenated?, hsplit, if_pos u.length_groups, flatten_groups, ofDigits?_digits]

/-- The text of an identifier starts with a digit and has a hyphen further on. -/
theorem toList_toText_eq_cons (u : Uuid) :
    ∃ d rest, u.toText.toList = hexChar d :: rest ∧ '-' ∈ rest := by
  have hlen := u.length_eq
  cases hd : u.digits with
  | nil => simp [hd] at hlen
  | cons d ds =>
    refine ⟨d, (ds.map hexChar).take 7 ++ '-' :: Text.joined '-' u.groups.tail, ?_, by simp⟩
    simp [toList_toText, groups, hd, Text.joined]

theorem ofText?_toText (u : Uuid) : ofText? u.toText = some u := by
  obtain ⟨d, rest, htext, hhyphen⟩ := u.toList_toText_eq_cons
  obtain ⟨-, hbrace, hurn⟩ := hexChar_ne d
  have hbraces : inBraces? u.toText.toList = none := by
    rw [htext]
    unfold inBraces?
    split
    · next heq => exact absurd (List.cons.inj heq).1 hbrace
    · rfl
  have hafter : afterUrn? u.toText.toList = none := by
    rw [htext, afterUrn?, if_neg]
    simp [hurn]
  have hhas : u.toText.toList.contains '-' = true := by
    simp [htext, hhyphen]
  rw [ofText?, hbraces, hafter]
  simp only [hhas, if_true]
  exact u.ofHyphenated?_toText

theorem toText_injective : Function.Injective toText := fun u v h => by
  have hread : ofText? u.toText = ofText? v.toText := congrArg ofText? h
  rwa [ofText?_toText, ofText?_toText, Option.some.injEq] at hread

/-- A character that can stand in a spelling of an identifier. -/
def isSpelling (c : Char) : Bool :=
  (hexDigit? c).isSome || ['-', '\x7b', '\x7d'].contains c || "urn:uuid:".toList.contains c.toLower

theorem isSome_of_mapM_hexDigit? {cs : List Char} {ds : List (Fin 16)}
    (h : cs.mapM hexDigit? = some ds) : ∀ c ∈ cs, (hexDigit? c).isSome := by
  induction cs generalizing ds with
  | nil => simp
  | cons c cs ih =>
    rw [List.mapM_cons] at h
    obtain ⟨d, hd, h⟩ := Option.bind_eq_some_iff.1 h
    obtain ⟨rest, hrest, -⟩ := Option.bind_eq_some_iff.1 h
    rw [List.forall_mem_cons]
    exact ⟨by rw [hd]; rfl, ih hrest⟩

theorem isSpelling_of_ofDigits? {cs : List Char} {id : Uuid} (h : ofDigits? cs = some id) :
    ∀ c ∈ cs, isSpelling c := by
  obtain ⟨ds, hds, -⟩ := Option.bind_eq_some_iff.1 h
  intro c hc
  simp [isSpelling, isSome_of_mapM_hexDigit? hds c hc]

theorem isSpelling_of_ofHyphenated? {cs : List Char} {id : Uuid}
    (h : ofHyphenated? cs = some id) : ∀ c ∈ cs, isSpelling c := by
  rw [ofHyphenated?] at h
  split at h
  · intro c hc
    rw [← Text.joined_splitOn '-' cs] at hc
    rcases Text.mem_joined hc with rfl | hflat
    · decide
    · exact isSpelling_of_ofDigits? h c hflat
  · cases h

theorem eq_of_inBraces? {cs inner : List Char} (h : inBraces? cs = some inner) :
    cs = '\x7b' :: (inner ++ ['\x7d']) := by
  unfold inBraces? at h
  split at h
  · next rest =>
    split at h
    · next inner' hrest =>
      obtain rfl := Option.some.inj h
      rw [← List.reverse_reverse rest, hrest, List.reverse_cons]
    · cases h
  · cases h

/-- An identifier is spelled with digits, hyphens, braces and the letters of `urn:uuid:` only. -/
theorem isSpelling_of_ofText? {s : String} {id : Uuid} (h : ofText? s = some id) :
    ∀ c ∈ s.toList, isSpelling c := by
  rw [ofText?] at h
  split at h
  · next inner hinner =>
    rw [eq_of_inBraces? hinner]
    intro c hc
    rw [List.mem_cons, List.mem_append, List.mem_singleton] at hc
    rcases hc with rfl | hc | rfl
    · decide
    · exact isSpelling_of_ofHyphenated? h c hc
    · decide
  · split at h
    · next rest hrest =>
      rw [afterUrn?] at hrest
      split at hrest
      · next hurn =>
        cases hrest
        intro c hc
        rw [← List.take_append_drop 9 s.toList, List.mem_append] at hc
        rcases hc with hc | hc
        · have hmem : c.toLower ∈ "urn:uuid:".toList := hurn ▸ List.mem_map_of_mem hc
          rw [isSpelling, List.contains_iff_mem.2 hmem, Bool.or_true]
        · exact isSpelling_of_ofHyphenated? h c hc
      · cases hrest
    · split at h
      · exact isSpelling_of_ofHyphenated? h
      · exact isSpelling_of_ofDigits? h

end Uuid

end EventForge
