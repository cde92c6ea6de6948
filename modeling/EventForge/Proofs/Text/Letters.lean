import EventForge.Namespace
import EventForge.Proofs.Text.Casing

/-!
# Letters in another case

The case of a letter is changed into letters, but for the few whose image has a combining mark of
its own, which is no part of an identifier: `ǰ` has the capital `J` with a caron, and the small
letter of `İ` is `i` with a dot (`isIdentifier_recased_iff`). No blank is a letter or a digit.
-/

namespace EventForge.Text

open NamespaceChoice (isIdentifier isIdentifierStart isIdentifierPart)

/-! ## Classes of characters -/

/-- No code point is in ranges of both lists. -/
def disjoint (rs ss : List (Nat × Nat)) : Bool :=
  rs.all fun r => ss.all fun s => r.2 < s.1 || s.2 < r.1

theorem inRanges_eq_false_of_disjoint {rs ss : List (Nat × Nat)} (h : disjoint rs ss) {c : Char}
    (hc : inRanges rs c) : inRanges ss c = false := by
  obtain ⟨r, hr, hfirst, hlast⟩ := inRanges_iff.1 hc
  rw [← Bool.not_eq_true, inRanges_iff]
  rintro ⟨s, hs, hfirst', hlast'⟩
  have hapart := List.all_eq_true.1 (List.all_eq_true.1 h r hr) s hs
  simp only [Bool.or_eq_true, decide_eq_true_eq] at hapart
  omega

theorem not_isIdentifierPart_of_isBlank {c : Char} (h : isBlank c) :
    isIdentifierPart c = false := by
  have hletters : disjoint blankRanges alphabeticRanges := by decide +kernel
  have hdigits : disjoint blankRanges numericRanges := by decide +kernel
  have hsigns : isBlank '_' = false ∧ isBlank '$' = false := by decide +kernel
  have hunderscore : c ≠ '_' := by
    rintro rfl
    simp [hsigns.1] at h
  have hdollar : c ≠ '$' := by
    rintro rfl
    simp [hsigns.2] at h
  simp [isIdentifierPart, isAlphanumeric, isAlphabetic, isNumeric, hunderscore, hdollar,
    inRanges_eq_false_of_disjoint hletters h, inRanges_eq_false_of_disjoint hdigits h]

theorem isIdentifierPart_of_isIdentifierStart {c : Char} (h : isIdentifierStart c) :
    isIdentifierPart c := by
  simp only [isIdentifierStart, Bool.or_eq_true] at h
  simp only [isIdentifierPart, isAlphanumeric, Bool.or_eq_true]
  exact h.imp_left (Or.imp_left .inl)

/-- A text of identifier parts behind an identifier leaves it one. -/
theorem isIdentifier_append {ds cs : List Char} (hne : ds ≠ []) (hcs : cs.all isIdentifierPart) :
    isIdentifier (String.ofList (ds ++ cs)) = isIdentifier (String.ofList ds) := by
  cases ds with
  | nil => exact absurd rfl hne
  | cons d ds => simp [isIdentifier, hcs]

/-! ## The images of letters -/

/-- The code point of a letter. The tables are long, so the comparisons are those that the kernel
computes by itself. -/
def isLetterCode (n : Nat) : Bool :=
  alphabeticRanges.any fun s => Nat.ble s.1 n && Nat.ble n s.2

theorem isLetterCode_of_mem {s : Nat × Nat} (hs : s ∈ alphabeticRanges) {n : Nat} (hfirst : s.1 ≤ n)
    (hlast : n ≤ s.2) : isLetterCode n :=
  List.any_eq_true.2 ⟨s, hs, by simp [Nat.ble_eq, hfirst, hlast]⟩

/-- The ranges of letters leave out the code points that are no characters. -/
theorem isValidChar_of_isLetterCode {n : Nat} (h : isLetterCode n) : n.isValidChar := by
  have hvalid : alphabeticRanges.all fun s =>
      Nat.ble s.2 0xD7FF || Nat.ble 0xE000 s.1 && Nat.ble s.2 0x10FFFF := by decide +kernel
  obtain ⟨s, hs, hmem⟩ := List.any_eq_true.1 h
  have hrange := List.all_eq_true.1 hvalid s hs
  simp only [Bool.and_eq_true, Bool.or_eq_true, Nat.ble_eq] at hmem hrange
  simp only [Nat.isValidChar]
  omega

theorem isAlphabetic_ofNat {n : Nat} (h : isLetterCode n) : isAlphabetic (Char.ofNat n) := by
  obtain ⟨s, hs, hmem⟩ := List.any_eq_true.1 h
  rw [isAlphabetic, inRanges_iff, toNat_ofNat (isValidChar_of_isLetterCode h)]
  exact ⟨s, hs, by simpa [Nat.ble_eq] using hmem⟩

/-- All images of the run are letters: most runs go into one range of letters. -/
def CaseRun.givesLetters (r : CaseRun) : Bool :=
  (alphabeticRanges.any fun s =>
      Nat.ble s.1 r.target && Nat.ble (r.target + (r.last - r.first)) s.2) ||
    (List.range (r.last - r.first + 1)).all fun d => d % r.step ≠ 0 || isLetterCode (r.target + d)

theorem upperRuns_givesLetters : upperRuns.all CaseRun.givesLetters := by decide +kernel

theorem lowerRuns_givesLetters : lowerRuns.all CaseRun.givesLetters := by decide +kernel

theorem isLetterCode_of_image? {r : CaseRun} (hr : r.givesLetters) {n k : Nat}
    (h : r.image? n = some k) : isLetterCode k := by
  rw [CaseRun.image?] at h
  split at h
  · next hmem =>
    obtain ⟨hfirst, hlast, hstep⟩ := hmem
    obtain rfl := Option.some.inj h
    rcases Bool.or_eq_true _ _ ▸ hr with hone | hall
    · obtain ⟨s, hs, hrange⟩ := List.any_eq_true.1 hone
      simp only [Bool.and_eq_true, Nat.ble_eq] at hrange
      exact isLetterCode_of_mem hs (by omega) (by omega)
    · have hd := List.all_eq_true.1 hall (n - r.first) (List.mem_range.2 (by omega))
      simpa [hstep] using hd
  · cases h

/-- The image of a character is the character itself, a letter, or listed as an expansion. -/
theorem caseImage_cases {runs : List CaseRun} (hruns : runs.all CaseRun.givesLetters)
    (expansions : List (Nat × List Nat)) (c : Char) :
    caseImage runs expansions c = [c] ∨
      (∃ u, isAlphabetic u ∧ caseImage runs expansions c = [u]) ∨
      ∃ ns, (c.toNat, ns) ∈ expansions ∧ caseImage runs expansions c = ns.map Char.ofNat := by
  rw [caseImage]
  split
  · next n hn =>
    obtain ⟨r, hr, himage⟩ := List.exists_of_findSome?_eq_some hn
    have hletter := isLetterCode_of_image? (List.all_eq_true.1 hruns r hr) himage
    exact .inr (.inl ⟨_, isAlphabetic_ofNat hletter, rfl⟩)
  · split
    · next ns hns =>
      obtain ⟨before, after, hsplit, -⟩ := List.lookup_eq_some_iff.1 hns
      exact .inr (.inr ⟨ns, by simp [hsplit], rfl⟩)
    · exact .inl rfl

/-- What a character in front of a text becomes when the text is capitalized and its first character
is put into lower case again. -/
def recased (c : Char) : List Char :=
  match upperChar c with
  | [] => []
  | u :: us => lowerChar u ++ us

theorem lowerFirst_capitalizeFirst {s : String} {c : Char} {cs : List Char}
    (h : s.toList = c :: cs) :
    lowerFirst (capitalizeFirst s) = String.ofList (recased c ++ cs) := by
  have hcapital : capitalizeFirst s = String.ofList (upperChar c ++ cs) := by
    simp [capitalizeFirst, mapFirst, h]
  cases hc : upperChar c with
  | nil => exact absurd hc (upperChar_ne_nil c)
  | cons u us => simp [hcapital, lowerFirst, mapFirst, recased, hc]

theorem recased_ne_nil (c : Char) : recased c ≠ [] := by
  rw [recased]
  split
  · next h => exact absurd h (upperChar_ne_nil c)
  · next u us h => simp [lowerChar_ne_nil]

/-- The letters that get a combining mark of their own when they are recased. -/
def markedLetters : List Nat :=
  [0x130, 0x1F0, 0x390, 0x3B0, 0x1E96, 0x1E97, 0x1E98, 0x1E99, 0x1F50, 0x1F52, 0x1F54, 0x1F56,
   0x1FB6, 0x1FB7, 0x1FC6, 0x1FC7, 0x1FD2, 0x1FD3, 0x1FD6, 0x1FD7, 0x1FE2, 0x1FE3, 0x1FE4, 0x1FE6,
   0x1FE7, 0x1FF6, 0x1FF7]

/-- The marks that they get. -/
def marks : List Char := [0x307, 0x30C, 0x308, 0x331, 0x30A, 0x313, 0x342].map Char.ofNat

def isMarked (c : Char) : Bool := markedLetters.contains c.toNat

theorem not_isIdentifierPart_of_mem_marks {x : Char} (h : x ∈ marks) :
    isIdentifierPart x = false := by
  have hall : marks.all fun x => !isIdentifierPart x := by decide +kernel
  simpa using List.all_eq_true.1 hall x h

theorem not_isIdentifier_of_mem {cs : List Char} {x : Char} (hx : x ∈ cs)
    (hpart : isIdentifierPart x = false) : isIdentifier (String.ofList cs) = false := by
  rw [← Bool.not_eq_true]
  intro h
  cases cs with
  | nil => cases hx
  | cons c cs =>
    simp only [isIdentifier, String.toList_ofList, Bool.and_eq_true] at h
    rcases List.mem_cons.1 hx with rfl | hx
    · rw [isIdentifierPart_of_isIdentifierStart h.1] at hpart
      cases hpart
    · rw [List.all_eq_true.1 h.2 x hx] at hpart
      cases hpart

theorem not_isIdentifier_recased {c : Char} (h : isMarked c) :
    isIdentifier (String.ofList (recased c)) = false := by
  have hall : markedLetters.all fun n => (recased (Char.ofNat n)).any marks.contains := by
    decide
  have hmark := List.all_eq_true.1 hall _ (List.contains_iff_mem.1 h)
  rw [Char.ofNat_toNat] at hmark
  obtain ⟨x, hx, hmarks⟩ := List.any_eq_true.1 hmark
  have hpart := not_isIdentifierPart_of_mem_marks (List.contains_iff_mem.1 hmarks)
  exact not_isIdentifier_of_mem hx hpart

/-- The small letter of a letter is an identifier, but for the one letter with an expansion. -/
theorem isIdentifier_lowerChar {c : Char} (hc : isIdentifierStart c) (hdotted : c.toNat ≠ 0x130) :
    isIdentifier (String.ofList (lowerChar c)) := by
  rcases caseImage_cases lowerRuns_givesLetters lowerExpansions c with h | ⟨u, hu, h⟩ | ⟨ns, hns, -⟩
  · rw [lowerChar, h]
    simp [isIdentifier, hc]
  · rw [lowerChar, h]
    simp [isIdentifier, isIdentifierStart, hu]
  · simp [lowerExpansions, hdotted] at hns

/-- A capital of several characters is made of letters when the small letter is not marked. -/
def lettersOnly (e : Nat × List Nat) : Bool :=
  markedLetters.contains e.1 || e.2.all isLetterCode && e.2.head? ≠ some 0x130

/-- The letter with an expansion in lower case is no capital of another one. -/
theorem toNat_ne_of_upperChar {c u : Char} (hu : u ∈ upperChar c) (hdotted : c.toNat ≠ 0x130) :
    u.toNat ≠ 0x130 := by
  have hno : isNoImage upperRuns upperExpansions 0x130 := by decide
  intro hu130
  rw [← hu130] at hno
  have hne : u ≠ Char.ofNat 0 := by
    rintro rfl
    simp at hu130
  rw [eq_of_mem_caseImage hno hne hu] at hdotted
  exact hdotted hu130

/-- A letter whose capital is spelled with several characters, none of them a mark. -/
theorem isIdentifier_recased_of_expansion {c : Char} {ns : List Nat}
    (hns : (c.toNat, ns) ∈ upperExpansions) (h : upperChar c = ns.map Char.ofNat)
    (hplain : ¬ isMarked c) : isIdentifier (String.ofList (recased c)) := by
  have hall : upperExpansions.all lettersOnly := by decide +kernel
  have hletters := (Bool.or_eq_true _ _ ▸ List.all_eq_true.1 hall _ hns).resolve_left hplain
  cases ns with
  | nil => exact absurd h (upperChar_ne_nil c)
  | cons n ns =>
    simp only [Bool.and_eq_true, List.all_cons, List.head?_cons, decide_eq_true_eq, ne_eq,
      Option.some.injEq] at hletters
    obtain ⟨⟨hn, hrest⟩, hn130⟩ := hletters
    have hstart : isIdentifierStart (Char.ofNat n) := by
      simp [isIdentifierStart, isAlphabetic_ofNat hn]
    have hdotted : (Char.ofNat n).toNat ≠ 0x130 := by
      rwa [toNat_ofNat (isValidChar_of_isLetterCode hn)]
    have hparts : (ns.map Char.ofNat).all isIdentifierPart := by
      rw [List.all_map, List.all_eq_true]
      intro m hm
      have hm' := isAlphabetic_ofNat (List.all_eq_true.1 hrest m hm)
      simp [isIdentifierPart, isAlphanumeric, hm']
    have hrecased : recased c = lowerChar (Char.ofNat n) ++ ns.map Char.ofNat := by
      simp [recased, h]
    rw [hrecased, isIdentifier_append (lowerChar_ne_nil _) hparts]
    exact isIdentifier_lowerChar hstart hdotted

/-- A letter that is recased gives an identifier exactly when it is not marked. -/
theorem isIdentifier_recased_iff {c : Char} (hc : isIdentifierStart c) :
    isIdentifier (String.ofList (recased c)) ↔ ¬ isMarked c := by
  constructor
  · intro h hmarked
    rw [not_isIdentifier_recased hmarked] at h
    cases h
  intro hplain
  have hdotted : c.toNat ≠ 0x130 := by
    intro h
    simp [isMarked, markedLetters, h] at hplain
  have hrecased {u : Char} (h : upperChar c = [u]) : recased c = lowerChar u := by
    simp [recased, h]
  rcases caseImage_cases upperRuns_givesLetters upperExpansions c with h | ⟨u, hu, h⟩ | ⟨ns, hns, h⟩
  · rw [hrecased h]
    exact isIdentifier_lowerChar hc hdotted
  · have hmem : u ∈ upperChar c := by simp [upperChar, h]
    rw [hrecased h]
    exact isIdentifier_lowerChar (by simp [isIdentifierStart, hu])
      (toNat_ne_of_upperChar hmem hdotted)
  · exact isIdentifier_recased_of_expansion hns h hplain

end EventForge.Text
