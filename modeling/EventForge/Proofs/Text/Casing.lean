import EventForge.Text.Casing

/-!
# Characters and their images

Words of lower-case letters and hyphens, such as the tags of a format, are their own image in lower
case. Signs that no other character is mapped to only come from themselves (`plainSigns`).
-/

namespace EventForge.Text

/-- The characters that tags are made from. -/
def tagChars : List Char := "abcdefghijklmnopqrstuvwxyz-".toList

def isTag (s : String) : Bool := s.toList.all tagChars.contains

theorem lowerChar_of_tagChar {c : Char} (h : c ∈ tagChars) : lowerChar c = [c] := by
  have hall : tagChars.all fun c => lowerChar c = [c] := by decide +kernel
  simpa using List.all_eq_true.1 hall c h

theorem lower_of_isTag {s : String} (h : isTag s) : lower s = s := by
  have htag : ∀ c ∈ s.toList, c ∈ tagChars := by simpa [isTag] using h
  have hmap : s.toList.flatMap lowerChar = s.toList := by
    generalize s.toList = cs at htag
    induction cs with
    | nil => rfl
    | cons c cs ih =>
      rw [List.flatMap_cons, lowerChar_of_tagChar (htag c (by simp)),
        ih fun c' hc' => htag c' (List.mem_cons_of_mem _ hc'), List.singleton_append]
  rw [lower, hmap, String.ofList_toList]

/-- No run and no expansion leads to the code point. -/
def isNoImage (runs : List CaseRun) (expansions : List (Nat × List Nat)) (n : Nat) : Bool :=
  runs.all (fun r => n < r.target || r.target + (r.last - r.first) < n)
    && expansions.all fun e => !e.2.contains n

theorem toNat_ofNat {n : Nat} (hn : n.isValidChar) : (Char.ofNat n).toNat = n := by
  have hof : Char.ofNat n = Char.ofNatAux n hn := dif_pos hn
  rw [hof]
  rfl

theorem toNat_of_ofNat_eq {n : Nat} {c : Char} (hc : c ≠ Char.ofNat 0) (h : Char.ofNat n = c) :
    c.toNat = n := by
  by_cases hn : n.isValidChar
  · rw [← h, toNat_ofNat hn]
  · have hof : Char.ofNat n = Char.ofNat 0 := dif_neg hn
    exact absurd (h.symm.trans hof) hc

/-- A character that no run and no expansion leads to is the image of itself alone. -/
theorem eq_of_mem_caseImage {runs : List CaseRun} {expansions : List (Nat × List Nat)} {x c : Char}
    (hx : isNoImage runs expansions x.toNat) (hne : x ≠ Char.ofNat 0)
    (h : x ∈ caseImage runs expansions c) : c = x := by
  rw [isNoImage, Bool.and_eq_true] at hx
  obtain ⟨hruns, hexpansions⟩ := hx
  rw [caseImage] at h
  split at h
  · next n hn =>
    obtain ⟨r, hr, hrun⟩ := List.exists_of_findSome?_eq_some hn
    have hn' := toNat_of_ofNat_eq hne (List.mem_singleton.1 h).symm
    rw [CaseRun.image?] at hrun
    split at hrun
    · have hrange := List.all_eq_true.1 hruns r hr
      simp only [Option.some.injEq, Bool.or_eq_true, decide_eq_true_eq] at hrun hrange
      omega
    · cases hrun
  · split at h
    · next ns hns =>
      obtain ⟨n, hn, hnx⟩ := List.mem_map.1 h
      obtain ⟨before, after, hsplit, -⟩ := List.lookup_eq_some_iff.1 hns
      have hmem : (c.toNat, ns) ∈ expansions := by simp [hsplit]
      have hno := List.all_eq_true.1 hexpansions _ hmem
      rw [toNat_of_ofNat_eq hne hnx] at hno
      simp [hn] at hno
    · exact (List.mem_singleton.1 h).symm

/-- Signs that are the image of themselves alone, in both cases. -/
def plainSigns : List Char := ['/', '\\', '_', '\n', '.']

theorem eq_of_plainSign {runs : List CaseRun} {expansions : List (Nat × List Nat)}
    (hall : plainSigns.all fun x => isNoImage runs expansions x.toNat && x ≠ Char.ofNat 0)
    {x c : Char} (hx : x ∈ plainSigns) (h : x ∈ caseImage runs expansions c) : c = x := by
  have hx' := List.all_eq_true.1 hall x hx
  simp only [Bool.and_eq_true, decide_eq_true_eq] at hx'
  exact eq_of_mem_caseImage hx'.1 hx'.2 h

theorem eq_of_mem_upperChar {x c : Char} (hx : x ∈ plainSigns) (h : x ∈ upperChar c) : c = x :=
  eq_of_plainSign (by decide) hx h

theorem eq_of_mem_lowerChar {x c : Char} (hx : x ∈ plainSigns) (h : x ∈ lowerChar c) : c = x :=
  eq_of_plainSign (by decide) hx h

theorem caseImage_ne_nil {expansions : List (Nat × List Nat)}
    (hall : expansions.all fun e => e.2 ≠ []) (runs : List CaseRun) (c : Char) :
    caseImage runs expansions c ≠ [] := by
  rw [caseImage]
  split
  · simp
  · split
    · next ns hns =>
      obtain ⟨before, after, hsplit, -⟩ := List.lookup_eq_some_iff.1 hns
      have hmem : (c.toNat, ns) ∈ expansions := by simp [hsplit]
      have hne := List.all_eq_true.1 hall _ hmem
      simpa using hne
    · simp

theorem upperChar_ne_nil (c : Char) : upperChar c ≠ [] :=
  caseImage_ne_nil (by decide) upperRuns c

theorem lowerChar_ne_nil (c : Char) : lowerChar c ≠ [] :=
  caseImage_ne_nil (by decide) lowerRuns c

theorem not_mem_mapFirst {f : Char → List Char} {x : Char} (hf : ∀ c, x ∈ f c → c = x) {s : String}
    (h : x ∉ s.toList) : x ∉ (mapFirst f s).toList := by
  rw [mapFirst]
  split
  · exact List.not_mem_nil
  · next c cs hcs =>
    rw [hcs, List.mem_cons, not_or] at h
    rw [String.toList_ofList, List.mem_append, not_or]
    exact ⟨fun hc => h.1 (hf c hc).symm, h.2⟩

/-- A plain sign that is not in a text is not there after its first character changed its case. -/
theorem not_mem_capitalizeFirst {x : Char} (hx : x ∈ plainSigns) {s : String} (h : x ∉ s.toList) :
    x ∉ (capitalizeFirst s).toList :=
  not_mem_mapFirst (fun _ => eq_of_mem_upperChar hx) h

theorem not_mem_lowerFirst {x : Char} (hx : x ∈ plainSigns) {s : String} (h : x ∉ s.toList) :
    x ∉ (lowerFirst s).toList :=
  not_mem_mapFirst (fun _ => eq_of_mem_lowerChar hx) h

theorem toList_upper (s : String) : (upper s).toList = s.toList.flatMap upperChar := by
  simp [upper]

/-- Underscores in upper case were there before. -/
theorem underscore_mem_upper {s : String} (h : '_' ∈ (upper s).toList) : '_' ∈ s.toList := by
  rw [toList_upper, List.mem_flatMap] at h
  obtain ⟨c, hc, hmem⟩ := h
  exact eq_of_mem_upperChar (by decide) hmem ▸ hc

end EventForge.Text
