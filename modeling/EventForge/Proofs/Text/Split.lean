import EventForge.Text.Split
import Mathlib.Data.List.Forall2

/-!
# The pieces of a split text

Splitting at a separator cuts a text exactly at its separators: pieces hold none of them, every
character of a piece is one of the text, and a text in two parts splits into the pieces of both.
-/

namespace EventForge.Text

variable {sep : Char} {cs ds p : List Char}

theorem splitOn_cons_sep (sep : Char) (cs : List Char) :
    splitOn sep (sep :: cs) = [] :: splitOn sep cs := by
  rw [splitOn, if_pos rfl]

/-- A character that is no separator becomes part of the first piece. -/
theorem exists_splitOn_cons {c : Char} (h : c ≠ sep) (cs : List Char) :
    ∃ p ps, splitOn sep cs = p :: ps ∧ splitOn sep (c :: cs) = (c :: p) :: ps := by
  obtain ⟨p, ps, hps⟩ := List.exists_cons_of_ne_nil (splitOn_ne_nil sep cs)
  exact ⟨p, ps, hps, by rw [splitOn, if_neg h, hps]⟩

theorem splitOn_append_sep (sep : Char) (cs ds : List Char) :
    splitOn sep (cs ++ sep :: ds) = splitOn sep cs ++ splitOn sep ds := by
  induction cs with
  | nil => exact splitOn_cons_sep sep ds
  | cons c cs ih =>
    rw [List.cons_append]
    by_cases hc : c = sep
    · rw [hc, splitOn_cons_sep, splitOn_cons_sep, ih, List.cons_append]
    · obtain ⟨p, ps, hps, hcons⟩ := exists_splitOn_cons hc cs
      obtain ⟨p', ps', hps', hcons'⟩ := exists_splitOn_cons hc (cs ++ sep :: ds)
      rw [ih, hps, List.cons_append] at hps'
      obtain ⟨rfl, rfl⟩ := List.cons.inj hps'
      rw [hcons', hcons, List.cons_append]

theorem splitOn_of_not_mem (h : sep ∉ cs) : splitOn sep cs = [cs] := by
  induction cs with
  | nil => rfl
  | cons c cs ih =>
    rw [List.mem_cons, not_or] at h
    rw [splitOn, if_neg fun e => h.1 e.symm, ih h.2]

theorem mem_joined {ps : List (List Char)} {c : Char} (h : c ∈ joined sep ps) :
    c = sep ∨ c ∈ ps.flatten := by
  induction ps with
  | nil => cases h
  | cons p ps ih =>
    cases ps with
    | nil => exact .inr (by simpa [joined] using h)
    | cons q ps =>
      rw [joined, List.mem_append, List.mem_cons] at h
      rw [List.flatten_cons, List.mem_append]
      rcases h with h | rfl | h
      · exact .inr (.inl h)
      · exact .inl rfl
      · exact (ih h).imp_right .inr

/-- Each piece stands in the joined text. -/
theorem infix_joined {ps : List (List Char)} (h : p ∈ ps) : p <:+: joined sep ps := by
  induction ps with
  | nil => cases h
  | cons q ps ih =>
    cases ps with
    | nil =>
      obtain rfl := List.mem_singleton.1 h
      exact List.infix_rfl
    | cons q' ps =>
      rw [joined]
      rcases List.mem_cons.1 h with rfl | h
      · exact (List.prefix_append p _).isInfix
      · exact (ih h).trans ((List.suffix_cons sep _).trans (List.suffix_append q _)).isInfix

/-- Pieces without separators are what their joined text splits into. -/
theorem splitOn_joined {ps : List (List Char)} (hne : ps ≠ []) (h : ∀ p ∈ ps, sep ∉ p) :
    splitOn sep (joined sep ps) = ps := by
  induction ps with
  | nil => exact absurd rfl hne
  | cons p ps ih =>
    cases ps with
    | nil => exact splitOn_of_not_mem (h p (by simp))
    | cons q ps =>
      rw [joined, splitOn_append_sep, splitOn_of_not_mem (h p (by simp)),
        ih (by simp) fun p' hp' => h p' (List.mem_cons_of_mem _ hp'), List.singleton_append]

theorem cutFirst?_eq_none_iff : cutFirst? sep cs = none ↔ sep ∉ cs := by
  induction cs with
  | nil => simp [cutFirst?]
  | cons c cs ih =>
    rw [cutFirst?, List.mem_cons, not_or, eq_comm (a := sep)]
    split
    · next h => simp [h]
    · next h => simp [h, ih]

/-- A text is cut at the separator in front of which there is no other. -/
theorem cutFirst?_eq_some_iff {before after : List Char} :
    cutFirst? sep cs = some (before, after) ↔ cs = before ++ sep :: after ∧ sep ∉ before := by
  induction cs generalizing before with
  | nil => simp [cutFirst?]
  | cons c cs ih =>
    rw [cutFirst?]
    split
    · next h =>
      subst h
      cases before with
      | nil => simp [eq_comm]
      | cons b before => simp +contextual
    · next h =>
      cases before with
      | nil => simp [h]
      | cons b before =>
        rw [Option.map_eq_some_iff]
        constructor
        · rintro ⟨⟨a, d⟩, hrest, heq⟩
          obtain ⟨hfront, rfl⟩ := Prod.mk.inj heq
          obtain ⟨rfl, rfl⟩ := List.cons.inj hfront
          obtain ⟨rfl, hnot⟩ := ih.1 hrest
          exact ⟨rfl, by simp [Ne.symm h, hnot]⟩
        · rintro ⟨heq, hnot⟩
          obtain ⟨rfl, rfl⟩ := List.cons.inj heq
          rw [List.mem_cons, not_or] at hnot
          exact ⟨_, ih.2 ⟨rfl, hnot.2⟩, rfl⟩

theorem not_mem_of_cutLast?_eq_none (h : cutLast? sep cs = none) : sep ∉ cs := by
  induction cs with
  | nil => exact List.not_mem_nil
  | cons c cs ih =>
    rw [cutLast?] at h
    split at h
    · cases h
    · next hrest =>
      split at h
      · cases h
      · next hc =>
        rw [List.mem_cons, not_or]
        exact ⟨fun e => hc e.symm, ih hrest⟩

/-- Behind the last separator there is none. -/
theorem not_mem_of_cutLast? {before after : List Char}
    (h : cutLast? sep cs = some (before, after)) : sep ∉ after := by
  induction cs generalizing before with
  | nil => cases h
  | cons c cs ih =>
    rw [cutLast?] at h
    split at h
    · next hrest =>
      obtain ⟨-, rfl⟩ := Prod.mk.inj (Option.some.inj h)
      exact ih hrest
    · next hrest =>
      split at h
      · obtain ⟨-, rfl⟩ := Prod.mk.inj (Option.some.inj h)
        exact not_mem_of_cutLast?_eq_none hrest
      · cases h

/-- A text is cut at the separator behind which there is no other. -/
theorem cutLast?_append_sep (cs : List Char) (h : sep ∉ ds) :
    cutLast? sep (cs ++ sep :: ds) = some (cs, ds) := by
  have hnone : ∀ ds : List Char, sep ∉ ds → cutLast? sep ds = none := by
    intro ds hds
    induction ds with
    | nil => rfl
    | cons d ds ih =>
      rw [List.mem_cons, not_or] at hds
      simp [cutLast?, ih hds.2, Ne.symm hds.1]
  induction cs with
  | nil => simp [cutLast?, hnone ds h]
  | cons c cs ih => simp [cutLast?, ih]

theorem not_mem_of_mem_splitOn (h : p ∈ splitOn sep cs) : sep ∉ p := by
  induction cs generalizing p with
  | nil =>
    rw [splitOn, List.mem_singleton] at h
    simp [h]
  | cons c cs ih =>
    by_cases hc : c = sep
    · rw [hc, splitOn_cons_sep] at h
      rcases List.mem_cons.1 h with rfl | h
      · simp
      · exact ih h
    · obtain ⟨q, qs, hqs, hcons⟩ := exists_splitOn_cons hc cs
      rw [hqs] at ih
      rw [hcons] at h
      rcases List.mem_cons.1 h with rfl | h
      · have hq : sep ∉ q := ih List.mem_cons_self
        simp [Ne.symm hc, hq]
      · exact ih (List.mem_cons_of_mem q h)

theorem mem_of_mem_splitOn (h : p ∈ splitOn sep cs) {c : Char} (hc : c ∈ p) : c ∈ cs := by
  rw [← joined_splitOn sep cs]
  exact (infix_joined h).subset hc

/-- Text in front that holds no separator becomes part of the first piece. -/
theorem forall₂_splitOn_append_left (cs : List Char) (h : sep ∉ ds) :
    List.Forall₂ (· <:+ ·) (splitOn sep cs) (splitOn sep (ds ++ cs)) := by
  induction ds with
  | nil => exact List.forall₂_same.2 fun p _ => List.suffix_refl p
  | cons d ds ih =>
    rw [List.mem_cons, not_or] at h
    have hrest := ih h.2
    obtain ⟨p, ps, hps, hcons⟩ := exists_splitOn_cons (Ne.symm h.1) (ds ++ cs)
    rw [hps, List.forall₂_cons_right_iff] at hrest
    obtain ⟨q, qs, hq, hqs, heq⟩ := hrest
    rw [List.cons_append, hcons, heq]
    exact .cons (hq.trans (List.suffix_cons d p)) hqs

/-- Text behind that holds no separator becomes part of the last piece. -/
theorem forall₂_splitOn_append_right (cs : List Char) (h : sep ∉ ds) :
    List.Forall₂ (· <+: ·) (splitOn sep cs) (splitOn sep (cs ++ ds)) := by
  induction cs with
  | nil =>
    rw [List.nil_append, splitOn_of_not_mem h]
    exact .cons (List.nil_prefix) .nil
  | cons c cs ih =>
    rw [List.cons_append]
    by_cases hc : c = sep
    · rw [hc, splitOn_cons_sep, splitOn_cons_sep]
      exact .cons (List.prefix_refl []) ih
    · obtain ⟨p, ps, hps, hcons⟩ := exists_splitOn_cons hc cs
      obtain ⟨q, qs, hqs, hcons'⟩ := exists_splitOn_cons hc (cs ++ ds)
      rw [hps, hqs] at ih
      obtain ⟨hpq, hrest⟩ := List.forall₂_cons.1 ih
      rw [hcons, hcons']
      exact .cons ((List.prefix_cons_inj c).2 hpq) hrest

/-- Every piece of a text with more around it goes on from a piece of that text. -/
theorem exists_infix_of_mem_splitOn {front back : List Char} (hfront : sep ∉ front)
    (hback : sep ∉ back) (hp : p ∈ splitOn sep (front ++ cs ++ back)) :
    ∃ q ∈ splitOn sep cs, q <:+: p := by
  have hright := forall₂_splitOn_append_right (front ++ cs) hback
  have hleft := forall₂_splitOn_append_left cs hfront
  obtain ⟨i, hi, rfl⟩ := List.getElem_of_mem hp
  have hi' : i < (splitOn sep (front ++ cs)).length := by rwa [hright.length_eq]
  have hi'' : i < (splitOn sep cs).length := by rwa [hleft.length_eq]
  exact ⟨_, List.getElem_mem hi'', (hleft.get hi'' hi').isInfix.trans (hright.get hi' hi).isInfix⟩

theorem exists_mem_splitOn {c : Char} (hc : c ∈ cs) (hne : c ≠ sep) :
    ∃ p ∈ splitOn sep cs, c ∈ p := by
  rw [← joined_splitOn sep cs] at hc
  exact List.mem_flatten.1 ((mem_joined hc).resolve_left hne)

theorem pieces_append (sep : Char) (a b : String) :
    pieces sep (a ++ String.singleton sep ++ b) = pieces sep a ++ pieces sep b := by
  have h : (a ++ String.singleton sep ++ b).toList = a.toList ++ sep :: b.toList := by simp
  rw [pieces, h, splitOn_append_sep, List.map_append]
  rfl

theorem not_mem_of_mem_pieces {s piece : String} (h : piece ∈ pieces sep s) :
    sep ∉ piece.toList := by
  obtain ⟨p, hp, rfl⟩ := List.mem_map.1 h
  rw [String.toList_ofList]
  exact not_mem_of_mem_splitOn hp

theorem mem_of_mem_pieces {s piece : String} (h : piece ∈ pieces sep s) {c : Char}
    (hc : c ∈ piece.toList) : c ∈ s.toList := by
  obtain ⟨p, hp, rfl⟩ := List.mem_map.1 h
  rw [String.toList_ofList] at hc
  exact mem_of_mem_splitOn hp hc

end EventForge.Text
