import EventForge.Java.Node
import EventForge.Proofs.Java.Lexical
import Mathlib.Data.List.DropRight

/-!
# Reading string literals

What is written between the quotes of a literal consists of parts: an escape, or a character that
stands for itself. No part ends in an odd number of backslashes but an escape that a `u` does not go
on, so no unicode escape is opened (`not_hasUnicodeEscape_flatten`); and a reader that knows all
escapes of Java reads parts one by one, so it finds the text again and ends at the closing quote
(`readFrom_escape`).
-/

namespace EventForge.Java

namespace Lexical

/-- An escaped character is a backslash with a letter or sign behind it, or stands for itself. -/
theorem escapeChar_eq (c : Char) :
    (∃ d ∈ ['\\', '"', 'n', 't', 'r'], Literal.escapeChar c = ['\\', d]) ∨
      (Literal.escapeChar c = [c] ∧ c ≠ '\\' ∧ c ≠ '"' ∧ ¬ isLineEnd c) := by
  rw [Literal.escapeChar.eq_def]
  split
  · exact .inl ⟨'\\', by simp, rfl⟩
  · exact .inl ⟨'"', by simp, rfl⟩
  · exact .inl ⟨'n', by simp, rfl⟩
  · exact .inl ⟨'t', by simp, rfl⟩
  · exact .inl ⟨'r', by simp, rfl⟩
  · next hback hquote hfeed _ hreturn =>
    exact .inr ⟨rfl, hback, hquote, by simpa [isLineEnd] using ⟨hfeed, hreturn⟩⟩

/-- What stands in a literal holds no unicode escape. -/
theorem translate_escape (cs ds : List Char) :
    translate (Literal.escape cs ++ ds) = Literal.escape cs ++ translate ds := by
  have hpair : ∀ d ∈ ['\\', '"', 'n', 't', 'r'], ∀ rest,
      translate ('\\' :: d :: rest) = '\\' :: d :: translate rest := by
    intro d hd rest
    simp only [List.mem_cons, List.not_mem_nil, or_false] at hd
    rcases hd with rfl | rfl | rfl | rfl | rfl <;>
      simp [translate, translateFrom, escaped] <;> split <;> simp [translateFrom]
  induction cs with
  | nil => rfl
  | cons c cs ih =>
    rw [Literal.escape, List.flatMap_cons, ← Literal.escape, List.append_assoc]
    obtain ⟨d, hd, hc⟩ | ⟨hc, hback, -⟩ := escapeChar_eq c
    · rw [hc, List.append_assoc]
      exact (hpair d hd _).trans (congrArg _ (congrArg _ ih))
    · rw [hc, List.append_assoc, translate_append_of_not_mem (by simpa using Ne.symm hback), ih]

/-- The characters that a letter or sign behind a backslash stands for. -/
def escapes : List (Char × Char) :=
  [('b', Char.ofNat 8), ('s', ' '), ('t', '\t'), ('n', '\n'), ('f', Char.ofNat 12), ('r', '\r'),
    ('"', '"'), (apostrophe, apostrophe), ('\\', '\\')]

/-- The octal digits of an escape: at most three, and at most two when the first is above three. -/
def octalDigits (cs : List Char) : List Char :=
  (cs.takeWhile fun c => '0' ≤ c ∧ c ≤ '7').take (if cs.head?.any (· ≤ '3') then 3 else 2)

/-- What a backslash in front of `cs` stands for, and how many characters of `cs` belong to it. -/
def escape? (cs : List Char) : Option (Char × Nat) :=
  match cs.head?.bind fun c => escapes.lookup c with
  | some c => some (c, 1)
  | none =>
    if octalDigits cs = [] then none
    else some (Char.ofNat (Nat.ofDigitChars 8 (octalDigits cs) 0), (octalDigits cs).length)

/-- The text of a string literal up to its closing quote, and what stands behind the quote; the first
`skip` characters belong to an escape. A literal ends on the line it begins on. -/
def readFrom : Nat → List Char → Option (List Char × List Char)
  | _, [] => none
  | skip + 1, _ :: cs => readFrom skip cs
  | 0, c :: cs =>
    if c = '"' then some ([], cs)
    else if isLineEnd c then none
    else if c = '\\' then
      (escape? cs).bind fun (d, used) =>
        (readFrom used cs).map fun (value, rest) => (d :: value, rest)
    else (readFrom 0 cs).map fun (value, rest) => (c :: value, rest)

/-- The text of a string literal in Java source and what stands behind it, read from behind the
opening quote: unicode escapes are replaced first. -/
def literal? (source : List Char) : Option (List Char × List Char) := readFrom 0 (translate source)

/-- One of the escapes for a backslash, a quote, a line feed, a tab and a carriage return, or a
character that may stand for itself between quotes. -/
def IsPart (part : List Char) : Prop :=
  (∃ d ∈ ['\\', '"', 'n', 't', 'r'], part = ['\\', d]) ∨
    ∃ c, part = [c] ∧ c ≠ '\\' ∧ c ≠ '"' ∧ ¬ isLineEnd c

/-- The backslashes at the end of a text. -/
def endingBackslashes (cs : List Char) : Nat := (cs.rtakeWhile (· = '\\')).length

/-- A backslash opens a unicode escape when a `u` stands behind it and an even number of backslashes
directly in front of it. -/
def HasUnicodeEscape (cs : List Char) : Prop :=
  ∃ before after, cs = before ++ '\\' :: 'u' :: after ∧ endingBackslashes before % 2 = 0

/-- What may stand between the quotes of a literal. -/
structure IsLiteralBody (body : List Char) : Prop where
  no_line_end : ∀ c ∈ body, ¬ isLineEnd c
  parts : ∃ parts : List (List Char), body = parts.flatten ∧ ∀ part ∈ parts, IsPart part
  no_unicode_escape : ¬ HasUnicodeEscape body

theorem isPart_escapeChar (c : Char) : IsPart (Literal.escapeChar c) :=
  (escapeChar_eq c).imp_right fun h => ⟨c, h⟩

theorem IsPart.not_isLineEnd {part : List Char} (h : IsPart part) : ∀ c ∈ part, ¬ isLineEnd c := by
  obtain ⟨d, hd, rfl⟩ | ⟨c, rfl, -, -, hc⟩ := h
  · revert d
    simp [isLineEnd]
  · simpa using hc

theorem IsPart.endingBackslashes_even {part : List Char} (h : IsPart part) :
    endingBackslashes part % 2 = 0 := by
  obtain ⟨d, hd, rfl⟩ | ⟨c, rfl, hc, -⟩ := h
  · revert d
    simp [endingBackslashes, List.rtakeWhile]
  · simp [endingBackslashes, List.rtakeWhile, hc]

/-- Backslashes at the end of a text are counted from the other end when its front has an even
number of them. -/
theorem endingBackslashes_append {cs : List Char} (h : endingBackslashes cs % 2 = 0)
    (ds : List Char) : endingBackslashes (cs ++ ds) % 2 = endingBackslashes ds % 2 := by
  have hends : ∀ cs : List Char,
      endingBackslashes cs = (cs.reverse.takeWhile (· = '\\')).length := by
    simp [endingBackslashes, List.rtakeWhile]
  rw [hends] at h
  rw [hends, hends, List.reverse_append, List.takeWhile_append]
  split
  · next hall =>
    rw [List.length_append, ← hall]
    omega
  · rfl

/-- A backslash in a part is the first of its escape, or has the first directly in front of it. -/
theorem IsPart.of_backslash {before after : List Char}
    (h : IsPart (before ++ '\\' :: after)) :
    (before = [] ∧ ∃ d ∈ ['\\', '"', 'n', 't', 'r'], after = [d]) ∨ before = ['\\'] := by
  obtain ⟨d, hd, heq⟩ | ⟨c, heq, hc, -⟩ := h
  · match before, heq with
    | [], heq => exact .inl ⟨rfl, d, hd, (List.cons.inj heq).2⟩
    | [b], heq => exact .inr (by rw [(List.cons.inj heq).1])
    | _ :: _ :: before, heq => simp at heq
  · match before, heq with
    | [], heq => exact absurd (List.cons.inj heq).1.symm hc
    | _ :: before, heq => simp at heq

theorem not_hasUnicodeEscape_flatten {parts : List (List Char)} (h : ∀ part ∈ parts, IsPart part) :
    ¬ HasUnicodeEscape parts.flatten := by
  induction parts with
  | nil =>
    rintro ⟨before, after, heq, -⟩
    simp at heq
  | cons part parts ih =>
    rw [List.forall_mem_cons] at h
    rintro ⟨before, after, heq, heven⟩
    rw [List.flatten_cons, List.append_eq_append_iff] at heq
    obtain ⟨front, rfl, hrest⟩ | ⟨back, hpart, hrest⟩ := heq
    · -- the backslash stands behind the part
      rw [endingBackslashes_append h.1.endingBackslashes_even] at heven
      exact ih h.2 ⟨front, after, hrest, heven⟩
    · cases back with
      | nil => exact ih h.2 ⟨[], after, hrest.symm, rfl⟩
      | cons c back =>
        obtain ⟨rfl, hmark⟩ := List.cons.inj hrest
        obtain ⟨rfl, d, hd, rfl⟩ | rfl := (hpart ▸ h.1).of_backslash
        · obtain rfl : 'u' = d := (List.cons.inj hmark).1
          exact absurd hd (by decide)
        · exact absurd heven (by decide)

theorem escape?_of_escapeChar {c d : Char} (h : Literal.escapeChar c = ['\\', d])
    (rest : List Char) : escape? (d :: rest) = some (c, 1) := by
  rw [Literal.escapeChar.eq_def] at h
  split at h <;> cases h <;> rfl

theorem readFrom_escape (cs rest : List Char) :
    readFrom 0 (Literal.escape cs ++ '"' :: rest) = some (cs, rest) := by
  induction cs with
  | nil => rfl
  | cons c cs ih =>
    rw [Literal.escape, List.flatMap_cons, ← Literal.escape, List.append_assoc]
    obtain ⟨d, -, hc⟩ | ⟨hc, hback, hquote, hend⟩ := escapeChar_eq c
    · rw [hc]
      simp only [List.cons_append, List.nil_append]
      rw [readFrom, if_neg (by decide), if_neg (by decide), if_pos rfl, escape?_of_escapeChar hc]
      simp [readFrom, ih]
    · rw [hc, List.singleton_append, readFrom, if_neg hquote, if_neg hend, if_neg hback, ih]
      rfl

theorem isLiteralBody_escape (cs : List Char) : IsLiteralBody (Literal.escape cs) := by
  have hparts : ∀ part ∈ cs.map Literal.escapeChar, IsPart part := by
    intro part hpart
    obtain ⟨c, -, rfl⟩ := List.mem_map.1 hpart
    exact isPart_escapeChar c
  have hbody : Literal.escape cs = (cs.map Literal.escapeChar).flatten :=
    List.flatMap_def
  refine ⟨?_, ⟨_, hbody, hparts⟩, hbody ▸ not_hasUnicodeEscape_flatten hparts⟩
  intro c hc
  rw [hbody] at hc
  obtain ⟨part, hpart, hmem⟩ := List.mem_flatten.1 hc
  exact (hparts part hpart).not_isLineEnd c hmem

/-- A literal for a text is read as that text, up to its closing quote. -/
theorem literal?_escape (cs rest : List Char) :
    literal? (Literal.escape cs ++ '"' :: rest) = some (cs, translate rest) := by
  have hquote : translate ('"' :: rest) = '"' :: translate rest :=
    translate_append_of_not_mem (by decide : '\\' ∉ ['"']) rest
  rw [literal?, translate_escape, hquote, readFrom_escape]

end Lexical

/-- Between the quotes of a constant stands the body of a literal, from which Java reads the value of
the constant, whatever follows the closing quote. -/
theorem constants_readable (c : Constant) :
    ∃ body : String,
      c.fragments =
        [.line ("public static final String " ++ c.name ++ " = \"" ++ body ++ "\";")] ∧
      Lexical.IsLiteralBody body.toList ∧
      ∀ rest, Lexical.literal? (body.toList ++ '"' :: rest) =
        some (c.value.toList, Lexical.translate rest) := by
  refine ⟨Literal.body c.value, rfl, ?_⟩
  rw [Literal.body, String.toList_ofList]
  exact ⟨Lexical.isLiteralBody_escape _, Lexical.literal?_escape _⟩

end EventForge.Java
