import EventForge.Document.SyntaxSpan
import Mathlib.Data.List.DropRight

/-!
# Lines and columns of offsets

In the UTF-8 bytes of a text, the line of an offset is counted by the newlines in front of it, and
its line starts behind the last of them. The lines in front of an offset are the text up to that
newline (`encoded_lines_before`), so line and column of an offset lead back to it. A place on line
zero or behind the last line is outside of the text; only a column that makes the sum greater than
any machine word has no answer at all.
-/

namespace EventForge.Document

variable {cs : List Char} {bs ds : List UInt8} {text : String}

/-- The UTF-8 bytes of characters. -/
def encoded (cs : List Char) : List UInt8 := cs.flatMap String.utf8EncodeChar

/-- The UTF-8 bytes of a text. -/
def utf8 (text : String) : List UInt8 := text.toUTF8.data.toList

theorem utf8_eq (text : String) : utf8 text = encoded text.toList := by
  rw [utf8, String.toUTF8_eq_toByteArray, ← String.utf8Encode_toList, List.utf8Encode,
    List.toList_data_toByteArray, encoded]

def newline : UInt8 := 10

/-- The line of an offset, counted from one. -/
def lineAt (bs : List UInt8) (k : Nat) : Nat := 1 + (bs.take k).count newline

/-- Where the line of an offset starts: behind the last newline in front of it. -/
def lineStart (bs : List UInt8) (k : Nat) : Nat := ((bs.take k).rdropWhile (· ≠ newline)).length

/-- The column of an offset, counted from one. -/
def columnAt (bs : List UInt8) (k : Nat) : Nat := 1 + k - lineStart bs k

/-- The number of lines: those that end in a newline, and one more when bytes stand behind the last
newline. -/
def lineCount (bs : List UInt8) : Nat :=
  bs.count newline + if bs.getLast?.any (· ≠ newline) then 1 else 0

theorem encoded_cons (c : Char) (cs : List Char) :
    encoded (c :: cs) = String.utf8EncodeChar c ++ encoded cs :=
  List.flatMap_cons

theorem encoded_newline (cs : List Char) : encoded ('\n' :: cs) = newline :: encoded cs := rfl

theorem bytes_eq (cs : List Char) : bytes cs = (encoded cs).length := by
  have hfrom : ∀ (n : Nat), cs.foldl (fun n c => n + c.utf8Size) n = n + (encoded cs).length := by
    induction cs with
    | nil => exact fun _ => rfl
    | cons c cs ih =>
      intro n
      rw [List.foldl_cons, ih, encoded_cons, List.length_append, String.length_utf8EncodeChar,
        Nat.add_assoc]
  rw [bytes, hfrom, Nat.zero_add]

/-- No character but the newline has its byte in its encoding: the bytes of others are greater. -/
theorem newline_not_mem {c : Char} (h : c ≠ '\n') : newline ∉ String.utf8EncodeChar c := by
  have hcode : c.val.toNat ≠ 10 := fun hval => h (Char.ext (UInt32.toNat_inj.1 hval))
  have hbyte : ∀ n, n % 256 ≠ 10 → newline ≠ UInt8.ofNat n := by
    intro n hn heq
    rw [newline, ← UInt8.toNat_inj, UInt8.toNat_ofNat'] at heq
    exact hn heq.symm
  rw [String.utf8EncodeChar.eq_def]
  dsimp only
  split
  · rw [List.mem_singleton]
    exact hbyte _ (by omega)
  · split
    · simp only [List.mem_cons, List.not_mem_nil, or_false, not_or]
      exact ⟨hbyte _ (by omega), hbyte _ (by omega)⟩
    · split <;> simp only [List.mem_cons, List.not_mem_nil, or_false, not_or]
      · exact ⟨hbyte _ (by omega), hbyte _ (by omega), hbyte _ (by omega)⟩
      · exact ⟨hbyte _ (by omega), hbyte _ (by omega), hbyte _ (by omega), hbyte _ (by omega)⟩

theorem flatten_linesWithEnds (cs : List Char) : (linesWithEnds cs).flatten = cs := by
  induction cs with
  | nil => rfl
  | cons c cs ih =>
    rw [linesWithEnds]
    split
    · rw [List.flatten_cons, ih, List.singleton_append]
    · cases hlines : linesWithEnds cs with
      | nil => rw [hlines] at ih; simpa using ih
      | cons l ls => rw [hlines] at ih; simpa using ih

theorem encoded_eq_nil_iff : encoded cs = [] ↔ cs = [] := by
  cases cs with
  | nil => exact iff_of_true rfl rfl
  | cons c cs => simp [encoded_cons, String.utf8EncodeChar_ne_nil]

/-- Bytes without a newline go on the first line of what follows. -/
theorem lineCount_append (hbs : bs ≠ []) (h : newline ∉ bs) :
    lineCount (bs ++ ds) = if ds = [] then 1 else lineCount ds := by
  rw [lineCount, List.count_append, List.count_eq_zero_of_not_mem h, Nat.zero_add]
  by_cases hds : ds = []
  · have hlast : bs.getLast hbs ≠ newline := fun heq => h (heq ▸ List.getLast_mem hbs)
    simp [hds, List.getLast?_eq_some_getLast hbs, hlast]
  · simp [hds, lineCount, List.getLast?_append, List.getLast?_eq_some_getLast hds]

theorem length_linesWithEnds (cs : List Char) :
    (linesWithEnds cs).length = lineCount (encoded cs) := by
  induction cs with
  | nil => rfl
  | cons c cs ih =>
    rw [linesWithEnds]
    split
    · next h =>
      subst h
      rw [List.length_cons, ih, encoded_newline, lineCount, lineCount]
      cases encoded cs <;> simp [Nat.add_right_comm]
    · next h =>
      rw [encoded_cons, lineCount_append String.utf8EncodeChar_ne_nil (newline_not_mem h), ← ih]
      cases hlines : linesWithEnds cs with
      | nil =>
        have hnil : cs = [] := by rw [← flatten_linesWithEnds cs, hlines, List.flatten_nil]
        simp [encoded_eq_nil_iff, hnil]
      | cons l ls =>
        have hne : cs ≠ [] := fun hnil => by simp [hnil, linesWithEnds] at hlines
        simp [encoded_eq_nil_iff, hne]

/-- A character that is no newline goes in front of the first line. -/
theorem flatten_take_linesWithEnds {c : Char} (h : c ≠ '\n') (cs : List Char) (n : Nat) :
    ((linesWithEnds (c :: cs)).take (n + 1)).flatten =
      c :: ((linesWithEnds cs).take (n + 1)).flatten := by
  rw [linesWithEnds, if_neg h]
  cases linesWithEnds cs <;> simp

theorem rdropWhile_append_of_mem (h : newline ∈ ds) :
    (bs ++ ds).rdropWhile (· ≠ newline) = bs ++ ds.rdropWhile (· ≠ newline) := by
  have hstop : ds.reverse.dropWhile (· ≠ newline) ≠ [] := by
    rw [Ne, List.dropWhile_eq_nil_iff]
    exact fun hall => absurd (hall newline (List.mem_reverse.2 h)) (by simp)
  rw [List.rdropWhile, List.reverse_append, List.dropWhile_append, if_neg, List.reverse_append,
    List.reverse_reverse, List.rdropWhile]
  simpa using hstop

theorem rdropWhile_append_of_not_mem (h : newline ∉ ds) :
    (bs ++ ds).rdropWhile (· ≠ newline) = bs.rdropWhile (· ≠ newline) := by
  rw [List.rdropWhile, List.reverse_append, List.dropWhile_append_of_pos, List.rdropWhile]
  intro d hd
  have hne : d ≠ newline := fun heq => h (heq ▸ List.mem_reverse.1 hd)
  simpa using hne

theorem rdropWhile_newline_cons (bs : List UInt8) :
    (newline :: bs).rdropWhile (· ≠ newline) = newline :: bs.rdropWhile (· ≠ newline) := by
  by_cases h : newline ∈ bs
  · rw [← List.singleton_append, rdropWhile_append_of_mem h, List.singleton_append]
  · rw [← List.singleton_append, rdropWhile_append_of_not_mem h, ← List.nil_append bs,
      rdropWhile_append_of_not_mem h]
    rfl

/-- The lines in front of an offset are the text up to the last newline in front of it. -/
theorem encoded_lines_before (cs : List Char) (k : Nat) :
    encoded ((linesWithEnds cs).take (((encoded cs).take k).count newline)).flatten =
      ((encoded cs).take k).rdropWhile (· ≠ newline) := by
  induction cs generalizing k with
  | nil => simp [encoded, linesWithEnds]
  | cons c cs ih =>
    by_cases hc : c = '\n'
    · subst hc
      cases k with
      | zero => simp [encoded]
      | succ k =>
        rw [encoded_newline, List.take_succ_cons, List.count_cons_self, linesWithEnds, if_pos rfl,
          List.take_succ_cons, List.flatten_cons, List.singleton_append, encoded_newline, ih]
        exact (rdropWhile_newline_cons _).symm
    · -- the bytes of the character go on the first line
      have hfirst : newline ∉ (String.utf8EncodeChar c).take k :=
        fun h => newline_not_mem hc (List.mem_of_mem_take h)
      rw [encoded_cons, List.take_append, List.count_append, List.count_eq_zero_of_not_mem hfirst,
        Nat.zero_add]
      generalize hrest : k - (String.utf8EncodeChar c).length = j
      by_cases hmem : newline ∈ (encoded cs).take j
      · obtain ⟨n, hn⟩ := Nat.exists_eq_succ_of_ne_zero (List.count_pos_iff.2 hmem).ne'
        have hall : (String.utf8EncodeChar c).length ≤ k := by
          by_contra hlt
          obtain rfl : j = 0 := by omega
          simp at hmem
        rw [rdropWhile_append_of_mem hmem, ← ih, hn, flatten_take_linesWithEnds hc, encoded_cons,
          List.take_of_length_le hall]
      · rw [List.count_eq_zero_of_not_mem hmem, rdropWhile_append_of_not_mem hmem,
          ← List.nil_append (List.take k _), rdropWhile_append_of_not_mem hfirst]
        rfl

theorem startOf_lineAt (text : String) (k : Nat) :
    startOf text (lineAt (utf8 text) k) = lineStart (utf8 text) k := by
  rw [startOf, lineAt, Nat.add_sub_cancel_left, bytes_eq, utf8_eq, encoded_lines_before, lineStart]

theorem startOf_of_lineCount_lt {line : Nat} (h : lineCount (utf8 text) < line) :
    startOf text line = (utf8 text).length := by
  rw [startOf, List.take_of_length_le, flatten_linesWithEnds, bytes_eq, utf8_eq]
  rw [length_linesWithEnds, ← utf8_eq]
  omega

theorem startOf_le (text : String) (line : Nat) : startOf text line ≤ (utf8 text).length := by
  have hparts : encoded text.toList =
      encoded ((linesWithEnds text.toList).take (line - 1)).flatten ++
        encoded ((linesWithEnds text.toList).drop (line - 1)).flatten := by
    rw [encoded, encoded, encoded, ← List.flatMap_append, ← List.flatten_append,
      List.take_append_drop, flatten_linesWithEnds]
  rw [startOf, bytes_eq, utf8_eq, hparts, List.length_append]
  exact Nat.le_add_right _ _

theorem offsetOf_eq {line : Nat} (hline : line ≠ 0) (column : Nat) :
    offsetOf text line column =
      if startOf text line + (column - 1) < wordCount then
        .ok ((some (startOf text line + (column - 1))).filter (· < (utf8 text).length))
      else .error ⟨⟩ := by
  rw [offsetOf, if_neg hline, bytes_eq text.toList, ← utf8_eq]
  simp only [Option.filter_some, decide_eq_true_eq]

theorem offsetOf_lt {line column offset : Nat} (h : offsetOf text line column = .ok (some offset)) :
    offset < (utf8 text).length := by
  by_cases hline : line = 0
  · simp [offsetOf, hline] at h
  · rw [offsetOf_eq hline] at h
    split at h
    · rw [Except.ok.injEq, Option.filter_eq_some_iff] at h
      simpa using h.2
    · cases h

/-- Line and column of an offset lead back to it. -/
theorem offsetOf_position {k : Nat} (hk : k < (utf8 text).length) (hword : k < wordCount) :
    offsetOf text (lineAt (utf8 text) k) (columnAt (utf8 text) k) = .ok (some k) := by
  have hle : lineStart (utf8 text) k ≤ k :=
    (List.rdropWhile_prefix _ _).length_le.trans (List.length_take_le k _)
  have hsum : lineStart (utf8 text) k + (columnAt (utf8 text) k - 1) = k := by
    rw [columnAt]
    omega
  rw [offsetOf_eq (by rw [lineAt]; omega), startOf_lineAt, hsum, if_pos hword]
  simp [hk]

/-- A place is answered for when the text and the bytes in front of the column fit in a word. -/
theorem offsetOf_isOk {column : Nat} (hsum : (utf8 text).length + (column - 1) < wordCount)
    (line : Nat) : ∃ place, offsetOf text line column = .ok place := by
  by_cases hline : line = 0
  · exact ⟨none, by rw [offsetOf, if_pos hline]⟩
  · have hstart := startOf_le text line
    exact ⟨_, by rw [offsetOf_eq hline, if_pos (by omega)]⟩

/-- Behind the last line there is no place in the text. -/
theorem offsetOf_of_lineCount_lt {line : Nat} (hline : lineCount (utf8 text) < line)
    (column : Nat) :
    offsetOf text line column =
      if (utf8 text).length + (column - 1) < wordCount then .ok none else .error ⟨⟩ := by
  have houtside : ¬ (utf8 text).length + (column - 1) < (utf8 text).length := by omega
  rw [offsetOf_eq (by omega), startOf_of_lineCount_lt hline]
  simp [Option.filter_some, houtside]

/-- Line and column of every offset in the text lead back to it (an offset is a word), an offset
that is found is in the text, and on line zero none is found. While the text and the bytes in front
of the column fit in a word there is an answer for every line; behind the last line it is that none
is found, and there the sum overflows whenever they do not fit. -/
theorem places_of_offsets (text : String) :
    (∀ k < (utf8 text).length, k < wordCount →
      offsetOf text (lineAt (utf8 text) k) (columnAt (utf8 text) k) = .ok (some k)) ∧
    ∀ line column,
      (∀ offset, offsetOf text line column = .ok (some offset) → offset < (utf8 text).length) ∧
      (line = 0 → offsetOf text line column = .ok none) ∧
      ((utf8 text).length + (column - 1) < wordCount →
        ∃ place, offsetOf text line column = .ok place) ∧
      (lineCount (utf8 text) < line →
        offsetOf text line column =
          if (utf8 text).length + (column - 1) < wordCount then .ok none else .error ⟨⟩) := by
  refine ⟨fun k hk hword => offsetOf_position hk hword, fun line column =>
    ⟨fun offset h => offsetOf_lt h, ?_, fun hsum => offsetOf_isOk hsum line,
      fun hline => offsetOf_of_lineCount_lt hline column⟩⟩
  rintro rfl
  rw [offsetOf, if_pos rfl]

/-- The second line starts behind a newline that follows a character of two bytes. -/
theorem places_of_offsets_secondLine :
    (lineAt (utf8 "é\nbc") 4, columnAt (utf8 "é\nbc") 4) = (2, 2) ∧
      offsetOf "é\nbc" (lineAt (utf8 "é\nbc") 4) (columnAt (utf8 "é\nbc") 4) = .ok (some 4) := by
  have hword : 4 < wordCount := by decide
  exact ⟨by decide, (places_of_offsets "é\nbc").1 4 (by decide) hword⟩

/-- Behind the last line of a text, a column can be too great for the sum. -/
theorem hugeColumn_overflows :
    lineCount (utf8 "ab\ncd") = 2 ∧
      offsetOf "ab\ncd" 3 18446744073709551615 = .error ⟨⟩ := by
  decide

end EventForge.Document
