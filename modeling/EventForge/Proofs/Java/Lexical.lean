import EventForge.Text.Blank
import EventForge.Text.Numeral

/-!
# The code in a Java text

A Java compiler first replaces unicode escapes, a backslash and `u` with four hexadecimal digits,
and then leaves out comments and blanks. Both go through the text once, so both pass over lines one
after another: an escape never crosses the end of a line (`translate_append`), and a reader takes
nothing but its mode from one line to the next (`scan_append`). A comment is left at its terminator
and nowhere else (`reaches_blockComment_iff`, `reaches_lineComment_iff`).
-/

namespace EventForge.Java.Lexical

/-- The character that the four hexadecimal digits in front of a text stand for. -/
def codeUnit? (cs : List Char) : Option Char :=
  if 4 ≤ cs.length then (Text.hexValue? (cs.take 4)).map Char.ofNat else none

/-- What a backslash in front of `cs` stands for, and how many characters of `cs` belong to it. -/
def escaped (cs : List Char) : List Char × Nat :=
  if cs.head? = some '\\' then (['\\', '\\'], 1)
  else
    let marks := (cs.takeWhile (· = 'u')).length
    match codeUnit? (cs.drop marks) with
    | some c => if 0 < marks then ([c], marks + 4) else (['\\'], 0)
    | none => (['\\'], 0)

/-- The text with its unicode escapes replaced; the first `skip` characters belong to an escape. -/
def translateFrom : Nat → List Char → List Char
  | _, [] => []
  | skip + 1, _ :: cs => translateFrom skip cs
  | 0, c :: cs =>
    if c = '\\' then (escaped cs).1 ++ translateFrom (escaped cs).2 cs
    else c :: translateFrom 0 cs

def translate (cs : List Char) : List Char := translateFrom 0 cs

/-- Where a reader of Java code stands. -/
inductive Mode where
  | code
  /-- Behind a slash that may open a comment. -/
  | slash
  | lineComment
  | blockComment
  /-- In a block comment, behind an asterisk that may close it. -/
  | star
  | literal (quote : Char)
  /-- In a literal, behind a backslash. -/
  | escape (quote : Char)
  deriving DecidableEq, Repr

def apostrophe : Char := Char.ofNat 0x27

def isLineEnd (c : Char) : Bool := c = '\n' || c = '\r'

/-- The mode after a character of code, and what the character leaves. -/
def stepCode (c : Char) : Mode × List Char :=
  if c = '/' then (.slash, [])
  else if c = '"' ∨ c = apostrophe then (.literal c, [c])
  else if Text.isBlank c then (.code, [])
  else (.code, [c])

/-- The mode after a character, and what the character leaves: comments and the blanks of code leave
nothing. A literal ends at the end of its line at the latest. -/
def step : Mode → Char → Mode × List Char
  | .code, c => stepCode c
  | .slash, c =>
    if c = '/' then (.lineComment, [])
    else if c = '*' then (.blockComment, [])
    else ((stepCode c).1, '/' :: (stepCode c).2)
  | .lineComment, c => (if isLineEnd c then .code else .lineComment, [])
  | .blockComment, c => (if c = '*' then .star else .blockComment, [])
  | .star, c => (if c = '/' then .code else if c = '*' then .star else .blockComment, [])
  | .literal q, c =>
    if isLineEnd c then (.code, [])
    else (if c = q then .code else if c = '\\' then .escape q else .literal q, [c])
  | .escape q, c => if isLineEnd c then (.code, []) else (.literal q, [c])

/-- The mode after a text, and what the text leaves. -/
def scan : Mode → List Char → Mode × List Char
  | m, [] => (m, [])
  | m, c :: cs => ((scan (step m c).1 cs).1, (step m c).2 ++ (scan (step m c).1 cs).2)

/-- A text without its comments and blanks. -/
def code (text : String) : List Char :=
  let (m, out) := scan .code (translate text.toList)
  if m = .slash then out ++ ['/'] else out

theorem scan_append (m : Mode) (cs ds : List Char) :
    scan m (cs ++ ds) =
      ((scan (scan m cs).1 ds).1, (scan m cs).2 ++ (scan (scan m cs).1 ds).2) := by
  induction cs generalizing m with
  | nil => rfl
  | cons c cs ih => simp [scan, ih]

/-- No escape goes on with this character. -/
structure Parts (c : Char) : Prop where
  not_backslash : c ≠ '\\'
  not_mark : c ≠ 'u'
  not_digit : Text.hexDigit? c = none

theorem parts_lineFeed : Parts '\n' := ⟨by decide, by decide, by decide⟩

theorem parts_space : Parts ' ' := ⟨by decide, by decide, by decide⟩

theorem hexValue?_append {c : Char} (hc : Parts c) (cs ds : List Char) :
    Text.hexValue? (cs ++ c :: ds) = none := by
  rw [Text.hexValue?, List.mapM_append, List.mapM_cons, hc.not_digit]
  cases cs.mapM Text.hexDigit? <;> rfl

theorem codeUnit?_append {c : Char} (hc : Parts c) (cs ds : List Char) :
    codeUnit? (cs ++ c :: ds) = codeUnit? cs := by
  by_cases hfour : 4 ≤ cs.length
  · have hmore : 4 ≤ (cs ++ c :: ds).length := by
      rw [List.length_append]
      omega
    rw [codeUnit?, codeUnit?, if_pos hmore, if_pos hfour, List.take_append_of_le_length hfour]
  · -- the four digits would go on behind the character
    have htake : (cs ++ c :: ds).take 4 = cs ++ c :: ds.take (3 - cs.length) := by
      rw [List.take_append, List.take_of_length_le (by omega),
        show 4 - cs.length = (3 - cs.length) + 1 by omega, List.take_succ_cons]
    rw [codeUnit?, codeUnit?, if_neg hfour, htake, hexValue?_append hc, Option.map_none, ite_self]

/-- An escape ends before a character that parts. -/
theorem escaped_append {c : Char} (hc : Parts c) (cs ds : List Char) :
    escaped (cs ++ c :: ds) = escaped cs ∧ (escaped cs).2 ≤ cs.length := by
  have hhead : (cs ++ c :: ds).head? = some '\\' ↔ cs.head? = some '\\' := by
    cases cs <;> simp [hc.not_backslash]
  by_cases hpair : cs.head? = some '\\'
  · have hlength : 0 < cs.length := List.length_pos_of_mem (List.mem_of_mem_head? hpair)
    rw [escaped, escaped, if_pos (hhead.2 hpair), if_pos hpair]
    exact ⟨rfl, hlength⟩
  have hmarks : (cs ++ c :: ds).takeWhile (· = 'u') = cs.takeWhile (· = 'u') := by
    rw [List.takeWhile_append, List.takeWhile_cons_of_neg (by simp [hc.not_mark]), List.append_nil]
    split
    · next h => exact ((List.takeWhile_prefix _).eq_of_length h).symm
    · rfl
  have hle : (cs.takeWhile (· = 'u')).length ≤ cs.length := (List.takeWhile_prefix _).length_le
  rw [escaped, escaped, if_neg fun h => hpair (hhead.1 h), if_neg hpair, hmarks]
  dsimp only
  rw [List.drop_append_of_le_length hle, codeUnit?_append hc]
  refine ⟨rfl, ?_⟩
  split
  · next d hd =>
    have hfour : 4 ≤ cs.length - (cs.takeWhile (· = 'u')).length := by
      rw [codeUnit?, List.length_drop] at hd
      split at hd
      · next hfour => exact hfour
      · cases hd
    split
    · dsimp only
      omega
    · exact Nat.zero_le _
  · exact Nat.zero_le _

theorem translateFrom_append {c : Char} (hc : Parts c) (cs ds : List Char) {skip : Nat}
    (hskip : skip ≤ cs.length) :
    translateFrom skip (cs ++ c :: ds) = translateFrom skip cs ++ c :: translate ds := by
  induction cs generalizing skip with
  | nil =>
    obtain rfl : skip = 0 := Nat.le_zero.1 hskip
    simp [translateFrom, hc.not_backslash, translate]
  | cons d cs ih =>
    cases skip with
    | succ skip => exact ih (Nat.le_of_succ_le_succ hskip)
    | zero =>
      obtain ⟨hescaped, hle⟩ := escaped_append hc cs ds
      rw [List.cons_append, translateFrom, translateFrom, hescaped, ih hle, ih (Nat.zero_le _)]
      split <;> simp

/-- Translating goes line by line, and word by word. -/
theorem translate_append {c : Char} (hc : Parts c) (cs ds : List Char) :
    translate (cs ++ c :: ds) = translate cs ++ c :: translate ds :=
  translateFrom_append hc cs ds (Nat.zero_le _)

/-- Without backslashes there is nothing to translate. -/
theorem translate_append_of_not_mem {cs : List Char} (h : '\\' ∉ cs) (ds : List Char) :
    translate (cs ++ ds) = cs ++ translate ds := by
  induction cs with
  | nil => rfl
  | cons c cs ih =>
    rw [List.mem_cons, not_or] at h
    rw [List.cons_append, translate, translateFrom, if_neg (Ne.symm h.1), List.cons_append]
    exact congrArg _ (ih h.2)

theorem translate_of_not_mem {cs : List Char} (h : '\\' ∉ cs) : translate cs = cs := by
  simpa [translate, translateFrom] using translate_append_of_not_mem h []

theorem scan_fixed {m : Mode} {cs : List Char} (h : ∀ c ∈ cs, step m c = (m, [])) :
    scan m cs = (m, []) := by
  induction cs with
  | nil => rfl
  | cons c cs ih =>
    rw [scan, h c (by simp), ih fun d hd => h d (List.mem_cons_of_mem _ hd)]
    rfl

/-- A reader that comes from a mode is back in code somewhere in the text. -/
def Reaches (m : Mode) (cs : List Char) : Prop :=
  ∃ before after, cs = before ++ after ∧ (scan m before).1 = .code

theorem reaches_code (cs : List Char) : Reaches .code cs := ⟨[], cs, rfl, rfl⟩

theorem not_reaches_nil {m : Mode} (hm : m ≠ .code) : ¬ Reaches m [] := by
  rintro ⟨before, after, hsplit, hscan⟩
  rw [(List.append_eq_nil_iff.1 hsplit.symm).1] at hscan
  exact hm hscan

theorem reaches_cons {m : Mode} (hm : m ≠ .code) {c : Char} {cs : List Char} :
    Reaches m (c :: cs) ↔ Reaches (step m c).1 cs := by
  constructor
  · rintro ⟨before, after, hsplit, hscan⟩
    cases before with
    | nil => exact absurd hscan hm
    | cons d before =>
      obtain ⟨rfl, rfl⟩ := List.cons.inj hsplit
      exact ⟨before, after, rfl, hscan⟩
  · rintro ⟨before, after, rfl, hscan⟩
    exact ⟨c :: before, after, rfl, hscan⟩

/-- A comment behind two slashes is left at the end of its line. -/
theorem reaches_lineComment_iff {cs : List Char} :
    Reaches .lineComment cs ↔ ∃ c ∈ cs, isLineEnd c := by
  induction cs with
  | nil => simp [not_reaches_nil]
  | cons c cs ih =>
    rw [reaches_cons (by simp)]
    by_cases hc : isLineEnd c
    · simp [step, hc, reaches_code]
    · simp [step, hc, ih]

theorem closing_cons_iff {c : Char} {cs : List Char} :
    ['*', '/'] <:+: c :: cs ↔ (c = '*' ∧ cs.head? = some '/') ∨ ['*', '/'] <:+: cs := by
  rw [List.infix_cons_iff, List.cons_prefix_cons, eq_comm]
  cases cs with
  | nil => simp
  | cons d cs => simp [List.cons_prefix_cons, eq_comm (a := '/')]

/-- A block comment is left at an asterisk with a slash behind it. -/
theorem reaches_blockComment_iff {cs : List Char} :
    Reaches .blockComment cs ↔ ['*', '/'] <:+: cs := by
  -- behind an asterisk, a slash at once ends the comment too
  suffices h : (Reaches .blockComment cs ↔ ['*', '/'] <:+: cs) ∧
      (Reaches .star cs ↔ cs.head? = some '/' ∨ ['*', '/'] <:+: cs) from h.1
  induction cs with
  | nil => simp [not_reaches_nil]
  | cons c cs ih =>
    rw [reaches_cons (by simp), reaches_cons (by simp), closing_cons_iff]
    by_cases hstar : c = '*'
    · subst hstar
      simpa [step] using ih.2
    · by_cases hslash : c = '/'
      · simpa [step, hstar, hslash, reaches_code] using ih.1
      · simpa [step, hstar, hslash] using ih.1

theorem closing_append_iff {c : Char} (hstar : c ≠ '*') (hslash : c ≠ '/') {cs ds : List Char} :
    ['*', '/'] <:+: cs ++ c :: ds ↔ ['*', '/'] <:+: cs ∨ ['*', '/'] <:+: ds := by
  induction cs with
  | nil => simp [closing_cons_iff, hstar]
  | cons d cs ih =>
    have hhead : (cs ++ c :: ds).head? = some '/' ↔ cs.head? = some '/' := by
      cases cs <;> simp [hslash]
    rw [List.cons_append, closing_cons_iff, ih, hhead, closing_cons_iff, or_assoc]

/-- The text ends a block comment that it stands in. -/
def EndsBlock (s : String) : Prop := Reaches .blockComment (translate s.toList)

/-- The text ends a comment behind two slashes that it stands in. -/
def EndsLine (s : String) : Prop := Reaches .lineComment (translate s.toList)

theorem endsBlock_iff {s : String} : EndsBlock s ↔ ['*', '/'] <:+: translate s.toList :=
  reaches_blockComment_iff

theorem endsLine_iff {s : String} : EndsLine s ↔ ∃ c ∈ translate s.toList, isLineEnd c :=
  reaches_lineComment_iff

instance (s : String) : Decidable (EndsLine s) :=
  decidable_of_iff ((translate s.toList).any isLineEnd) (by simp [endsLine_iff])

/-- None of the texts has the end of a line in it. -/
theorem not_isLineEnd_of_all {texts : List String}
    (h : texts.all fun s => !(translate s.toList).any isLineEnd) :
    ∀ s ∈ texts, ∀ c ∈ translate s.toList, ¬ isLineEnd c := by
  intro s hs c hc hend
  have hnone := List.all_eq_true.1 h s hs
  rw [Bool.not_eq_true', List.any_eq_false] at hnone
  exact hnone c hc hend

theorem toList_words (a b : String) : (a ++ " " ++ b).toList = a.toList ++ ' ' :: b.toList := by
  simp

/-- Words end a comment one by one. -/
theorem endsBlock_words {a b : String} : EndsBlock (a ++ " " ++ b) ↔ EndsBlock a ∨ EndsBlock b := by
  rw [endsBlock_iff, toList_words, translate_append parts_space,
    closing_append_iff (by decide) (by decide), endsBlock_iff, endsBlock_iff]

theorem endsLine_words {a b : String} : EndsLine (a ++ " " ++ b) ↔ EndsLine a ∨ EndsLine b := by
  rw [endsLine_iff, toList_words, translate_append parts_space, endsLine_iff, endsLine_iff]
  simp [or_and_right, exists_or, show isLineEnd ' ' = false from rfl]

/-- The reader is in a block comment. -/
def Mode.isBlock : Mode → Bool
  | .blockComment => true
  | .star => true
  | _ => false

theorem isBlock_step {m : Mode} (hm : m.isBlock) (c : Char) :
    (step m c).2 = [] ∧ ((step m c).1.isBlock ∨ (step m c).1 = .code) := by
  cases m with
  | blockComment => by_cases h : c = '*' <;> simp [step, h, Mode.isBlock]
  | star =>
    by_cases h : c = '/'
    · simp [step, h]
    · by_cases h' : c = '*' <;> simp [step, h, h', Mode.isBlock]
  | _ => simp [Mode.isBlock] at hm

/-- A text that does not end a block comment leaves nothing. -/
theorem scan_of_isBlock {m : Mode} (hm : m.isBlock) {cs : List Char} (h : ¬ Reaches m cs) :
    (scan m cs).2 = [] ∧ (scan m cs).1.isBlock := by
  induction cs generalizing m with
  | nil => exact ⟨rfl, hm⟩
  | cons c cs ih =>
    have hne : m ≠ .code := by
      rintro rfl
      cases hm
    rw [reaches_cons hne] at h
    obtain ⟨hout, hstep | hstep⟩ := isBlock_step hm c
    · obtain ⟨hrest, hmode⟩ := ih hstep h
      exact ⟨by rw [scan, hout, hrest]; rfl, hmode⟩
    · exact absurd (hstep ▸ reaches_code cs) h

theorem step_lineFeed_of_isBlock {m : Mode} (hm : m.isBlock) :
    step m '\n' = (.blockComment, []) := by
  cases m with
  | blockComment => decide
  | star => decide
  | _ => simp [Mode.isBlock] at hm

/-- A text that does not end a line comment leaves nothing. -/
theorem scan_lineComment {cs : List Char} (h : ¬ Reaches .lineComment cs) :
    scan .lineComment cs = (.lineComment, []) := by
  rw [reaches_lineComment_iff] at h
  refine scan_fixed fun c hc => ?_
  have hend : ¬ isLineEnd c := fun he => h ⟨c, hc, he⟩
  simp [step, hend]

/-- The reader is neither in a comment nor behind a slash. -/
def Mode.isOpen : Mode → Bool
  | .code => true
  | .literal _ => true
  | .escape _ => true
  | _ => false

theorem isOpen_step {m : Mode} (hm : m.isOpen) {c : Char} (hc : c ≠ '/') :
    (step m c).1.isOpen := by
  cases m with
  | code =>
    rw [step, stepCode, if_neg hc]
    split
    · rfl
    · split <;> rfl
  | literal q =>
    rw [step]
    split
    · rfl
    · dsimp only
      split
      · rfl
      · split <;> rfl
  | escape q =>
    rw [step]
    split <;> rfl
  | _ => simp [Mode.isOpen] at hm

/-- Without slashes no comment is entered. -/
theorem isOpen_scan {m : Mode} (hm : m.isOpen) {cs : List Char} (h : '/' ∉ cs) :
    (scan m cs).1.isOpen := by
  induction cs generalizing m with
  | nil => exact hm
  | cons c cs ih =>
    rw [List.mem_cons, not_or] at h
    exact ih (isOpen_step hm (Ne.symm h.1)) h.2

theorem step_lineFeed_of_isOpen {m : Mode} (hm : m.isOpen) : (step m '\n').1 = .code := by
  cases m with
  | code => decide
  | literal q => rfl
  | escape q => rfl
  | _ => simp [Mode.isOpen] at hm

/-- A text that opens neither a comment nor a literal is read as code. -/
def Plain (cs : List Char) : Prop :=
  ∀ c ∈ cs, c ≠ '/' ∧ c ≠ '"' ∧ c ≠ apostrophe ∧ c ≠ '\\'

-- Looks at the text only, not at every character there is.
instance (cs : List Char) : Decidable (Plain cs) := List.decidableBAll _ cs

theorem plain_append {cs ds : List Char} : Plain (cs ++ ds) ↔ Plain cs ∧ Plain ds :=
  List.forall_mem_append

theorem not_mem_of_plain {cs : List Char} (h : Plain cs) : '/' ∉ cs ∧ '\\' ∉ cs :=
  ⟨fun hc => (h _ hc).1 rfl, fun hc => (h _ hc).2.2.2 rfl⟩

theorem scan_of_plain {cs : List Char} (h : Plain cs) : (scan .code cs).1 = .code := by
  induction cs with
  | nil => rfl
  | cons c cs ih =>
    obtain ⟨hslash, hquote, happ, -⟩ := h c (by simp)
    have hstep : (step .code c).1 = .code := by
      rw [step, stepCode, if_neg hslash, if_neg (by simp [hquote, happ])]
      split <;> rfl
    rw [scan, hstep]
    exact ih fun d hd => h d (List.mem_cons_of_mem _ hd)

end EventForge.Java.Lexical
