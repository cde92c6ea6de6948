import EventForge.Java.SourceFile
import EventForge.Proofs.Code.Lines
import EventForge.Proofs.Java.Literal
import Mathlib.Data.List.Forall2

/-!
# Reading the lines of a source file

A source file is read line by line. Every line is left in code when it opens no comment, when it
holds a constant, whatever its value is, and when it carries a comment that does not end early; the
lines of a documentation comment that does not end early leave nothing at all.
-/

namespace EventForge.Java

open Code

/-- The lines for the imports of one package. -/
def importLines (group : String × List String) : List Line :=
  if group.2 = [] then []
  else group.2.map (fun n => .text 0 ("import " ++ group.1 ++ "." ++ n ++ ";")) ++ [.blank]

/-- The lines in front of the declaration of a file. -/
def headLines (package : String) (imports : Imports) : List Line :=
  .text 0 ("package " ++ package ++ ";") :: .blank :: imports.entries.flatMap importLines

theorem writeImports_eq {b : Buffer} (hb : b.level = 0) (group : String × List String) :
    writeImports b group = b.addLines (importLines group) := by
  have hnames : ∀ (names : List String) (b : Buffer), b.level = 0 →
      names.foldl (fun b n => b.fragments (Import.fragments ⟨group.1, n⟩)) b =
        b.addLines (names.map fun n => .text 0 ("import " ++ group.1 ++ "." ++ n ++ ";")) := by
    intro names
    induction names with
    | nil => simp
    | cons n names ih =>
      intro b hb
      rw [List.foldl_cons, Buffer.fragments_eq, ih _ (by exact hb), Buffer.addLines_addLines, hb]
      rfl
  rw [writeImports, importLines]
  split
  · simp
  · rw [hnames _ _ hb, Buffer.blank_eq, Buffer.addLines_addLines]

/-- The text of a file is that of its lines: package, imports and the lines of its body. -/
theorem fileText_eq (package : String) (imports : Imports) (body : List Fragment)
    (indent : Indent) :
    fileText package imports body indent =
      Line.writeAll indent (headLines package imports ++ Fragment.linesOfAll 0 body) := by
  have himports : ∀ (groups : List (String × List String)) (b : Buffer), b.level = 0 →
      groups.foldl writeImports b = b.addLines (groups.flatMap importLines) := by
    intro groups
    induction groups with
    | nil => simp
    | cons group groups ih =>
      intro b hb
      rw [List.foldl_cons, writeImports_eq hb, ih _ (by exact hb), Buffer.addLines_addLines]
      rfl
  rw [fileText, Buffer.line_eq, Buffer.blank_eq, Buffer.addLines_addLines, himports _ _ rfl,
    Buffer.addLines_addLines, Buffer.fragments_eq, Buffer.addLines_addLines]
  simp [Buffer.addLines, Buffer.ofIndent, headLines]

namespace Lexical

variable {indent : Indent} {m : Mode}

theorem mem_margin {depth : Nat} {c : Char} (h : c ∈ (Line.margin indent depth).toList) :
    c = ' ' ∨ c = '\t' := by
  have hunit : ∀ c ∈ indent.unit.toList, c = ' ' ∨ c = '\t' := by
    rw [Indent.unit.eq_def]
    split <;> simp
  induction depth with
  | zero => simp [Line.margin] at h
  | succ depth ih =>
    rw [Line.margin, List.replicate_succ, String.join_cons, String.toList_append,
      List.mem_append] at h
    exact h.elim (hunit c) ih

theorem translate_lineFeed (cs ds : List Char) :
    translate (cs ++ '\n' :: ds) = translate (cs ++ ['\n']) ++ translate ds := by
  rw [translate_append parts_lineFeed, translate_append parts_lineFeed, List.append_assoc]
  rfl

theorem translate_write (l : Line) (cs : List Char) :
    translate ((l.write indent).toList ++ cs) =
      translate (l.write indent).toList ++ translate cs := by
  cases l with
  | blank => simpa [Line.write] using translate_lineFeed [] cs
  | text depth content =>
    have hwrite : ((Line.text depth content).write indent).toList =
        (Line.margin indent depth ++ content).toList ++ ['\n'] := by
      rw [Line.write, String.toList_append]
      rfl
    rw [hwrite, List.append_assoc]
    exact translate_lineFeed _ cs

/-- The mode after lines, and what they leave. -/
def readLines (indent : Indent) (m : Mode) (ls : List Line) : Mode × List Char :=
  scan m (translate (Line.writeAll indent ls).toList)

theorem readLines_append (ls ls' : List Line) :
    readLines indent m (ls ++ ls') =
      ((readLines indent (readLines indent m ls).1 ls').1,
        (readLines indent m ls).2 ++ (readLines indent (readLines indent m ls).1 ls').2) := by
  have hsplit : translate (Line.writeAll indent (ls ++ ls')).toList =
      translate (Line.writeAll indent ls).toList ++ translate (Line.writeAll indent ls').toList := by
    induction ls with
    | nil => rfl
    | cons l ls ih =>
      rw [List.cons_append, Line.writeAll_cons, Line.writeAll_cons, String.toList_append,
        String.toList_append, translate_write, translate_write, ih, List.append_assoc]
  rw [readLines, hsplit, scan_append]
  rfl

theorem readLines_blank : readLines indent .code [.blank] = (.code, []) := by
  rw [readLines, Line.writeAll_cons]
  simp [Line.write, Line.writeAll]
  decide

/-- A line is read as its content: the margin in front of it leaves nothing. -/
theorem readLines_text (hm : m = .code ∨ m = .blockComment) (depth : Nat) (content : String) :
    readLines indent m [.text depth content] = scan m (translate content.toList ++ ['\n']) := by
  have hwrite : (Line.writeAll indent [.text depth content]).toList =
      (Line.margin indent depth).toList ++ (content.toList ++ '\n' :: []) := by
    simp [Line.writeAll, Line.write]
  have hplain : '\\' ∉ (Line.margin indent depth).toList := fun h => by
    rcases mem_margin h with h | h <;> exact absurd h (by decide)
  have hmargin : scan m (Line.margin indent depth).toList = (m, []) := by
    refine scan_fixed fun c hc => ?_
    rcases hm with rfl | rfl <;> rcases mem_margin hc with rfl | rfl <;> decide
  rw [readLines, hwrite, translate_append_of_not_mem hplain, translate_append parts_lineFeed,
    scan_append, hmargin]
  rfl

/-- A text that opens no comment, whatever stands around it. -/
def Quiet (s : String) : Prop := '/' ∉ s.toList ∧ '\\' ∉ s.toList

instance (s : String) : Decidable (Quiet s) :=
  inferInstanceAs (Decidable ('/' ∉ s.toList ∧ '\\' ∉ s.toList))

theorem quiet_of_plain {s : String} (h : Plain s.toList) : Quiet s := not_mem_of_plain h

theorem quiet_append {a b : String} : Quiet (a ++ b) ↔ Quiet a ∧ Quiet b := by
  simp only [Quiet, String.toList_append, List.mem_append, not_or]
  exact and_and_and_comm

theorem quiet_joinWith {sep : String} (hsep : Quiet sep) {ss : List String}
    (h : ∀ s ∈ ss, Quiet s) : Quiet (Text.joinWith sep ss) := by
  induction ss with
  | nil =>
    rw [Text.joinWith]
    decide
  | cons s ss ih =>
    cases ss with
    | nil => exact h s (by simp)
    | cons t ss =>
      rw [Text.joinWith, quiet_append, quiet_append]
      exact ⟨⟨h s (by simp), hsep⟩, ih fun t ht => h t (List.mem_cons_of_mem _ ht)⟩

/-- A line that opens no comment. -/
def Calm : Line → Prop
  | .blank => True
  | .text _ content => Quiet content

/-- Lines that open no comment are left in code. -/
theorem readLines_of_calm {ls : List Line} (h : ∀ l ∈ ls, Calm l) :
    (readLines indent .code ls).1 = .code := by
  induction ls with
  | nil => rfl
  | cons l ls ih =>
    have hline : (readLines indent .code [l]).1 = .code := by
      cases l with
      | blank => rw [readLines_blank]
      | text depth content =>
        obtain ⟨hslash, hescape⟩ : Quiet content := h (.text depth content) (by simp)
        rw [readLines_text (.inl rfl), translate_of_not_mem hescape, scan_append]
        exact step_lineFeed_of_isOpen (isOpen_scan rfl hslash)
    rw [← List.singleton_append, readLines_append, hline]
    exact ih fun l' hl' => h l' (List.mem_cons_of_mem _ hl')

/-- A comment behind a line leaves nothing when it does not end early. -/
theorem readLines_commented {content comment : String} (hcontent : Plain content.toList)
    (hcomment : ¬ EndsLine comment) (depth : Nat) :
    readLines indent .code [.text depth (content ++ " // " ++ comment)] =
      readLines indent .code [.text depth content] := by
  have hescape : '\\' ∉ (content ++ " // ").toList := fun h => by
    rw [String.toList_append, List.mem_append] at h
    exact h.elim (fun h => (hcontent _ h).2.2.2 rfl) (by decide)
  have hslashes : scan .code " // ".toList = (.lineComment, []) := by decide
  have hscan : scan .code (content ++ " // ").toList =
      (.lineComment, (scan .code content.toList).2) := by
    rw [String.toList_append, scan_append, scan_of_plain hcontent, hslashes, List.append_nil]
  have hend : scan .lineComment ['\n'] = (.code, []) := by decide
  have hend' : scan .code ['\n'] = (.code, []) := by decide
  rw [readLines_text (.inl rfl), readLines_text (.inl rfl), String.toList_append,
    translate_append_of_not_mem hescape,
    translate_of_not_mem (not_mem_of_plain hcontent).2, List.append_assoc, scan_append, hscan,
    scan_append, scan_lineComment hcomment, hend, scan_append, scan_of_plain hcontent, hend']
  rfl

/-- The lines of a documentation comment leave nothing when none of them ends it. -/
theorem readLines_docLines {ls : List String}
    (h : ∀ l ∈ ls, ¬ EndsBlock l) (depth : Nat) :
    readLines indent .code (Fragment.docLines depth ls) = (.code, []) := by
  have hopen : readLines indent .code [.text depth "/**"] = (.blockComment, []) := by
    rw [readLines_text (.inl rfl)]
    decide
  have hclose : readLines indent .blockComment [.text depth " */"] = (.code, []) := by
    rw [readLines_text (.inr rfl)]
    decide
  have hlines : readLines indent .blockComment (ls.map fun l => .text depth (Buffer.docLine l)) =
      (.blockComment, []) := by
    induction ls with
    | nil => rfl
    | cons l ls ih =>
      have hline : readLines indent .blockComment [.text depth (Buffer.docLine l)] =
          (.blockComment, []) := by
        rw [readLines_text (.inr rfl), Buffer.docLine]
        split
        · decide
        · have hstart : scan .blockComment " * ".toList = (.blockComment, []) := by decide
          obtain ⟨hout, hmode⟩ := scan_of_isBlock rfl (h l (by simp))
          rw [String.toList_append, translate_append_of_not_mem (by decide), List.append_assoc,
            scan_append, hstart, scan_append, hout, scan, step_lineFeed_of_isBlock hmode]
          rfl
      rw [List.map_cons, ← List.singleton_append, readLines_append, hline,
        ih fun l' hl' => h l' (List.mem_cons_of_mem _ hl')]
      rfl
  rw [Fragment.docLines, ← List.singleton_append, List.append_assoc, readLines_append, hopen,
    readLines_append, hlines, hclose]
  rfl

/-- A literal ends at its closing quote only. -/
theorem scan_escape (cs : List Char) :
    (scan (.literal '"') (Literal.escape cs)).1 = .literal '"' := by
  have hall : ['\\', '"', 'n', 't', 'r'].all fun d =>
      (scan (.literal '"') ['\\', d]).1 = .literal '"' := by decide
  have hpair : ∀ d ∈ ['\\', '"', 'n', 't', 'r'],
      (scan (.literal '"') ['\\', d]).1 = .literal '"' :=
    fun d hd => of_decide_eq_true (List.all_eq_true.1 hall d hd)
  induction cs with
  | nil => rfl
  | cons c cs ih =>
    rw [Literal.escape, List.flatMap_cons, ← Literal.escape, scan_append]
    obtain ⟨d, hd, hc⟩ | ⟨hc, hback, hquote, hend⟩ := escapeChar_eq c
    · rw [hc, hpair d hd]
      exact ih
    · have hstep : (scan (.literal '"') [c]).1 = .literal '"' := by
        simp [scan, step, hend, hquote, hback]
      rw [hc, hstep]
      exact ih

/-- The line of a constant is left in code, whatever the value is. -/
theorem readLines_constant {name : String} (hname : Plain name.toList) (value : String)
    (depth : Nat) :
    (readLines indent .code [.text depth
      ("public static final String " ++ name ++ " = \"" ++ Literal.body value ++ "\";")]).1 =
        .code := by
  have hfront : Plain ("public static final String " ++ name ++ " = ").toList := by
    rw [String.toList_append, String.toList_append, plain_append, plain_append]
    exact ⟨⟨by decide, hname⟩, by decide⟩
  have hline : ("public static final String " ++ name ++ " = \"" ++ Literal.body value ++
      "\";").toList = ("public static final String " ++ name ++ " = ").toList ++
        ('"' :: (Literal.escape value.toList ++ ['"', ';'])) := by
    simp [Literal.body]
  have hopen : (scan .code ['"']).1 = .literal '"' := by decide
  have hclose : (scan (.literal '"') ['"', ';', '\n']).1 = .code := by decide
  rw [readLines_text (.inl rfl), hline,
    translate_append_of_not_mem (not_mem_of_plain hfront).2, ← List.singleton_append,
    translate_append_of_not_mem (by decide), translate_escape, List.append_assoc, scan_append,
    scan_of_plain hfront, List.append_assoc, scan_append, hopen, List.append_assoc, scan_append,
    scan_escape]
  exact hclose

/-- Lines that leave the same as others and end in code. -/
def Alike (indent : Indent) (ls ls' : List Line) : Prop :=
  readLines indent .code ls = readLines indent .code ls' ∧ (readLines indent .code ls).1 = .code

theorem Alike.append {ls ls' ks ks' : List Line} (hls : Alike indent ls ls')
    (hks : Alike indent ks ks') : Alike indent (ls ++ ks) (ls' ++ ks') := by
  obtain ⟨hls, hmode⟩ := hls
  obtain ⟨hks, hmode'⟩ := hks
  have hmode₁ : (readLines indent .code ls').1 = .code := hls ▸ hmode
  constructor
  · rw [readLines_append, readLines_append, hmode, hmode₁, hls, hks]
  · rw [readLines_append, hmode]
    exact hmode'

theorem Alike.code_eq {ls ls' : List Line} (h : Alike indent ls ls') :
    code (Line.writeAll indent ls) = code (Line.writeAll indent ls') := by
  have hscan : scan .code (translate (Line.writeAll indent ls).toList) =
      scan .code (translate (Line.writeAll indent ls').toList) := h.1
  rw [code, code, hscan]

theorem alike_of_calm {ls : List Line} (h : ∀ l ∈ ls, Calm l) : Alike indent ls ls :=
  ⟨rfl, readLines_of_calm h⟩

theorem alike_line {s : String} (h : Quiet s) (depth : Nat) :
    Alike indent [.text depth s] [.text depth s] :=
  alike_of_calm fun _ hl => List.mem_singleton.1 hl ▸ h

theorem alike_docLines {ls : List String} (h : ∀ l ∈ ls, ¬ EndsBlock l) (depth : Nat) :
    Alike indent (Fragment.docLines depth ls) [] := by
  rw [Alike, readLines_docLines h]
  exact ⟨rfl, rfl⟩

theorem calm_headLines {package : String} {imports : Imports} (hpackage : Quiet package)
    (himports : ∀ g ∈ imports.entries, Quiet g.1 ∧ ∀ n ∈ g.2, Quiet n) :
    ∀ l ∈ headLines package imports, Calm l := by
  intro l hl
  rw [headLines, List.mem_cons, List.mem_cons, List.mem_flatMap] at hl
  rcases hl with rfl | rfl | ⟨g, hg, hl⟩
  · have hline : Quiet ("package " ++ package ++ ";") := by
      simp +decide only [quiet_append, hpackage]
    exact hline
  · trivial
  · obtain ⟨hgroup, hnames⟩ := himports g hg
    rw [importLines] at hl
    split at hl
    · cases hl
    · rcases List.mem_append.1 hl with hl | hl
      · obtain ⟨n, hn, rfl⟩ := List.mem_map.1 hl
        have hline : Quiet ("import " ++ g.1 ++ "." ++ n ++ ";") := by
          simp +decide only [quiet_append, hgroup, hnames n hn]
        exact hline
      · rw [List.mem_singleton.1 hl]
        trivial

/-- Fragments that are alike one by one are alike together. -/
theorem alike_linesOfAll {depth : Nat} {fs fs' : List Fragment}
    (h : List.Forall₂ (fun f f' => Alike indent (f.lines depth) (f'.lines depth)) fs fs') :
    Alike indent (Fragment.linesOfAll depth fs) (Fragment.linesOfAll depth fs') := by
  induction h with
  | nil => exact alike_of_calm (by simp [Fragment.linesOfAll])
  | cons hf _ ih => exact hf.append ih

theorem alike_self {depth : Nat} {fs : List Fragment}
    (h : ∀ l ∈ Fragment.linesOfAll depth fs, Calm l) :
    List.Forall₂ (fun f f' => Alike indent (f.lines depth) (f'.lines depth)) fs fs := by
  rw [Fragment.linesOfAll_eq_flatMap] at h
  exact List.forall₂_same.2 fun f hf =>
    alike_of_calm fun l hl => h l (List.mem_flatMap_of_mem hf hl)

end Lexical

end EventForge.Java
