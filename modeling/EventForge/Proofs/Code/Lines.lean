import EventForge.Code.Buffer

/-!
# Fragments as lines

Writing fragments adds lines to a buffer and leaves its level as it was (`fragment_eq`). The lines
and their depths depend on the fragments alone: a line is as deep as the number of blocks around it
(`lines_eq_map_nested`). The indentation only says what stands in front of a line of some depth.
-/

namespace EventForge.Code

/-- Spaces come in the widths that are offered; every other width counts as four. -/
theorem Indent.unit_spaces (width : Nat) :
    (Indent.spaces width).unit =
      String.ofList (List.replicate (if width ∈ [2, 4, 8] then width else 4) ' ') := by
  by_cases hwidth : width ∈ [2, 4, 8]
  · rw [if_pos hwidth]
    simp only [List.mem_cons, List.not_mem_nil, or_false] at hwidth
    obtain rfl | rfl | rfl := hwidth <;> rfl
  · have h2 : width ≠ 2 := fun h => hwidth (by simp [h])
    have h8 : width ≠ 8 := fun h => hwidth (by simp [h])
    rw [if_neg hwidth, unit.eq_3 width h2 h8]
    rfl

/-- A line at some depth, or a blank line, which has none. -/
inductive Line where
  | blank
  | text (depth : Nat) (content : String)
  deriving DecidableEq, Repr

namespace Line

/-- What stands in front of a line at some depth. -/
def margin (indent : Indent) (depth : Nat) : String :=
  String.join (List.replicate depth indent.unit)

def write (indent : Indent) : Line → String
  | blank => "\n"
  | text depth content => margin indent depth ++ content ++ "\n"

/-- The text of lines. -/
def writeAll (indent : Indent) (ls : List Line) : String := String.join (ls.map (write indent))

theorem writeAll_append (indent : Indent) (ls ls' : List Line) :
    writeAll indent (ls ++ ls') = writeAll indent ls ++ writeAll indent ls' := by
  rw [writeAll, List.map_append, String.join_append]
  rfl

theorem writeAll_cons (indent : Indent) (l : Line) (ls : List Line) :
    writeAll indent (l :: ls) = write indent l ++ writeAll indent ls := by
  rw [writeAll, List.map_cons, String.join_cons]
  rfl

/-- The line with `n` more blocks around it; a blank line stays. -/
def below (n : Nat) : Line → Line
  | blank => blank
  | text depth content => text (n + depth) content

theorem below_zero : below 0 = id := by
  funext l
  cases l <;> simp [below]

theorem below_comp_below (n k : Nat) : below n ∘ below k = below (n + k) := by
  funext l
  cases l <;> simp [below, Nat.add_assoc]

end Line

namespace Fragment

/-- The lines of a documentation comment. -/
def docLines (depth : Nat) (ls : List String) : List Line :=
  .text depth "/**" :: ls.map (fun l => .text depth (Buffer.docLine l)) ++ [.text depth " */"]

mutual

/-- The lines of a fragment at some depth. -/
def lines (depth : Nat) : Fragment → List Line
  | .line s => [.text depth s]
  | .blank => [.blank]
  | .block header body close =>
    .text depth header :: linesOfAll (depth + 1) body ++ close.toList.map (.text depth)
  | .sequence parts => linesOfAll depth parts
  | .doc ls => docLines depth ls

def linesOfAll (depth : Nat) : List Fragment → List Line
  | [] => []
  | f :: fs => lines depth f ++ linesOfAll depth fs

end

theorem linesOfAll_eq_flatMap (depth : Nat) (fs : List Fragment) :
    linesOfAll depth fs = fs.flatMap (lines depth) := by
  induction fs with
  | nil => rfl
  | cons f fs ih => rw [linesOfAll, ih, List.flatMap_cons]

theorem linesOfAll_append (depth : Nat) (fs fs' : List Fragment) :
    linesOfAll depth (fs ++ fs') = linesOfAll depth fs ++ linesOfAll depth fs' := by
  simp [linesOfAll_eq_flatMap]

theorem linesOfAll_map_line (depth : Nat) (ss : List String) :
    linesOfAll depth (ss.map Fragment.line) = ss.map (.text depth) := by
  rw [linesOfAll_eq_flatMap, List.flatMap_map, List.map_eq_flatMap]
  simp [lines]

theorem docLines_eq_map_below (depth : Nat) (ls : List String) :
    docLines depth ls = (docLines 0 ls).map (Line.below depth) := by
  simp [docLines, Line.below, Function.comp_def]

mutual

/-- The lines of a fragment in order, each with the number of blocks around it: a block is around its
body, not around its header and its closing line. -/
def nested : Fragment → List Line
  | .line s => [.text 0 s]
  | .blank => [.blank]
  | .block header body close =>
    .text 0 header :: (nestedAll body).map (Line.below 1) ++ close.toList.map (.text 0)
  | .sequence parts => nestedAll parts
  | .doc ls => docLines 0 ls

def nestedAll : List Fragment → List Line
  | [] => []
  | f :: fs => nested f ++ nestedAll fs

end

mutual

/-- At some depth, lines are deeper by the number of blocks around them. -/
theorem lines_eq_map_nested :
    ∀ (f : Fragment) (depth : Nat), lines depth f = (nested f).map (Line.below depth)
  | .line s, depth => by simp [lines, nested, Line.below]
  | .blank, depth => by simp [lines, nested, Line.below]
  | .block header body close, depth => by
    have hbody : linesOfAll (depth + 1) body =
        ((nestedAll body).map (Line.below 1)).map (Line.below depth) := by
      rw [linesOfAll_eq_map_nestedAll body, List.map_map, Line.below_comp_below]
    rw [lines, nested, hbody]
    cases close <;> simp [Line.below]
  | .sequence parts, depth => by rw [lines, nested, linesOfAll_eq_map_nestedAll parts]
  | .doc ls, depth => by rw [lines, nested, docLines_eq_map_below]

theorem linesOfAll_eq_map_nestedAll :
    ∀ (fs : List Fragment) (depth : Nat),
      linesOfAll depth fs = (nestedAll fs).map (Line.below depth)
  | [], _ => rfl
  | f :: fs, depth => by
    rw [linesOfAll, nestedAll, List.map_append, lines_eq_map_nested f,
      linesOfAll_eq_map_nestedAll fs]

end

end Fragment

namespace Buffer

/-- The buffer after lines were added to it. -/
def addLines (b : Buffer) (ls : List Line) : Buffer :=
  { b with text := b.text ++ Line.writeAll b.indent ls }

@[simp]
theorem addLines_nil (b : Buffer) : b.addLines [] = b := by
  simp [addLines, Line.writeAll]

theorem addLines_addLines (b : Buffer) (ls ls' : List Line) :
    (b.addLines ls).addLines ls' = b.addLines (ls ++ ls') := by
  simp [addLines, Line.writeAll_append, String.append_assoc]

theorem line_eq (b : Buffer) (s : String) : b.line s = b.addLines [.text b.level s] := by
  simp [line, addLines, Line.writeAll, Line.write, margin, Line.margin]

theorem blank_eq (b : Buffer) : b.blank = b.addLines [.blank] := by
  simp [blank, addLines, Line.writeAll, Line.write]

theorem foldl_line_eq (b : Buffer) (ss : List String) :
    ss.foldl line b = b.addLines (ss.map (.text b.level)) := by
  induction ss generalizing b with
  | nil => simp
  | cons s ss ih => rw [List.foldl_cons, ih, line_eq, addLines_addLines]; rfl

theorem doc_eq (b : Buffer) (ls : List String) :
    b.doc ls = b.addLines (Fragment.docLines b.level ls) := by
  rw [doc, foldl_line_eq, line_eq, line_eq, addLines_addLines, addLines_addLines]
  simp [addLines, Fragment.docLines, Function.comp_def]

mutual

/-- Writing a fragment adds its lines, and leaves the level as it was. -/
theorem fragment_eq : ∀ (f : Fragment) (b : Buffer), b.fragment f = b.addLines (f.lines b.level)
  | .line s, b => by rw [fragment, line_eq, Fragment.lines]
  | .blank, b => by rw [fragment, blank_eq, Fragment.lines]
  | .block header body close, b => by
    have hbody : ((b.line header).deeper.fragments body).shallower =
        b.addLines (.text b.level header :: Fragment.linesOfAll (b.level + 1) body) := by
      rw [fragments_eq body, line_eq]
      simp [shallower, deeper, addLines, Line.writeAll, String.append_assoc]
    cases close with
    | none => simp [fragment, hbody, Fragment.lines]
    | some c =>
      simp only [fragment, hbody, Fragment.lines]
      rw [line_eq, addLines_addLines]
      rfl
  | .sequence parts, b => by rw [fragment, fragments_eq parts b, Fragment.lines]
  | .doc ls, b => by rw [fragment, doc_eq, Fragment.lines]

theorem fragments_eq :
    ∀ (fs : List Fragment) (b : Buffer),
      b.fragments fs = b.addLines (Fragment.linesOfAll b.level fs)
  | [], b => by rw [fragments, Fragment.linesOfAll, addLines_nil]
  | f :: fs, b => by
    rw [fragments, fragment_eq f b, fragments_eq fs, Fragment.linesOfAll, addLines_addLines]
    rfl

end

end Buffer

end EventForge.Code
