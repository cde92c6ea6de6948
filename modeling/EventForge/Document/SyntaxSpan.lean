import EventForge.Text.Split

/-!
# Places of syntax errors

A syntax error is reported by line and column, both counted from one; columns count bytes. The place
is shown as a byte offset into the text when it lies inside the text. Offsets are machine words, and
the sum that gives one is refused when it is no word.
-/

namespace EventForge.Document

def bytes (cs : List Char) : Nat := cs.foldl (fun n c => n + c.utf8Size) 0

/-- The lines of a text, each with the newline that ends it. -/
def linesWithEnds : List Char → List (List Char)
  | [] => []
  | c :: cs =>
    if c = '\n' then [c] :: linesWithEnds cs
    else
      match linesWithEnds cs with
      | [] => [[c]]
      | l :: ls => (c :: l) :: ls

/-- How many numbers a machine word can hold. -/
def wordCount : Nat := Nat.pow 2 64

/-- A sum that no machine word can hold. -/
structure Overflow where
  deriving DecidableEq, Repr

/-- Where a line starts: behind the lines in front of it. -/
def startOf (text : String) (line : Nat) : Nat :=
  bytes ((linesWithEnds text.toList).take (line - 1)).flatten

/-- The byte offset of a line and column, when it is inside the text. -/
def offsetOf (text : String) (line column : Nat) : Except Overflow (Option Nat) :=
  if line = 0 then .ok none
  else
    let offset := startOf text line + (column - 1)
    if offset < wordCount then .ok (if offset < bytes text.toList then some offset else none)
    else .error ⟨⟩

/-- Where an error is marked: offset and length. -/
def errorSpan (text : String) (line column : Nat) : Except Overflow (Option (Nat × Nat)) :=
  (offsetOf text line column).map fun place => place.map fun offset => (offset, 1)

end EventForge.Document
