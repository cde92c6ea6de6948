/-!
# Splitting and joining text

Splitting at a separator keeps empty pieces, so joining the pieces with the separator gives the text
back (`joined_splitOn`).
-/

namespace EventForge.Text

/-- The pieces of a text between the occurrences of `sep`; there is always at least one. -/
def splitOn (sep : Char) : List Char → List (List Char)
  | [] => [[]]
  | c :: cs =>
    if c = sep then [] :: splitOn sep cs
    else
      match splitOn sep cs with
      | [] => [[c]]
      | p :: ps => (c :: p) :: ps

/-- Pieces with `sep` between them. -/
def joined (sep : Char) : List (List Char) → List Char
  | [] => []
  | [p] => p
  | p :: q :: ps => p ++ sep :: joined sep (q :: ps)

theorem splitOn_ne_nil (sep : Char) (cs : List Char) : splitOn sep cs ≠ [] := by
  cases cs with
  | nil => simp [splitOn]
  | cons c cs =>
    rw [splitOn]
    split
    · simp
    · split <;> simp

theorem joined_splitOn (sep : Char) (cs : List Char) : joined sep (splitOn sep cs) = cs := by
  induction cs with
  | nil => rfl
  | cons c cs ih =>
    have hne := splitOn_ne_nil sep cs
    rw [splitOn]
    split
    · next h =>
      subst h
      match hs : splitOn c cs with
      | [] => exact absurd hs hne
      | q :: ps => rw [joined, ← hs, ih, List.nil_append]
    · match hs : splitOn sep cs with
      | [] => exact absurd hs hne
      | [p] => rw [hs] at ih; simpa [joined] using ih
      | p :: q :: ps => rw [hs] at ih; simpa [joined] using ih

/-- The pieces of a string between the occurrences of `sep`. -/
def pieces (sep : Char) (s : String) : List String :=
  (splitOn sep s.toList).map String.ofList

/-- Texts with `sep` between them. -/
def joinWith (sep : String) : List String → String
  | [] => ""
  | [s] => s
  | s :: t :: rest => s ++ sep ++ joinWith sep (t :: rest)

/-- What stands before and after the first `sep`. -/
def cutFirst? (sep : Char) : List Char → Option (List Char × List Char)
  | [] => none
  | c :: cs =>
    if c = sep then some ([], cs) else (cutFirst? sep cs).map fun (a, b) => (c :: a, b)

/-- What stands before and after the last `sep`. -/
def cutLast? (sep : Char) : List Char → Option (List Char × List Char)
  | [] => none
  | c :: cs =>
    match cutLast? sep cs with
    | some (a, b) => some (c :: a, b)
    | none => if c = sep then some ([], cs) else none

/-- The text with every `a` replaced by `b`. -/
def replaceChar (a b : Char) (s : String) : String :=
  String.ofList (s.toList.map fun c => if c = a then b else c)

end EventForge.Text
