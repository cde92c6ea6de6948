import EventForge.Text.CaseTable

/-!
# Upper and lower case

Each character has an upper-case and a lower-case image, which may be several characters long
(`ß` becomes `SS`). Texts are mapped character by character.
-/

namespace EventForge.Text

/-- The image of `c` under runs and expansions, or `c` itself. -/
def caseImage (runs : List CaseRun) (expansions : List (Nat × List Nat)) (c : Char) : List Char :=
  match runs.findSome? fun r => r.image? c.toNat with
  | some n => [Char.ofNat n]
  | none =>
    match expansions.lookup c.toNat with
    | some ns => ns.map Char.ofNat
    | none => [c]

def lowerChar (c : Char) : List Char :=
  caseImage lowerRuns lowerExpansions c

def upperChar (c : Char) : List Char :=
  caseImage upperRuns upperExpansions c

def lower (s : String) : String :=
  String.ofList (s.toList.flatMap lowerChar)

def upper (s : String) : String :=
  String.ofList (s.toList.flatMap upperChar)

/-- Maps the first character and leaves the rest untouched. -/
def mapFirst (f : Char → List Char) (s : String) : String :=
  match s.toList with
  | [] => ""
  | c :: cs => String.ofList (f c ++ cs)

def capitalizeFirst (s : String) : String :=
  mapFirst upperChar s

def lowerFirst (s : String) : String :=
  mapFirst lowerChar s

end EventForge.Text
