import EventForge.Text.Range

/-!
# Blank characters

A blank is a code point with the Unicode property White_Space. Names are compacted by dropping every
blank; namespaces are trimmed at both ends.
-/

namespace EventForge.Text

/-- Code points with the property White_Space. -/
def blankRanges : List (Nat × Nat) :=
  [(0x09, 0x0D), (0x20, 0x20), (0x85, 0x85), (0xA0, 0xA0), (0x1680, 0x1680), (0x2000, 0x200A),
   (0x2028, 0x2029), (0x202F, 0x202F), (0x205F, 0x205F), (0x3000, 0x3000)]

def isBlank (c : Char) : Bool :=
  inRanges blankRanges c

/-- The text with every blank removed, inner ones included. -/
def compact (s : String) : String :=
  String.ofList (s.toList.filter fun c => !isBlank c)

/-- The text without the blanks at its two ends. -/
def trim (s : String) : String :=
  String.ofList ((s.toList.dropWhile isBlank).reverse.dropWhile isBlank).reverse

theorem toList_compact (s : String) :
    (compact s).toList = s.toList.filter fun c => !isBlank c := by
  simp [compact]

end EventForge.Text
