import EventForge.Text.Numeral

/-!
# Indentation

Code is indented by tabs or by spaces; widths other than 2, 4 and 8 count as 4.
-/

namespace EventForge.Code

inductive Indent where
  | spaces (width : Nat)
  | tab
  deriving DecidableEq, Repr

namespace Indent

/-- The text of one level. -/
def unit : Indent → String
  | spaces 2 => "  "
  | spaces 8 => "        "
  | spaces _ => "    "
  | tab => "\t"

/-- An indentation that is none of those offered. -/
structure Fault where
  text : String
  deriving DecidableEq, Repr

def Fault.message (f : Fault) : String :=
  "invalid indent '" ++ f.text ++ "', expected 'tab', 2, 4 or 8"

/-- The widths that can be asked for. -/
def widths : List Nat := [2, 4, 8]

/-- The greatest width that is read at all. -/
def widthBound : Nat := 255

/-- Reads `tab`, in any case, or a width. -/
def ofText (text : String) : Except Fault Indent :=
  if text.toList.map Char.toLower = ['t', 'a', 'b'] then .ok .tab
  else
    match Text.numeral? widthBound text.toList with
    | some n => if n ∈ widths then .ok (.spaces n) else .error ⟨text⟩
    | none => .error ⟨text⟩

end Indent

end EventForge.Code
