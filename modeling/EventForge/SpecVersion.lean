import EventForge.Text.Numeral
import EventForge.Text.Split

/-!
# Versions of the document format

A version is written `X.Y.Z` or `X.Y.Z-label`; the numbers fit in 32 bits and the label, which
begins after the first hyphen, is not empty.
-/

namespace EventForge

structure SpecVersion where
  major : Nat
  minor : Nat
  patch : Nat
  label : Option String
  deriving DecidableEq, Repr

namespace SpecVersion

inductive Fault where
  | emptyLabel (text : String)
  | wrongParts (text : String)
  | invalidMajor
  | invalidMinor
  | invalidPatch
  deriving DecidableEq, Repr

def Fault.message : Fault → String
  | emptyLabel text => "invalid version '" ++ text ++ "', empty pre-release"
  | wrongParts text => "invalid version '" ++ text ++ "', expected 'X.Y.Z[-pre]'"
  | invalidMajor => "invalid major"
  | invalidMinor => "invalid minor"
  | invalidPatch => "invalid patch"

/-- The greatest number a component may hold. -/
def componentBound : Nat := Nat.pow 2 32 - 1

def component (fault : Fault) (cs : List Char) : Except Fault Nat :=
  match Text.numeral? componentBound cs with
  | some n => .ok n
  | none => .error fault

/-- Reads the numbers in front of the label. -/
def ofCore (text : String) (core : List Char) (label : Option String) : Except Fault SpecVersion :=
  match Text.splitOn '.' core with
  | [x, y, z] => do
    let major ← component .invalidMajor x
    let minor ← component .invalidMinor y
    let patch ← component .invalidPatch z
    return ⟨major, minor, patch, label⟩
  | _ => .error (.wrongParts text)

def ofText (text : String) : Except Fault SpecVersion :=
  match Text.cutFirst? '-' text.toList with
  | some (_, []) => .error (.emptyLabel text)
  | some (core, label) => ofCore text core (some (String.ofList label))
  | none => ofCore text text.toList none

def toText (v : SpecVersion) : String :=
  let core := Text.decimal v.major ++ "." ++ Text.decimal v.minor ++ "." ++ Text.decimal v.patch
  match v.label with
  | some label => core ++ "-" ++ label
  | none => core

end SpecVersion

end EventForge
