import EventForge.Dict
import EventForge.Number.Shortest

/-!
# JSON values

The fields of an object are listed in the order in which they were first written; of a repeated name
the last value counts.
-/

namespace EventForge

/-- A number: an integer of 64 bits, signed or unsigned, or a binary fraction. -/
inductive Json.Number where
  | integer (value : Int)
  | real (value : Binary64)
  deriving DecidableEq, Repr

namespace Json.Number

def toText : Number → String
  | integer n => if n < 0 then "-" ++ Text.decimal n.natAbs else Text.decimal n.natAbs
  | real x => x.toText

/-- The value of an integer that is in the signed 64-bit range. -/
def signed? : Number → Option Int
  | integer n => if -Int.pow 2 63 ≤ n ∧ n < Int.pow 2 63 then some n else none
  | real _ => none

end Json.Number

inductive Json where
  | null
  | bool (value : Bool)
  | number (value : Json.Number)
  | string (value : String)
  | array (items : List Json)
  | object (fields : List (String × Json))
  deriving Repr

namespace Json

/-- The kind of a value, with its article. -/
def kind : Json → String
  | null => "null"
  | bool _ => "a boolean"
  | number _ => "a number"
  | string _ => "a string"
  | array _ => "an array"
  | object _ => "an object"

/-- The text of a string, number or truth value. -/
def scalarText? : Json → Option String
  | string s => some s
  | number n => some n.toText
  | bool true => some "true"
  | bool false => some "false"
  | _ => none

end Json

end EventForge
