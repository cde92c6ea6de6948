/-!
# Numerals

A decimal numeral is an optional `+` and one or more ASCII digits; leading zeros are allowed.
Readers bound the value from above. Hexadecimal digits are read in either case.
-/

namespace EventForge.Text

/-- The value of an ASCII digit. -/
def digit? (c : Char) : Option Nat :=
  if '0' ≤ c ∧ c ≤ '9' then some (c.toNat - '0'.toNat) else none

/-- The value of a digit sequence read after `acc`, when it holds nothing else. -/
def digitsValue? (acc : Nat) : List Char → Option Nat
  | [] => some acc
  | c :: cs => (digit? c).bind fun d => digitsValue? (acc * 10 + d) cs

/-- The value of an unsigned numeral, when it is at most `bound`. -/
def numeral? (bound : Nat) (cs : List Char) : Option Nat :=
  let digits := match cs with
    | '+' :: rest => rest
    | _ => cs
  if digits = [] then none
  else (digitsValue? 0 digits).filter (· ≤ bound)

/-- The value of a hexadecimal digit in either case. -/
def hexDigit? (c : Char) : Option Nat :=
  if '0' ≤ c ∧ c ≤ '9' then some (c.toNat - '0'.toNat)
  else if 'a' ≤ c ∧ c ≤ 'f' then some (c.toNat - 'a'.toNat + 10)
  else if 'A' ≤ c ∧ c ≤ 'F' then some (c.toNat - 'A'.toNat + 10)
  else none

/-- The number that hexadecimal digits stand for, when there are only such digits. -/
def hexValue? (cs : List Char) : Option Nat :=
  (cs.mapM hexDigit?).map fun ds => ds.foldl (fun n d => n * 16 + d) 0

/-- The decimal digits of `n` put in front of `rest`. -/
def digitsOnto (n : Nat) (rest : List Char) : List Char :=
  let head := Char.ofNat ('0'.toNat + n % 10) :: rest
  if n < 10 then head else digitsOnto (n / 10) head

def decimal (n : Nat) : String :=
  String.ofList (digitsOnto n [])

end EventForge.Text
