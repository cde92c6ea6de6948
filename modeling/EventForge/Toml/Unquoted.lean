import EventForge.Text.Numeral
import EventForge.Text.Split

/-!
# TOML values without quotes

A value without quotes is a number, a truth value, a date or a time. No setting holds one, so it is
enough to tell which texts are such values; what they stand for is never asked, and a number may be
of any size.
-/

namespace EventForge.Toml.Unquoted

def isSign (c : Char) : Bool := c = '+' ∨ c = '-'

def withoutSign : List Char → List Char
  | [] => []
  | c :: cs => if isSign c then cs else c :: cs

/-! ## Numbers -/

/-- Digits with single underscores between them. -/
def isGrouped (isDigit : Char → Bool) (cs : List Char) : Bool :=
  (Text.splitOn '_' cs).all fun group => !group.isEmpty && group.all isDigit

/-- A whole number without a sign; of several digits the first is not zero. -/
def isWhole (cs : List Char) : Bool :=
  isGrouped Char.isDigit cs && (cs.head? ≠ some '0' || cs = ['0'])

/-- A whole number that may have a sign. Behind the sign an underscore may stand, and then zeros in
front do no harm. -/
def isSignedWhole : List Char → Bool
  | [] => false
  | c :: cs =>
    if isSign c then
      match cs with
      | '_' :: digits => isGrouped Char.isDigit digits
      | _ => isWhole cs
    else isWhole (c :: cs)

def isHexDigit (c : Char) : Bool := (Text.hexDigit? c).isSome

/-- The digits of the base with a given mark. -/
def digitsOfBase? : Char → Option (Char → Bool)
  | 'x' => some isHexDigit
  | 'o' => some fun c => '0' ≤ c ∧ c ≤ '7'
  | 'b' => some fun c => c = '0' ∨ c = '1'
  | _ => none

/-- A whole number in base 16, 8 or 2, whose digits may be missing altogether. -/
def isBased : List Char → Bool
  | '0' :: mark :: digits =>
    match digitsOfBase? mark with
    | some isDigit => digits.isEmpty || isGrouped isDigit digits
    | none => false
  | _ => false

def isExponentMark (c : Char) : Bool := c = 'e' ∨ c = 'E'

def isPointOrMark (c : Char) : Bool := c = '.' || isExponentMark c

/-- A whole number in groups with underscores between them. Only the ends of a group that stand
beside an underscore have to be digits, of base 16 even; the rest is not looked into. -/
def isLooselyGrouped (cs : List Char) : Bool :=
  match Text.splitOn '_' (withoutSign cs) with
  | [] => false
  | first :: groups =>
    cs.head? ≠ some '_' && first.head? ≠ some '0' && first.all Char.isDigit
      && !groups.isEmpty
      && groups.all (fun group => group.head?.any isHexDigit && !group.any isPointOrMark)
      && groups.dropLast.all fun group => group.getLast?.any isHexDigit

/-- An exponent, its mark included. -/
def isExponent : List Char → Bool
  | [] => false
  | mark :: cs => isExponentMark mark && isGrouped Char.isDigit (withoutSign cs)

/-- What stands behind the point: digits and possibly an exponent. -/
def isFraction (cs : List Char) : Bool :=
  let exponent := cs.dropWhile fun c => !isExponentMark c
  isGrouped Char.isDigit (cs.takeWhile fun c => !isExponentMark c)
    && (exponent.isEmpty || isExponent exponent)

/-- A number with a fraction, an exponent or both. -/
def isFractional (cs : List Char) : Bool :=
  isSignedWhole (cs.takeWhile fun c => !isPointOrMark c)
    && match cs.dropWhile fun c => !isPointOrMark c with
      | '.' :: fraction => isFraction fraction
      | exponent => isExponent exponent

/-- Infinity and the value that is no number. -/
def isSpecial (cs : List Char) : Bool :=
  withoutSign cs = ['i', 'n', 'f'] || withoutSign cs = ['n', 'a', 'n']

def isNumber (cs : List Char) : Bool :=
  isSignedWhole cs || isLooselyGrouped cs || isBased cs || isFractional cs || isSpecial cs

/-! ## Dates and times -/

def isLeap (year : Nat) : Bool := year % 4 = 0 && (year % 100 ≠ 0 || year % 400 = 0)

def daysIn (year month : Nat) : Nat :=
  if month = 2 then if isLeap year then 29 else 28
  else if month = 4 ∨ month = 6 ∨ month = 9 ∨ month = 11 then 30
  else 31

/-- The number at the front of a text that has two digits, and the text behind it. -/
def twoDigits? : List Char → Option (Nat × List Char)
  | a :: b :: rest => (Text.digitsValue? 0 [a, b]).map fun n => (n, rest)
  | _ => none

/-- The text behind a date. -/
def afterDate? : List Char → Option (List Char)
  | a :: b :: c :: d :: '-' :: rest => do
    let year ← Text.digitsValue? 0 [a, b, c, d]
    match ← twoDigits? rest with
    | (month, '-' :: rest) =>
      let (day, rest) ← twoDigits? rest
      if 1 ≤ month ∧ month ≤ 12 ∧ 1 ≤ day ∧ day ≤ daysIn year month then some rest else none
    | _ => none
  | _ => none

/-- The text behind hours and minutes. -/
def afterMinutes? (cs : List Char) : Option (List Char) := do
  match ← twoDigits? cs with
  | (hour, ':' :: rest) =>
    let (minute, rest) ← twoDigits? rest
    if hour ≤ 23 ∧ minute ≤ 59 then some rest else none
  | _ => none

/-- The text behind seconds, of which there may be sixty, and their fraction. -/
def afterSeconds? (cs : List Char) : Option (List Char) := do
  let (second, rest) ← twoDigits? cs
  if 60 < second then none
  else
    match rest with
    | '.' :: c :: rest => if c.isDigit then some (rest.dropWhile Char.isDigit) else none
    | _ => some rest

/-- The text behind a time, which need not have seconds. -/
def afterTime? (cs : List Char) : Option (List Char) := do
  match ← afterMinutes? cs with
  | ':' :: rest => afterSeconds? rest
  | rest => some rest

/-- The distance from universal time, which may be left out. -/
def isOffset : List Char → Bool
  | [] => true
  | c :: rest =>
    if isSign c then afterMinutes? rest = some [] else (c = 'Z' || c = 'z') && rest.isEmpty

def isDate (cs : List Char) : Bool := afterDate? cs = some []

/-- A date, a time, or a date with a time behind it. -/
def isDateOrTime (cs : List Char) : Bool :=
  match afterDate? cs with
  | none => afterTime? cs = some []
  | some [] => true
  | some (c :: rest) => (c = 'T' || c = 't' || c = ' ') && ((afterTime? rest).any isOffset)

def isTruth (cs : List Char) : Bool :=
  cs = ['t', 'r', 'u', 'e'] || cs = ['f', 'a', 'l', 's', 'e']

/-- The text is a value without quotes. -/
def isValue (cs : List Char) : Bool := isTruth cs || isNumber cs || isDateOrTime cs

end EventForge.Toml.Unquoted
