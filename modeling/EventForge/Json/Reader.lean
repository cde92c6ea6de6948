import EventForge.Json.Basic

/-!
# Reading JSON text

The text holds one value with blanks around it. Values nest at most 127 deep, a string holds neither
control characters nor unpaired surrogates, and a number beyond the range of binary fractions is
refused. Each reader returns the value and the text behind it.
-/

namespace EventForge.Json

/-- How deep arrays and objects may nest. -/
def maxDepth : Nat := 127

def isSpace (c : Char) : Bool := c = ' ' ∨ c = '\n' ∨ c = '\t' ∨ c = '\r'

def skipSpace (cs : List Char) : List Char := cs.dropWhile isSpace

/-- The character that a short escape stands for. -/
def shortEscape? : Char → Option Char
  | '"' => some '"'
  | '\\' => some '\\'
  | '/' => some '/'
  | 'b' => some '\x08'
  | 'f' => some '\x0c'
  | 'n' => some '\n'
  | 'r' => some '\r'
  | 't' => some '\t'
  | _ => none

/-- The code units of a string up to its closing quote: code points of plain characters and the
numbers of `\u` escapes. -/
def stringUnits? : List Char → Option (List Nat × List Char)
  | [] => none
  | '"' :: rest => some ([], rest)
  | '\\' :: 'u' :: a :: b :: c :: d :: rest => do
    let unit ← Text.hexValue? [a, b, c, d]
    let (units, rest) ← stringUnits? rest
    return (unit :: units, rest)
  | '\\' :: e :: rest => do
    let c ← shortEscape? e
    let (units, rest) ← stringUnits? rest
    return (c.toNat :: units, rest)
  | c :: rest => do
    guard (' ' ≤ c ∧ c ≠ '\\')
    let (units, rest) ← stringUnits? rest
    return (c.toNat :: units, rest)

def isHighSurrogate (n : Nat) : Bool := 0xD800 ≤ n ∧ n < 0xDC00

def isLowSurrogate (n : Nat) : Bool := 0xDC00 ≤ n ∧ n < 0xE000

/-- The characters of code units; surrogates count only as a high one followed by a low one. -/
def textOfUnits? : List Nat → Option (List Char)
  | [] => some []
  | [n] => if isHighSurrogate n ∨ isLowSurrogate n then none else some [Char.ofNat n]
  | n :: m :: rest =>
    if isHighSurrogate n then
      if isLowSurrogate m then
        (textOfUnits? rest).map
          (Char.ofNat (0x10000 + (n - 0xD800) * 0x400 + (m - 0xDC00)) :: ·)
      else none
    else if isLowSurrogate n then none
    else (textOfUnits? (m :: rest)).map (Char.ofNat n :: ·)

/-- A string after its opening quote. -/
def stringBody? (cs : List Char) : Option (String × List Char) := do
  let (units, rest) ← stringUnits? cs
  let text ← textOfUnits? units
  return (String.ofList text, rest)

/-- The greatest number of which all digits are kept. -/
def digitBound : Nat := Nat.pow 2 64 - 1

/-- Appends digits to a number while it stays within the bound; also counts the digits taken. -/
def gather (n : Nat) : List Nat → Nat × Nat
  | [] => (n, 0)
  | d :: ds =>
    if n * 10 + d ≤ digitBound then
      let (m, taken) := gather (n * 10 + d) ds
      (m, taken + 1)
    else (n, 0)

/-- The digits at the front of a text, and the rest. -/
def digits : List Char → List Nat × List Char
  | [] => ([], [])
  | c :: cs =>
    match Text.digit? c with
    | some d =>
      let (ds, rest) := digits cs
      (d :: ds, rest)
    | none => ([], c :: cs)

/-- The digits of an integer: no leading zero unless it is the only digit. -/
def integerDigits? (cs : List Char) : Option (List Nat × List Char) :=
  match digits cs with
  | ([], _) => none
  | (0 :: _ :: _, _) => none
  | r => some r

/-- The digits behind the point, none when there is no point. -/
def fractionDigits? : List Char → Option (List Nat × List Char)
  | '.' :: cs =>
    match digits cs with
    | ([], _) => none
    | r => some r
  | cs => some ([], cs)

/-- The power of ten that a text starts with; a missing one is told apart from zero. -/
def exponent? : List Char → Option (Option Int × List Char)
  | c :: cs =>
    if c = 'e' ∨ c = 'E' then
      let (negative, cs) := match cs with
        | '+' :: rest => (false, rest)
        | '-' :: rest => (true, rest)
        | _ => (false, cs)
      match digits cs with
      | ([], _) => none
      | (ds, rest) =>
        let n : Nat := ds.foldl (fun n d => n * 10 + d) 0
        some (some (if negative then -(n : Int) else n), rest)
    else some (none, c :: cs)
  | [] => some (none, [])

/-- The number with the given sign, digits and power of ten. -/
def numberOf? (negative : Bool) (whole fraction : List Nat) (exponent : Option Int) :
    Option Number :=
  let n := whole.foldl (fun n d => n * 10 + d) 0
  if fraction = [] ∧ exponent = none ∧ !negative ∧ n ≤ digitBound then some (.integer n)
  else if fraction = [] ∧ exponent = none ∧ negative ∧ 0 < n ∧ n ≤ Nat.pow 2 63 then
    some (.integer (-n))
  else
    let (w, wholeTaken) := gather 0 whole
    let (f, fractionTaken) := gather w fraction
    let tens : Int := (whole.length - wholeTaken : Nat) - fractionTaken + exponent.getD 0
    (Magnitude.ofDecimal? f tens).map fun m => .real ⟨negative, m⟩

def number? (cs : List Char) : Option (Number × List Char) := do
  let (negative, cs) := match cs with
    | '-' :: rest => (true, rest)
    | _ => (false, cs)
  let (whole, cs) ← integerDigits? cs
  let (fraction, cs) ← fractionDigits? cs
  let (exponent, cs) ← exponent? cs
  let n ← numberOf? negative whole fraction exponent
  return (n, cs)

/-- The rest of a text behind a given word. -/
def afterWord? (word : String) (cs : List Char) : Option (List Char) :=
  if word.toList.isPrefixOf cs then some (cs.drop word.length) else none

mutual

/-- A value at the front of a text. The first number bounds the steps, the second the depth. -/
def value? : Nat → Nat → List Char → Option (Json × List Char)
  | 0, _, _ => none
  | fuel + 1, depth, cs =>
    match skipSpace cs with
    | '\x7b' :: cs =>
      match depth, skipSpace cs with
      | 0, _ => none
      | _ + 1, '\x7d' :: rest => some (.object [], rest)
      | depth + 1, cs => (fields? fuel depth [] cs).map fun (fields, rest) => (.object fields, rest)
    | '[' :: cs =>
      match depth, skipSpace cs with
      | 0, _ => none
      | _ + 1, ']' :: rest => some (.array [], rest)
      | depth + 1, cs => (items? fuel depth cs).map fun (items, rest) => (.array items, rest)
    | '"' :: cs => (stringBody? cs).map fun (s, rest) => (.string s, rest)
    | 'n' :: cs => (afterWord? "ull" cs).map fun rest => (.null, rest)
    | 't' :: cs => (afterWord? "rue" cs).map fun rest => (.bool true, rest)
    | 'f' :: cs => (afterWord? "alse" cs).map fun rest => (.bool false, rest)
    | cs => (number? cs).map fun (n, rest) => (.number n, rest)

/-- The items of an array that has at least one more, up to the closing bracket. -/
def items? : Nat → Nat → List Char → Option (List Json × List Char)
  | 0, _, _ => none
  | fuel + 1, depth, cs =>
    match value? fuel depth cs with
    | none => none
    | some (item, rest) =>
      match skipSpace rest with
      | ',' :: rest =>
        (items? fuel depth rest).map fun (items, rest) => (item :: items, rest)
      | ']' :: rest => some ([item], rest)
      | _ => none

/-- The fields read so far with those of an object that has at least one more, up to the closing
brace. -/
def fields? : Nat → Nat → List (String × Json) → List Char →
    Option (List (String × Json) × List Char)
  | 0, _, _, _ => none
  | fuel + 1, depth, seen, cs =>
    match skipSpace cs with
    | '"' :: cs =>
      match stringBody? cs with
      | none => none
      | some (name, rest) =>
        match skipSpace rest with
        | ':' :: rest =>
          match value? fuel depth rest with
          | none => none
          | some (value, rest) =>
            let seen := upsert seen name value
            match skipSpace rest with
            | ',' :: rest => fields? fuel depth seen rest
            | '\x7d' :: rest => some (seen, rest)
            | _ => none
        | _ => none
    | _ => none

end

/-- The value that a whole text holds. -/
def ofText? (text : String) : Option Json :=
  let cs := text.toList
  match value? (2 * cs.length + 1) maxDepth cs with
  | some (json, rest) => if skipSpace rest = [] then some json else none
  | none => none

end EventForge.Json
