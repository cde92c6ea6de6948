import EventForge.Text.Split

/-!
# Identifiers

An identifier is a UUID: 32 hexadecimal digits. It is read from four spellings (32 digits, the
hyphenated form, the hyphenated form in braces or after `urn:uuid:`) in either case, and always
written hyphenated in lower case.
-/

namespace EventForge

structure Uuid where
  digits : List (Fin 16)
  length_eq : digits.length = 32
  deriving DecidableEq, Repr

namespace Uuid

/-- The identifier whose digits are all zero. -/
def nil : Uuid := ⟨List.replicate 32 0, by simp⟩

instance : Inhabited Uuid := ⟨nil⟩

/-- The value of a hexadecimal digit in either case. -/
def hexDigit? (c : Char) : Option (Fin 16) :=
  if '0' ≤ c ∧ c ≤ '9' then some (Fin.ofNat 16 (c.toNat - '0'.toNat))
  else if 'a' ≤ c ∧ c ≤ 'f' then some (Fin.ofNat 16 (c.toNat - 'a'.toNat + 10))
  else if 'A' ≤ c ∧ c ≤ 'F' then some (Fin.ofNat 16 (c.toNat - 'A'.toNat + 10))
  else none

def hexChar (d : Fin 16) : Char :=
  if d.val < 10 then Char.ofNat ('0'.toNat + d.val) else Char.ofNat ('a'.toNat + (d.val - 10))

/-- Reads 32 digits and nothing else. -/
def ofDigits? (cs : List Char) : Option Uuid :=
  (cs.mapM hexDigit?).bind fun ds => if h : ds.length = 32 then some ⟨ds, h⟩ else none

/-- Reads digits in groups of 8, 4, 4, 4 and 12 with hyphens between them. -/
def ofHyphenated? (cs : List Char) : Option Uuid :=
  let groups := Text.splitOn '-' cs
  if groups.map List.length = [8, 4, 4, 4, 12] then ofDigits? groups.flatten else none

/-- The rest of the text after `urn:uuid:` in any case, when the text starts so. -/
def afterUrn? (cs : List Char) : Option (List Char) :=
  if (cs.take 9).map Char.toLower = "urn:uuid:".toList then some (cs.drop 9) else none

/-- The text between an opening and a closing brace that enclose all of it. -/
def inBraces? : List Char → Option (List Char)
  | '\x7b' :: rest =>
    match rest.reverse with
    | '\x7d' :: inner => some inner.reverse
    | _ => none
  | _ => none

/-- Reads an identifier in any of its spellings. -/
def ofText? (s : String) : Option Uuid :=
  let cs := s.toList
  match inBraces? cs with
  | some inner => ofHyphenated? inner
  | none =>
    match afterUrn? cs with
    | some rest => ofHyphenated? rest
    | none => if cs.contains '-' then ofHyphenated? cs else ofDigits? cs

/-- Five groups of digits with hyphens between them, in lower case. -/
def toText (u : Uuid) : String :=
  let cs := u.digits.map hexChar
  String.ofList <| Text.joined '-'
    [cs.take 8, (cs.drop 8).take 4, (cs.drop 12).take 4, (cs.drop 16).take 4, cs.drop 20]

instance : ToString Uuid := ⟨toText⟩

end Uuid

end EventForge
