import EventForge.Text.Numeral
import EventForge.Toml.Table
import EventForge.Toml.Unquoted

/-!
# Reading TOML text

Settings are lines of headers, of keys with values, and of comments. Headers for arrays of tables
are refused, since no setting holds one. Each reader returns what it read and the text behind it.
-/

namespace EventForge.Toml

def isBlank (c : Char) : Bool := c = ' ' ∨ c = '\t'

def skipBlanks (cs : List Char) : List Char := cs.dropWhile isBlank

/-- Characters that may stand in comments and, unless they close or escape, in texts. -/
def isPlain (c : Char) : Bool := c = '\t' ∨ (' ' ≤ c ∧ c ≠ '\x7f')

/-- Skips blanks, line ends and comments; `inComment` tells whether a comment has begun. -/
def skipLines (inComment : Bool) : List Char → List Char
  | [] => []
  | '\n' :: cs => skipLines false cs
  | '\r' :: '\n' :: cs => skipLines false cs
  | c :: cs =>
    if inComment then if isPlain c then skipLines true cs else c :: cs
    else if isBlank c then skipLines false cs
    else if c = '#' then skipLines true cs
    else c :: cs

/-- The text behind the end of a line, which may be preceded by a comment. -/
def afterLine? (cs : List Char) : Option (List Char) :=
  let rest := match skipBlanks cs with
    | '#' :: cs => cs.dropWhile isPlain
    | cs => cs
  match rest with
  | [] => some []
  | '\n' :: cs => some cs
  | '\r' :: '\n' :: cs => some cs
  | _ => none

/-! ## Texts -/

/-- At the end of a text in the given quotes: quotes that still belong to it, and the rest. Long
texts end at three quotes, and up to two more quotes in front of those belong to the text. -/
def closing? (quote : Char) (long : Bool) (cs : List Char) : Option (List Char × List Char) :=
  match long, (cs.takeWhile (· = quote)).length with
  | false, _ + 1 => some ([], cs.drop 1)
  | true, n + 3 =>
    let kept := min n 2
    some (List.replicate kept quote, cs.drop (kept + 3))
  | _, _ => none

/-- The character that a short escape stands for. -/
def shortEscape? : Char → Option Char
  | 'b' => some '\x08'
  | 't' => some '\t'
  | 'n' => some '\n'
  | 'f' => some '\x0c'
  | 'r' => some '\r'
  | 'e' => some '\x1b'
  | '"' => some '"'
  | '\\' => some '\\'
  | _ => none

/-- The character with a hexadecimal number. -/
def numbered? (digits : List Char) : Option Char :=
  (Text.hexValue? digits).bind fun n => if n.isValidChar then some (Char.ofNat n) else none

/-- A line break that may stand in a long text. -/
def breaksLine (c : Char) (rest : List Char) : Bool :=
  c = '\n' ∨ (c = '\r' ∧ rest.head? = some '\n')

/-- Nothing but blanks stands in front of the next line break. -/
def lineIsOver (cs : List Char) : Bool :=
  match skipBlanks cs with
  | c :: rest => breaksLine c rest
  | [] => false

/-- A text in double quotes, behind the opening quotes. A backslash at the end of a line of a long
text skips everything up to the next visible character; `skipping` tells that this is going on. -/
def quotedBody? (long skipping : Bool) : List Char → Option (List Char × List Char)
  | [] => none
  | '\\' :: 'u' :: a :: b :: c :: d :: rest => do
    let char ← numbered? [a, b, c, d]
    let (text, rest) ← quotedBody? long false rest
    return (char :: text, rest)
  | '\\' :: 'U' :: a :: b :: c :: d :: e :: f :: g :: h :: rest => do
    let char ← numbered? [a, b, c, d, e, f, g, h]
    let (text, rest) ← quotedBody? long false rest
    return (char :: text, rest)
  | '\\' :: 'x' :: a :: b :: rest => do
    let char ← numbered? [a, b]
    let (text, rest) ← quotedBody? long false rest
    return (char :: text, rest)
  | '\\' :: e :: rest =>
    match shortEscape? e with
    | some char => do
      let (text, rest) ← quotedBody? long false rest
      return (char :: text, rest)
    | none => if long ∧ lineIsOver (e :: rest) then quotedBody? long true rest else none
  | c :: rest =>
    if skipping ∧ (isBlank c ∨ breaksLine c rest) then quotedBody? long true rest
    else
      match closing? '"' long (c :: rest) with
      | some r => some r
      | none =>
        if (isPlain c ∧ c ≠ '\\') ∨ (long ∧ breaksLine c rest) then do
          let (text, rest) ← quotedBody? long false rest
          return (c :: text, rest)
        else none

/-- A text in single quotes, behind the opening quotes. -/
def literalBody? (long : Bool) : List Char → Option (List Char × List Char)
  | [] => none
  | c :: rest =>
    match closing? '\'' long (c :: rest) with
    | some r => some r
    | none =>
      if isPlain c ∨ (long ∧ breaksLine c rest) then do
        let (text, rest) ← literalBody? long rest
        return (c :: text, rest)
      else none

/-- The line break that may follow the opening quotes of a long text and is no part of it. -/
def skipLineBreak : List Char → List Char
  | '\n' :: cs => cs
  | '\r' :: '\n' :: cs => cs
  | cs => cs

/-- A text in quotes on one line. -/
def shortText? : List Char → Option (String × List Char)
  | '"' :: cs => (quotedBody? false false cs).map fun (text, rest) => (String.ofList text, rest)
  | '\'' :: cs => (literalBody? false cs).map fun (text, rest) => (String.ofList text, rest)
  | _ => none

/-- A text in quotes of any kind. -/
def text? : List Char → Option (String × List Char)
  | '"' :: '"' :: '"' :: cs =>
    (quotedBody? true false (skipLineBreak cs)).map fun (text, rest) => (String.ofList text, rest)
  | '\'' :: '\'' :: '\'' :: cs =>
    (literalBody? true (skipLineBreak cs)).map fun (text, rest) => (String.ofList text, rest)
  | cs => shortText? cs

/-! ## Keys -/

def isBareKeyChar (c : Char) : Bool := c.isAlphanum ∨ c = '_' ∨ c = '-'

/-- A key without dots. -/
def simpleKey? (cs : List Char) : Option (String × List Char) :=
  match cs.takeWhile isBareKeyChar with
  | [] => shortText? cs
  | key => some (String.ofList key, cs.drop key.length)

/-- Keys with dots between them, and the text behind the blanks that follow. The number bounds the
steps. -/
def dottedKey? : Nat → List Char → Option (List String × List Char)
  | 0, _ => none
  | fuel + 1, cs => do
    let (key, rest) ← simpleKey? (skipBlanks cs)
    match skipBlanks rest with
    | '.' :: rest =>
      let (keys, rest) ← dottedKey? fuel rest
      return (key :: keys, rest)
    | rest => return ([key], rest)

/-- How many keys may be joined by dots, and how deep brackets may be nested. -/
def nestingLimit : Nat := 80

/-- Dotted keys at the front of a text. -/
def key? (cs : List Char) : Option (List String × List Char) :=
  (dottedKey? cs.length cs).filter fun (keys, _) => keys.length ≤ nestingLimit

/-- The text behind the sign between a key and its value. -/
def afterEquals? : List Char → Option (List Char)
  | '=' :: rest => some rest
  | _ => none

/-! ## Values -/

/-- The characters that end a value without quotes. -/
def unquotedEnds : List Char :=
  ['=', ',', '[', ']', '\x7b', '\x7d', ' ', '\t', '#', '\r', '\n']

def isUnquotedChar (c : Char) : Bool := !unquotedEnds.contains c

/-- The text in front of the next character that ends a value without quotes, and the rest. A date
and a time may have one space between them. -/
def unquotedRun (cs : List Char) : List Char × List Char :=
  let run := cs.takeWhile isUnquotedChar
  match cs.dropWhile isUnquotedChar with
  | ' ' :: rest =>
    if Unquoted.isDate run && rest.head?.any isUnquotedChar then
      (run ++ ' ' :: rest.takeWhile isUnquotedChar, rest.dropWhile isUnquotedChar)
    else (run, ' ' :: rest)
  | rest => (run, rest)

/-- A value without quotes. -/
def unquoted? (cs : List Char) : Option (Toml × List Char) :=
  let (run, rest) := unquotedRun cs
  if Unquoted.isValue run then some (.unquoted (String.ofList run), rest) else none

/-- A value without brackets. -/
def scalar? (cs : List Char) : Option (Toml × List Char) :=
  match cs.head? with
  | some '"' => (text? cs).map fun (text, rest) => (.string text, rest)
  | some '\'' => (text? cs).map fun (text, rest) => (.string text, rest)
  | _ => unquoted? cs

mutual

/-- A value at the front of a text. The first number bounds the steps, and the second says how many
brackets may still be opened around it. -/
def value? : Nat → Nat → List Char → Option (Toml × List Char)
  | 0, _, _ => none
  | fuel + 1, room, cs =>
    match cs, room with
    | '[' :: cs, room + 1 => (items? fuel room cs).map fun (items, rest) => (.array items, rest)
    | '\x7b' :: cs, room + 1 =>
      (pairs? fuel room [] cs).map fun (es, rest) => (.table .inline es, rest)
    | cs, _ => scalar? cs

/-- The items of an array up to its closing bracket; the last one may have a comma behind it. -/
def items? : Nat → Nat → List Char → Option (List Toml × List Char)
  | 0, _, _ => none
  | fuel + 1, room, cs =>
    match skipLines false cs with
    | ']' :: rest => some ([], rest)
    | cs =>
      match value? fuel room cs with
      | none => none
      | some (item, rest) =>
        match skipLines false rest with
        | ',' :: rest => (items? fuel room rest).map fun (items, rest) => (item :: items, rest)
        | ']' :: rest => some ([item], rest)
        | _ => none

/-- The entries read so far with those of a table in braces up to the closing brace; the last one
may have a comma behind it. Lines may end anywhere but between the parts of a dotted key. -/
def pairs? : Nat → Nat → Entries → List Char → Option (Entries × List Char)
  | 0, _, _, _ => none
  | fuel + 1, room, es, cs =>
    match skipLines false cs with
    | '\x7d' :: rest => some (es, rest)
    | cs =>
      match key? cs with
      | none => none
      | some (key, rest) =>
        match afterEquals? (skipLines false rest) with
        | none => none
        | some rest =>
          match value? fuel room (skipLines false rest) with
          | none => none
          | some (value, rest) =>
            match assign es value key with
            | none => none
            | some es =>
              match skipLines false rest with
              | ',' :: rest => pairs? fuel room es rest
              | '\x7d' :: rest => some (es, rest)
              | _ => none

end

/-! ## Documents -/

/-- The entries read so far with those of the lines that follow. `header` is the path of the table
that was opened last, and the number bounds the lines. -/
def lines? : Nat → List String → Entries → List Char → Option Entries
  | 0, _, _, _ => none
  | fuel + 1, header, es, cs =>
    match skipLines false cs with
    | [] => some es
    | '[' :: cs =>
      match key? cs with
      | some (path, ']' :: rest) => do
        let rest ← afterLine? rest
        let es ← openTable es path
        lines? fuel path es rest
      | _ => none
    | cs => do
      let (key, rest) ← key? cs
      let rest ← (afterEquals? rest).map skipBlanks
      let (value, rest) ← value? (rest.length + 1) nestingLimit rest
      let rest ← afterLine? rest
      let es ← assignBelow es key value header
      lines? fuel header es rest

/-- The entries of a whole document, which may start with a byte order mark. -/
def ofText? (text : String) : Option Entries :=
  let cs := match text.toList with
    | '\ufeff' :: cs => cs
    | cs => cs
  lines? (cs.length + 1) [] [] cs

end EventForge.Toml
