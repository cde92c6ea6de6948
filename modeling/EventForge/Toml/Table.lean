import EventForge.Dict

/-!
# TOML values

A value is a text, an array, a table, or a value without quotes, which is kept as it is written. A
table may be opened once by a header, and only a table that exists because of dotted keys takes
further dotted keys.
-/

namespace EventForge

/-- How a table came about, which decides how it may grow. -/
inductive Toml.Origin where
  /-- Opened by a header. -/
  | header
  /-- On the way to a table that a header opened. -/
  | implied
  /-- On the way to a value with a dotted key. -/
  | dotted
  /-- Written in braces; never grows. -/
  | inline
  deriving DecidableEq, Repr

inductive Toml where
  | string (value : String)
  /-- A number, a truth value, a date or a time. -/
  | unquoted (written : String)
  | array (items : List Toml)
  | table (origin : Toml.Origin) (entries : List (String × Toml))
  deriving Repr

namespace Toml

/-- The entries of a table by key. -/
abbrev Entries := List (String × Toml)

/-- Opens the table with a given path of keys, which must not have been opened or filled before. -/
def openTable (es : Entries) : List String → Option Entries
  | [] => none
  | [k] =>
    match find? es k with
    | none => some (upsert es k (.table .header []))
    | some (.table .implied inner) => some (upsert es k (.table .header inner))
    | some _ => none
  | k :: rest =>
    match find? es k with
    | none => (openTable [] rest).map fun inner => upsert es k (.table .implied inner)
    | some (.table .inline _) => none
    | some (.table origin inner) =>
      (openTable inner rest).map fun inner => upsert es k (.table origin inner)
    | some _ => none

/-- Adds a value under a dotted key that is not taken. -/
def assign (es : Entries) (value : Toml) : List String → Option Entries
  | [] => none
  | [k] => if (find? es k).isSome then none else some (upsert es k value)
  | k :: rest =>
    match find? es k with
    | none => (assign [] value rest).map fun inner => upsert es k (.table .dotted inner)
    | some (.table .dotted inner) =>
      (assign inner value rest).map fun inner => upsert es k (.table .dotted inner)
    | some (.table .implied inner) =>
      if rest.length = 1 then none
      else (assign inner value rest).map fun inner => upsert es k (.table .implied inner)
    | some _ => none

/-- Adds a value under a dotted key of the table that a header opened. -/
def assignBelow (es : Entries) (key : List String) (value : Toml) : List String → Option Entries
  | [] => assign es value key
  | k :: rest =>
    match find? es k with
    | some (.table origin inner) =>
      (assignBelow inner key value rest).map fun inner => upsert es k (.table origin inner)
    | _ => none

end Toml

end EventForge
