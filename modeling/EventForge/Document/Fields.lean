import EventForge.Document.Fault
import EventForge.Json.Basic
import EventForge.Uuid

/-!
# Fields of document objects

Typed access to the fields of an object at a known place of the document. A field that holds null
counts as absent, except for integers and where a field's mere presence is asked for.
-/

namespace EventForge.Document

/-- The fields of an object and its place in the document. -/
structure Fields where
  fields : List (String × Json)
  location : String
  deriving Repr

/-- An identifier written at a place of the document. -/
def readId (value location : String) : Except Fault Uuid :=
  match Uuid.ofText? value with
  | some id => .ok id
  | none => .error (.invalidId value location)

namespace Fields

/-- The fields of a value that has to be an object. -/
def ofJson (json : Json) (location : String) : Except Fault Fields :=
  match json with
  | .object fields => .ok ⟨fields, location⟩
  | _ => .error (.invalidField "value" location "an object")

def value? (o : Fields) (key : String) : Option Json := find? o.fields key

/-- The field is written, be it as null. -/
def has (o : Fields) (key : String) : Bool := (o.value? key).isSome

def text? (o : Fields) (key : String) : Except Fault (Option String) :=
  match o.value? key with
  | none | some .null => .ok none
  | some (.string s) => .ok (some s)
  | some _ => .error (.invalidField key o.location "a string")

def text (o : Fields) (key : String) : Except Fault String :=
  match o.text? key with
  | .error e => .error e
  | .ok (some s) => .ok s
  | .ok none => .error (.missingField key o.location)

def id (o : Fields) (key : String) : Except Fault Uuid :=
  (o.text key).bind fun s => readId s o.location

def id? (o : Fields) (key : String) : Except Fault (Option Uuid) :=
  match o.text? key with
  | .error e => .error e
  | .ok none => .ok none
  | .ok (some s) => (readId s o.location).map some

/-- An integer of the signed 64-bit range. -/
def integer (o : Fields) (key : String) : Except Fault Int :=
  match o.value? key with
  | none => .error (.missingField key o.location)
  | some (.number n) =>
    match n.signed? with
    | some i => .ok i
    | none => .error (.invalidField key o.location "an integer")
  | some _ => .error (.invalidField key o.location "an integer")

def object? (o : Fields) (key : String) : Except Fault (Option (List (String × Json))) :=
  match o.value? key with
  | none | some .null => .ok none
  | some (.object fields) => .ok (some fields)
  | some _ => .error (.invalidField key o.location "an object")

def array? (o : Fields) (key : String) : Except Fault (Option (List Json)) :=
  match o.value? key with
  | none | some .null => .ok none
  | some (.array items) => .ok (some items)
  | some _ => .error (.invalidField key o.location "an array")

end Fields

end EventForge.Document
