import EventForge.Java.Naming
import EventForge.Model
import EventForge.Text.Letter

/-!
# Base namespaces

Every generated package starts with a base namespace: one that is given, the one that most schemas
share, or `main`. A given namespace has to be a dotted sequence of Java identifiers.
-/

namespace EventForge

/-- How the base namespace is chosen. -/
inductive NamespaceChoice where
  | explicit (ns : String)
  | majority
  | fallback
  deriving DecidableEq, Repr

namespace NamespaceChoice

/-- The namespace used when nothing better is known. -/
def fallbackNamespace : String := "main"

/-- How often each text occurs, in order of first occurrence. -/
def tally (names : List String) : List (String × Nat) :=
  names.foldl (fun counts n => upsert counts n ((find? counts n).getD 0 + 1)) []

/-- The number of schemas in each namespace, in document order. -/
def census (m : Model) : List (String × Nat) := tally (m.schemas.values.map Schema.ns)

/-- The first entry with the greatest count. -/
def leader? (counts : List (String × Nat)) : Option (String × Nat) :=
  counts.foldl
    (fun best c =>
      match best with
      | none => some c
      | some b => if b.2 < c.2 then some c else some b)
    none

/-- The namespace of most schemas with dots for slashes; of equally many the first one. -/
def majorityOf (m : Model) : String :=
  match leader? (census m) with
  | some (ns, _) =>
    if ns = Model.defaultNamespace then fallbackNamespace else Text.replaceChar '/' '.' ns
  | none => fallbackNamespace

def resolve (m : Model) : NamespaceChoice → String
  | explicit ns => Text.trim ns
  | majority => majorityOf m
  | fallback => fallbackNamespace

/-- The namespaces of schemas, most used first and otherwise in document order. -/
def ranking (m : Model) : List (String × Nat) :=
  (census m).mergeSort fun a b => b.2 ≤ a.2

inductive Fault where
  | empty
  | notIdentifier (ns segment : String)
  | reserved (ns segment : String)
  | missing
  deriving DecidableEq, Repr

def Fault.message : Fault → String
  | empty => "namespace must not be empty"
  | notIdentifier ns segment =>
    "invalid namespace '" ++ ns ++ "': '" ++ segment ++ "' is not an identifier"
  | reserved ns segment =>
    "invalid namespace '" ++ ns ++ "': '" ++ segment ++ "' is a reserved word"
  | missing => "namespace mode 'explicit' requires a namespace"

def isIdentifierStart (c : Char) : Bool := Text.isAlphabetic c || c = '_' || c = '$'

def isIdentifierPart (c : Char) : Bool := Text.isAlphanumeric c || c = '_' || c = '$'

def isIdentifier (segment : String) : Bool :=
  match segment.toList with
  | [] => false
  | c :: cs => isIdentifierStart c && cs.all isIdentifierPart

/-- What is wrong with a segment of a namespace. -/
def segmentFault? (ns segment : String) : Option Fault :=
  if !isIdentifier segment then some (.notIdentifier ns segment)
  else if Java.isReserved segment then some (.reserved ns segment)
  else none

/-- What is wrong with a given namespace; of several faults the first one. -/
def fault? (text : String) : Option Fault :=
  let ns := Text.trim text
  if ns = "" then some .empty else (Text.pieces '.' ns).findSome? (segmentFault? ns)

/-- The ways to choose, as a user names them. -/
inductive Mode where
  | explicit
  | majority
  | fallback
  deriving DecidableEq, Repr

/-- The choice a user asks for. A namespace without a mode is meant explicitly; neither means the
majority. -/
def select (mode : Option Mode) (ns : Option String) : Except Fault NamespaceChoice :=
  match mode, ns with
  | some .explicit, some ns => .ok (.explicit ns)
  | none, some ns => .ok (.explicit ns)
  | some .explicit, none => .error .missing
  | some .majority, _ => .ok .majority
  | none, none => .ok .majority
  | some .fallback, _ => .ok .fallback

end NamespaceChoice

end EventForge
