import EventForge.Dict

/-!
# Imports

Imported names are grouped by package. Packages keep the order in which they were first named; the
names of a package are sorted and listed once.
-/

namespace EventForge.Java

/-- Puts a name into a sorted list unless it is there. -/
def insertName (name : String) : List String → List String
  | [] => [name]
  | n :: ns =>
    if name < n then name :: n :: ns
    else if name = n then n :: ns
    else n :: insertName name ns

/-- The names of a list, sorted and each once. -/
def sortedNames (names : List String) : List String :=
  names.foldl (fun acc n => insertName n acc) []

/-- Imported names by package. -/
abbrev Imports := Dict String (List String)

namespace Imports

/-- Adds names to a package, which is known from then on even when there are none. -/
def extend (imports : Imports) (package : String) (names : List String) : Imports :=
  imports.insert package <|
    names.foldl (fun acc n => insertName n acc) ((imports.get? package).getD [])

def add (imports : Imports) (package name : String) : Imports := imports.extend package [name]

/-- Adds names to a package; no names leave it unknown. -/
def addAll (imports : Imports) (package : String) (names : List String) : Imports :=
  names.foldl (fun i n => i.add package n) imports

def merge (imports other : Imports) : Imports :=
  other.entries.foldl (fun i e => i.extend e.1 e.2) imports

def hasName (imports : Imports) (package name : String) : Bool :=
  ((imports.get? package).getD []).contains name

/-- No package has a name. -/
def isEmpty (imports : Imports) : Bool := imports.values.all List.isEmpty

end Imports

end EventForge.Java
