import EventForge.Text.Numeral

/-!
# Report items

A report is a list of items, which say what is shown. How it is shown is up to the medium: on a
terminal every item is one or two lines, and warnings and errors go to a stream of their own.
-/

namespace EventForge.Report

inductive Item where
  | title (text : String)
  | section (name : String)
  | keyValue (key value : String)
  | keyValueIndented (key value : String)
  | numberedItem (index : Nat) (text : String)
  | listItem (text : String)
  | addedItem (text : String)
  | removedItem (text : String)
  | warning (message : String)
  | error (message : String)
  | divider (label : String)
  | preformatted (text : String)
  | newline
  deriving DecidableEq, Repr

/-- What a terminal shows: the output and the messages. -/
structure Screen where
  output : String
  messages : String
  deriving DecidableEq, Repr

namespace Screen

def empty : Screen := ⟨"", ""⟩

def print (s : Screen) (line : String) : Screen := { s with output := s.output ++ line ++ "\n" }

def notify (s : Screen) (line : String) : Screen :=
  { s with messages := s.messages ++ line ++ "\n" }

/-- Shows one item. A title is underlined by as many signs as it has characters. -/
def add (s : Screen) : Item → Screen
  | .title text => (s.print text).print (String.ofList (List.replicate text.length '='))
  | .section name => s.print (name ++ ":")
  | .keyValue key value => s.print (key ++ ": " ++ value)
  | .keyValueIndented key value => s.print ("  " ++ key ++ ": " ++ value)
  | .numberedItem index text => s.print ("  " ++ Text.decimal index ++ ". " ++ text)
  | .listItem text => s.print ("  - " ++ text)
  | .addedItem text => s.print ("  + " ++ text)
  | .removedItem text => s.print ("  - " ++ text)
  | .warning message => s.notify ("warning: " ++ message)
  | .error message => s.notify ("error: " ++ message)
  | .divider label => s.print ("── " ++ label ++ " ──")
  | .preformatted text => s.print text
  | .newline => s.print ""

def ofItems (items : List Item) : Screen := items.foldl add empty

end Screen

end EventForge.Report
