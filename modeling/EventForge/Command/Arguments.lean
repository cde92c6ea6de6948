import EventForge.Dict

/-!
# Command-line arguments

Arguments are options and operands in any order. An option has a long name, written `--name`, and
may have a short one, written `-n`; short options without values can be written together. The value
of an option follows it as an argument of its own or behind `=`, and a short option may have its
value directly behind it. Behind `--` everything is an operand. Arguments are taken from left to
right, and the first that does not fit ends the reading.
-/

namespace EventForge.Command

/-- An option that a command knows. -/
structure OptionSpec where
  long : String
  short : Option Char
  takesValue : Bool
  deriving DecidableEq, Repr

/-- Why arguments are refused. -/
inductive Misuse where
  | unknownOption (written : String)
  | unexpectedValue (option : String)
  | missingValue (option : String)
  | repeated (option : String)
  | invalidValue (option value : String)
  | missingOperand (name : String)
  | unexpectedOperand (value : String)
  | missingCommand
  deriving DecidableEq, Repr

def Misuse.message : Misuse → String
  | unknownOption written => "unexpected argument '" ++ written ++ "' found"
  | unexpectedValue option => "unexpected value for '--" ++ option ++ "' found"
  | missingValue option => "a value is required for '--" ++ option ++ "' but none was supplied"
  | repeated option => "the argument '--" ++ option ++ "' cannot be used multiple times"
  | invalidValue name value => "invalid value '" ++ value ++ "' for '" ++ name ++ "'"
  | missingOperand name => "the required argument '" ++ name ++ "' was not provided"
  | unexpectedOperand value => "unexpected argument '" ++ value ++ "' found"
  | missingCommand => "a subcommand is required but one was not provided"

/-- What ends the reading of arguments before a command is known. -/
inductive Halt where
  | misuse (cause : Misuse)
  /-- An option that asks for something else instead, such as the version. -/
  | asked (option : String)
  deriving DecidableEq, Repr

/-- The arguments that a command knows. -/
structure Grammar where
  options : List OptionSpec
  /-- Options that end the reading as soon as they are met. -/
  halting : List String
  /-- The words that begin a command of its own. -/
  commands : List String
  /-- The greatest number of operands. -/
  operands : Nat

/-- The arguments taken so far. -/
structure Given where
  options : List (String × String)
  operands : List String
  /-- A word that begins a command, with everything behind it. -/
  command : Option (String × List String)
  deriving DecidableEq, Repr

namespace Given

def empty : Given := ⟨[], [], none⟩

def has (g : Given) (option : String) : Bool := (find? g.options option).isSome

def value? (g : Given) (option : String) : Option String := find? g.options option

end Given

namespace Grammar

/-- Takes an option with its value, which is empty for options without one. -/
def give (grammar : Grammar) (spec : OptionSpec) (value : String) (g : Given) :
    Except Halt Given :=
  if grammar.halting.contains spec.long then .error (.asked spec.long)
  else if g.has spec.long then .error (.misuse (.repeated spec.long))
  else .ok { g with options := g.options ++ [(spec.long, value)] }

/-- Takes an operand. -/
def giveOperand (grammar : Grammar) (value : String) (g : Given) : Except Halt Given :=
  if g.operands.length < grammar.operands then .ok { g with operands := g.operands ++ [value] }
  else .error (.misuse (.unexpectedOperand value))

/-- The written form of an argument that looks like an option. A lone hyphen is an operand. -/
def isOptionLike (arg : String) : Bool :=
  match arg.toList with
  | '-' :: _ :: _ => true
  | _ => false

/-- What follows an equals sign, and otherwise the text itself. -/
def withoutEquals : List Char → List Char
  | '=' :: cs => cs
  | cs => cs

/-- Takes short options that are written together; the result also tells the option that awaits its
value, if any. -/
def giveShort (grammar : Grammar) (g : Given) :
    List Char → Except Halt (Given × Option OptionSpec)
  | [] => .ok (g, none)
  | c :: cs =>
    match grammar.options.find? fun spec => spec.short = some c with
    | none => .error (.misuse (.unknownOption (String.ofList ['-', c])))
    | some spec =>
      if !spec.takesValue then do grammar.giveShort (← grammar.give spec "" g) cs
      else if cs = [] then .ok (g, some spec)
      else (grammar.give spec (String.ofList (withoutEquals cs)) g).map fun g => (g, none)

/-- Takes a long option; the result also tells the option that awaits its value, if any. -/
def giveLong (grammar : Grammar) (g : Given) (name : String) (value : Option String) :
    Except Halt (Given × Option OptionSpec) :=
  match grammar.options.find? fun spec => spec.long = name with
  | none => .error (.misuse (.unknownOption ("--" ++ name)))
  | some spec =>
    match spec.takesValue, value with
    | true, some v => (grammar.give spec v g).map fun g => (g, none)
    | true, none => .ok (g, some spec)
    | false, some _ => .error (.misuse (.unexpectedValue name))
    | false, none => (grammar.give spec "" g).map fun g => (g, none)

/-- Takes an argument that looks like an option. -/
def giveOption (grammar : Grammar) (g : Given) (arg : String) :
    Except Halt (Given × Option OptionSpec) :=
  match arg.toList with
  | '-' :: '-' :: cs =>
    let name := String.ofList (cs.takeWhile (· ≠ '='))
    match cs.dropWhile (· ≠ '=') with
    | _ :: value => grammar.giveLong g name (some (String.ofList value))
    | [] => grammar.giveLong g name none
  | '-' :: cs => grammar.giveShort g cs
  | _ => .ok (g, none)

/-- Takes arguments until none is left or a command begins. `awaiting` is the option whose value
the next argument has to be. -/
def giveAll (grammar : Grammar) (awaiting : Option OptionSpec) (g : Given) :
    List String → Except Halt Given
  | [] =>
    match awaiting with
    | some spec => .error (.misuse (.missingValue spec.long))
    | none => .ok g
  | arg :: rest =>
    match awaiting with
    | some spec =>
      if isOptionLike arg then .error (.misuse (.missingValue spec.long))
      else do grammar.giveAll none (← grammar.give spec arg g) rest
    | none =>
      if grammar.commands.contains arg then .ok { g with command := some (arg, rest) }
      else if arg = "--" then rest.foldlM (fun g operand => grammar.giveOperand operand g) g
      else if isOptionLike arg then
        match grammar.giveOption g arg with
        | .error halt => .error halt
        | .ok (g, awaiting) => grammar.giveAll awaiting g rest
      else do grammar.giveAll none (← grammar.giveOperand arg g) rest

/-- Reads arguments. -/
def read (grammar : Grammar) (args : List String) : Except Halt Given :=
  grammar.giveAll none .empty args

end Grammar

end EventForge.Command
