import EventForge.Code.Indent
import EventForge.Command.Arguments
import EventForge.Config

/-!
# Invocations

What the arguments ask for: one of four commands with its operands and options.
-/

namespace EventForge.Command

open Code (Indent)

/-- What the arguments say about a generation; settings may say the rest. -/
structure GenerateArgs where
  source : Path
  target : Option Path
  mode : Option ProjectMode
  namespaceMode : Option NamespaceChoice.Mode
  ns : Option String
  indent : Option Indent
  dryRun : Bool
  config : Option Path
  deriving DecidableEq, Repr

inductive Shell where
  | bash
  | elvish
  | fish
  | powershell
  | zsh
  deriving DecidableEq, Repr

inductive Invocation where
  | generate (args : GenerateArgs)
  | check (source : Path)
  | info (source : Path)
  | completions (shell : Shell)
  deriving DecidableEq, Repr

/-- The shells by the words a user writes. -/
def shells : List (String × Shell) :=
  [("bash", .bash), ("elvish", .elvish), ("fish", .fish), ("powershell", .powershell),
   ("zsh", .zsh)]

def verboseOption : OptionSpec := ⟨"verbose", some 'v', false⟩

def helpOption : OptionSpec := ⟨"help", some 'h', false⟩

/-- The arguments in front of a command. -/
def rootGrammar : Grammar where
  options := [verboseOption, helpOption, ⟨"version", some 'V', false⟩]
  halting := ["help", "version"]
  commands := ["generate", "check", "info", "completions", "help"]
  operands := 0

/-- The arguments of a command with one operand and options of its own. -/
def commandGrammar (options : List OptionSpec) : Grammar where
  options := options ++ [verboseOption, helpOption]
  halting := ["help"]
  commands := []
  operands := 1

def generateOptions : List OptionSpec :=
  [⟨"target", some 't', true⟩, ⟨"project-mode", none, true⟩, ⟨"namespace-mode", none, true⟩,
   ⟨"namespace", none, true⟩, ⟨"indent", none, true⟩, ⟨"dry-run", none, false⟩,
   ⟨"config", some 'c', true⟩]

def misuse {α : Type} (cause : Misuse) : Except Halt α := .error (.misuse cause)

/-- A path that is not empty. -/
def pathOf (name value : String) : Except Halt Path :=
  if value = "" then misuse (.missingValue name) else .ok ⟨value⟩

def choiceOf {α : Type} (choices : List (String × α)) (name value : String) : Except Halt α :=
  match choices.lookup value with
  | some a => .ok a
  | none => misuse (.invalidValue name value)

def indentOf (name value : String) : Except Halt Indent :=
  match Indent.ofText value with
  | .ok indent => .ok indent
  | .error _ => misuse (.invalidValue name value)

/-- The value of an option, read in its own way. -/
def optionOf {α : Type} (g : Given) (read : String → String → Except Halt α) (name : String) :
    Except Halt (Option α) :=
  match g.value? name with
  | some value => (read name value).map some
  | none => .ok none

/-- The only operand, read in its own way. -/
def operandOf {α : Type} (g : Given) (read : String → String → Except Halt α) (name : String) :
    Except Halt α :=
  match g.operands with
  | value :: _ => read name value
  | [] => misuse (.missingOperand name)

def readGenerate (args : List String) : Except Halt Invocation := do
  let g ← (commandGrammar generateOptions).read args
  let source ← operandOf g pathOf "SOURCE"
  let target ← optionOf g pathOf "target"
  let mode ← optionOf g (choiceOf Config.projectModes) "project-mode"
  let namespaceMode ← optionOf g (choiceOf Config.namespaceModes) "namespace-mode"
  let indent ← optionOf g indentOf "indent"
  let config ← optionOf g pathOf "config"
  return .generate
    { source, target, mode, namespaceMode, ns := g.value? "namespace", indent,
      dryRun := g.has "dry-run", config }

/-- Reads the arguments of a command with one operand. -/
def readOperand {α : Type} (read : String → String → Except Halt α) (name : String)
    (args : List String) : Except Halt α := do
  let g ← (commandGrammar []).read args
  operandOf g read name

/-- Reads the arguments behind `help`: at most the name of one command. -/
def readHelp : List String → Except Halt Invocation
  | [] => .error (.asked "help")
  | name :: rest =>
    if !rootGrammar.commands.contains name then misuse (.unexpectedOperand name)
    else match rest with
      | [] => .error (.asked "help")
      | extra :: _ => misuse (.unexpectedOperand extra)

/-- Reads the arguments behind the name of a command. -/
def readCommand (args : List String) : String → Except Halt Invocation
  | "generate" => readGenerate args
  | "check" => (readOperand pathOf "SOURCE" args).map .check
  | "info" => (readOperand pathOf "SOURCE" args).map .info
  | "completions" => (readOperand (choiceOf shells) "SHELL" args).map .completions
  | "help" => readHelp args
  | _ => misuse .missingCommand

/-- Reads all arguments of the program. -/
def Invocation.ofArgs (args : List String) : Except Halt Invocation := do
  match (← rootGrammar.read args).command with
  | some (name, rest) => readCommand rest name
  | none => misuse .missingCommand

end EventForge.Command
