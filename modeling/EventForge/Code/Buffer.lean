import EventForge.Code.Fragment
import EventForge.Code.Indent

/-!
# Writing indented code

A buffer holds the text written so far and the current level of indentation. Every line starts with
one unit of indentation per level; blank lines have none.
-/

namespace EventForge.Code

structure Buffer where
  indent : Indent
  level : Nat
  text : String
  deriving DecidableEq, Repr

namespace Buffer

def ofIndent (indent : Indent) : Buffer := ⟨indent, 0, ""⟩

/-- What a line starts with at the current level. -/
def margin (b : Buffer) : String := String.join (List.replicate b.level b.indent.unit)

def line (b : Buffer) (s : String) : Buffer := { b with text := b.text ++ (b.margin ++ s ++ "\n") }

def blank (b : Buffer) : Buffer := { b with text := b.text ++ "\n" }

def deeper (b : Buffer) : Buffer := { b with level := b.level + 1 }

/-- One level less; level zero stays. -/
def shallower (b : Buffer) : Buffer := { b with level := b.level - 1 }

/-- A line of a documentation comment. -/
def docLine (s : String) : String := if s = "" then " *" else " * " ++ s

/-- A documentation comment with one line per entry. -/
def doc (b : Buffer) (lines : List String) : Buffer :=
  ((lines.map docLine).foldl line (b.line "/**")).line " */"

mutual

def fragment (b : Buffer) : Fragment → Buffer
  | .line s => b.line s
  | .blank => b.blank
  | .block header body close =>
    let b := ((b.line header).deeper.fragments body).shallower
    match close with
    | some c => b.line c
    | none => b
  | .sequence parts => b.fragments parts
  | .doc lines => b.doc lines

def fragments (b : Buffer) : List Fragment → Buffer
  | [] => b
  | f :: fs => (b.fragment f).fragments fs

end

end Buffer

end EventForge.Code
