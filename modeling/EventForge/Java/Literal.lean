/-!
# Java string literals

In a string literal, backslashes, quotes, line feeds, tabs and carriage returns are escaped; all
other characters stand for themselves.
-/

namespace EventForge.Java.Literal

def escapeChar : Char → List Char
  | '\\' => ['\\', '\\']
  | '"' => ['\\', '"']
  | '\n' => ['\\', 'n']
  | '\t' => ['\\', 't']
  | '\r' => ['\\', 'r']
  | c => [c]

/-- What stands between the quotes of the literal for a text. -/
def escape (cs : List Char) : List Char := cs.flatMap escapeChar

def body (s : String) : String := String.ofList (escape s.toList)

end EventForge.Java.Literal
