import EventForge.Text.Blank
import EventForge.Text.Casing

/-!
# Java names

Names of the model lose their blanks; type names start in upper case, field names keep their first
character. A name that is a reserved word gets an underscore behind it.
-/

namespace EventForge.Java

def reservedWords : List String :=
  ["abstract", "assert", "boolean", "break", "byte", "case", "catch", "char", "class", "const",
   "continue", "default", "do", "double", "else", "enum", "extends", "false", "final", "finally",
   "float", "for", "goto", "if", "implements", "import", "instanceof", "int", "interface", "long",
   "native", "new", "null", "package", "private", "protected", "public", "return", "short",
   "static", "strictfp", "super", "switch", "synchronized", "this", "throw", "throws", "transient",
   "true", "try", "void", "volatile", "while", "_"]

def isReserved (name : String) : Bool := reservedWords.contains name

def safeName (name : String) : String :=
  if isReserved name then name ++ "_" else name

/-- A name without blanks that starts in upper case. -/
def titled (name : String) : String := Text.capitalizeFirst (Text.compact name)

/-- The name of the class or enum for a name of the model. -/
def typeName (name : String) : String := safeName (titled name)

/-- The name of the field for a name of the model. -/
def fieldName (name : String) : String := safeName (Text.compact name)

/-- The name of the constant that holds the pattern of a field; the qualifier tells several patterns
of one field apart. -/
def patternConstant (field : String) (qualifier : Option String) : String :=
  match qualifier with
  | some q => Text.upper field ++ "_" ++ Text.upper (Text.compact q) ++ "_REGEX"
  | none => Text.upper field ++ "_REGEX"

/-- The name of the method that reads or writes a field. -/
def accessor (verb field : String) : String := verb ++ Text.capitalizeFirst field

end EventForge.Java
