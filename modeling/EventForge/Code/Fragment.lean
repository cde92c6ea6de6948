/-!
# Code fragments

Declarations are turned into a tree of fragments before they are written: lines, blank lines, blocks
with an indented body, sequences and documentation comments. Only the writer knows about
indentation.
-/

namespace EventForge.Code

inductive Fragment where
  | line (text : String)
  | blank
  | block (header : String) (body : List Fragment) (close : Option String)
  | sequence (parts : List Fragment)
  | doc (lines : List String)
  deriving Repr

namespace Fragment

/-- The groups that are not empty, with a blank line between each two. -/
def spaced : List (List Fragment) → List Fragment
  | [] => []
  | [] :: rest => spaced rest
  | (f :: fs) :: rest =>
    match spaced rest with
    | [] => f :: fs
    | more => f :: fs ++ blank :: more

/-- Groups with blank lines between them, as one fragment. -/
def separated (groups : List (List Fragment)) : Fragment := sequence (spaced groups)

end Fragment

end EventForge.Code
