import EventForge.Text.Split

/-!
# Paths

A path keeps its own spelling. Its components are what it means: `a//b` and `a/./b` have the
components of `a/b`, while a leading `./` counts. Joining an absolute path replaces the first one.
-/

namespace EventForge

/-- One step of a path. -/
inductive Component where
  | root
  | here
  | up
  | name (text : String)
  deriving DecidableEq, Repr

structure Path where
  text : String
  deriving DecidableEq, Repr

namespace Path

def isAbsolute (p : Path) : Bool := p.text.toList.head? = some '/'

/-- The step a piece between slashes stands for; empty pieces and inner dots are no steps. -/
def innerComponent? (piece : List Char) : Option Component :=
  if piece = [] ∨ piece = ['.'] then none
  else if piece = ['.', '.'] then some .up
  else some (.name (String.ofList piece))

/-- The steps of a path, in order. -/
def components (p : Path) : List Component :=
  match Text.splitOn '/' p.text.toList with
  | [] => []
  | first :: rest =>
    let start :=
      if p.isAbsolute then [.root]
      else if first = ['.'] then [.here]
      else (innerComponent? first).toList
    start ++ rest.filterMap innerComponent?

/-- Two paths are the same place in spelling-independent form. -/
def same (p q : Path) : Bool := p.components = q.components

/-- `q` below `p`; an absolute `q` stands for itself. -/
def join (p q : Path) : Path :=
  if q.isAbsolute then q
  else if p.text.toList = [] ∨ p.text.toList.getLast? = some '/' then ⟨p.text ++ q.text⟩
  else ⟨p.text ++ "/" ++ q.text⟩

/-- One more piece, or several, below a path. -/
def extend (p : Path) (pieces : List String) : Path :=
  pieces.foldl (fun q piece => q.join ⟨piece⟩) p

/-- The path without its last step; none when there is no step or only the root. -/
def parent? (p : Path) : Option Path :=
  let idle (piece : List Char) : Bool := piece = [] ∨ piece = ['.']
  match Text.splitOn '/' p.text.toList with
  | [] => none
  | first :: rest =>
    match rest.reverse.dropWhile idle with
    | [] => if first = [] then none else some ⟨""⟩
    | _ :: before =>
      let kept := Text.joined '/' (first :: (before.dropWhile idle).reverse)
      some ⟨if kept = [] then "/" else String.ofList kept⟩

/-- The path is spelled so that it can only name a directory. -/
def asksDirectory (p : Path) : Bool :=
  match p.text.toList.reverse with
  | '/' :: _ => true
  | '.' :: '/' :: _ => true
  | _ => false

end Path

end EventForge
