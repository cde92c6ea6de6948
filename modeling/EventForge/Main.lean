import EventForge.Command

/-!
# The program

Brings the places that an invocation can reach into a file tree, runs it there, and carries what
changed back to the file system.
-/

namespace EventForge

/-- What stands at a place of the file system, if it can be read. -/
def probe (l : Location) : IO (Option FileEntry) := do
  try
    let place ← IO.FS.realPath (if l = [] then "." else l.text)
    if ← place.isDir then return some .directory
    else return some (.file (← IO.FS.readFile place))
  catch _ => return none

/-- Adds what stands at every step of a path. -/
def bring (t : FileTree) (p : Path) : IO FileTree := do
  let visit (state : FileTree × Location) (c : Component) : IO (FileTree × Location) := do
    match FileTree.step state.2 c with
    | .error _ => return state
    | .ok next =>
      match ← probe next with
      | some e => return (if next.isGround then state.1 else state.1.set next e, next)
      | none => return (state.1, next)
  return (← p.components.foldlM visit (t, [])).1

/-- Carries one entry to the file system. -/
def commit (l : Location) : FileEntry → IO Unit
  | .directory => IO.FS.createDirAll l.text
  | .file text => IO.FS.writeFile l.text text

/-- The places that an invocation can reach, as they stand. -/
def surroundings (invocation : Command.Invocation) : IO FileTree := do
  let t ← invocation.inputs.foldlM bring ∅
  (invocation.outputs t).foldlM bring t

/-- Runs the program on the file system and gives its exit code. -/
def execute (args : List String) : IO UInt32 := do
  let before ← match Command.Invocation.ofArgs args with
    | .ok invocation => surroundings invocation
    | .error _ => pure ∅
  let (after, outcome) := Command.run args ⟨(← IO.currentDir).toString⟩ before
  for (l, e) in after.entries.entries do
    if before.entry? l ≠ some e then commit l e
  IO.print outcome.screen.output
  IO.eprint outcome.screen.messages
  return outcome.exit.toUInt32

end EventForge

def main (args : List String) : IO UInt32 := EventForge.execute args
