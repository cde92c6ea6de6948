import EventForge.Java.Generator
import EventForge.Proofs.Java.Emissions
import EventForge.Proofs.Java.SourceLines

/-!
# Indentation

Writing a fragment adds its lines, each indented by the level that it is written at and by the blocks
around it. The indentation is taken up by files alone: a context makes the same files under every
indentation but for the field that holds it (`ofContext_indented`), and the lines of a file do not
depend on it (`SourceFile.text_indented`).
-/

namespace EventForge.Java

open Code (Buffer Fragment Indent Line)

namespace SourceFile

/-- The file under an indentation. -/
def indented (indent : Indent) (f : SourceFile) : SourceFile := { f with indent := indent }

/-- The lines of a file: package, imports and the lines of its declaration. -/
def lines (f : SourceFile) : List Line :=
  headLines f.package f.imports ++ Fragment.nestedAll f.declaration.fragments

@[simp]
theorem path_indented (indent : Indent) (f : SourceFile) : (f.indented indent).path = f.path := by
  simp only [path, pathBelow, indented]

theorem text_indented (indent : Indent) (f : SourceFile) :
    (f.indented indent).text = Line.writeAll indent f.lines := by
  rw [text, fileText_eq, Fragment.linesOfAll_eq_map_nestedAll, Line.below_zero, List.map_id]
  rfl

end SourceFile

/-- The project under an indentation. -/
def Project.indented (indent : Indent) (p : Project) : Project := { p with indent := indent }

theorem Emission.file_indented (indent : Indent) (p : Project) (e : Emission) :
    e.file (p.indented indent) = ((e.file p).1, (e.file p).2.map (SourceFile.indented indent)) := by
  cases e with
  | «class» kind source mutability =>
    simp only [file, Project.classFile, Project.indented]
    split <;> simp only [Except.map, SourceFile.indented, Project.imports]
  | enum root description =>
    simp only [file, Project.enumFile, Project.indented, Except.map, SourceFile.indented]

namespace ContextFiles

/-- The files of a context under an indentation. -/
def indented (indent : Indent) (fs : ContextFiles) : ContextFiles :=
  { fs with files := fs.files.map (SourceFile.indented indent) }

/-- A file goes to the same path with the same members, so the same file is found there. -/
theorem add_indented (indent : Indent) (fs : ContextFiles) (file : SourceFile) :
    (fs.indented indent).add (file.indented indent) = (fs.add file).indented indent := by
  have hkept : (fs.indented indent).files.find?
      (fun kept => kept.path.same (file.indented indent).path) =
        (fs.files.find? fun kept => kept.path.same file.path).map (SourceFile.indented indent) := by
    simp only [indented, List.find?_map, Function.comp_def, SourceFile.path_indented]
  rw [add, add, hkept]
  cases fs.files.find? fun kept => kept.path.same file.path with
  | none => simp [indented]
  | some kept =>
    have hshape : (kept.indented indent).declaration.sameShape (file.indented indent).declaration =
        kept.declaration.sameShape file.declaration := rfl
    rw [Option.map_some]
    dsimp only
    rw [hshape]
    cases kept.declaration.sameShape file.declaration <;> rfl

theorem emit_indented (indent : Indent) (p : Project) (fs : ContextFiles) (e : Emission) :
    emit (p.indented indent) (fs.indented indent) e = (emit p fs e).indented indent := by
  rw [emit, emit, Emission.file_indented, addClass, addClass]
  cases (e.file p).2 with
  | error fault => rfl
  | ok file =>
    exact add_indented indent { fs with diagnostics := fs.diagnostics ++ (e.file p).1 } file

/-- A context makes the same files under every indentation, with the same failures and
diagnostics. -/
theorem ofContext_indented (indent : Indent) (p : Project) (c : Context) :
    ofContext (p.indented indent) c = (ofContext p c).indented indent := by
  rw [ofContext_eq, ofContext_eq]
  show (emissions p.model c).foldl (emit (p.indented indent)) (empty.indented indent) = _
  exact List.foldl_hom (indented indent) fun fs e => emit_indented indent p fs e

end ContextFiles

namespace Generator

/-- The generator with an indentation asked for. -/
def indented (indent : Indent) (g : Generator) : Generator :=
  { g with options := { g.options with indent := indent } }

theorem preview_indented (indent : Indent) (g : Generator) :
    (g.indented indent).preview =
      (g.projects.flatMap fun p => (g.filesOf p).files.map fun f => (f.path, f.lines)).map
        fun (path, ls) => (path, Line.writeAll indent ls) := by
  have hfiles : ∀ p, (g.indented indent).filesOf p = (g.filesOf p).indented indent :=
    fun p => ContextFiles.ofContext_indented indent ⟨g.model, p.2, g.options.indent⟩ p.1
  rw [preview, List.map_flatMap]
  refine List.flatMap_congr fun p _ => ?_
  rw [hfiles, ContextFiles.indented, List.map_map, List.map_map]
  refine List.map_congr_left fun f _ => ?_
  exact congrArg (Prod.mk f.path) (f.text_indented indent)

end Generator

/-- Writing a fragment leaves the level and adds the lines of the fragment in order, each indented by
one unit for every level that it starts from and for every block around it, blank lines by nothing.
A unit is a tab or as many spaces as were asked for, four for a width that is not offered; a
documentation comment is one line at the level of its block for each of its entries, between its
opening and its closing line. Under all indentations the same files have the same lines. -/
theorem indentation_of_nesting :
    (∀ (f : Fragment) (b : Buffer),
      (b.fragment f).level = b.level ∧ (b.fragment f).indent = b.indent ∧
      (b.fragment f).text = b.text ++ String.join (f.nested.map fun
        | .blank => "\n"
        | .text around s =>
          String.join (List.replicate (b.level + around) b.indent.unit) ++ s ++ "\n")) ∧
    (Indent.tab.unit = "\t" ∧ ∀ width, (Indent.spaces width).unit =
      String.ofList (List.replicate (if width ∈ [2, 4, 8] then width else 4) ' ')) ∧
    (∀ entries, (Fragment.doc entries).nested =
      .text 0 "/**" :: entries.map (fun s => .text 0 (if s = "" then " *" else " * " ++ s)) ++
        [.text 0 " */"]) ∧
    ∀ g : Generator, ∃ files : List (Path × List Line), ∀ indent : Indent,
      (g.indented indent).preview = files.map fun (path, ls) => (path, Line.writeAll indent ls) := by
  refine ⟨fun f b => ?_, ⟨rfl, Indent.unit_spaces⟩, fun entries => ?_,
    fun g => ⟨_, fun indent => g.preview_indented indent⟩⟩
  · have hwrite : (f.lines b.level).map (Line.write b.indent) = f.nested.map fun
        | .blank => "\n"
        | .text around s =>
          String.join (List.replicate (b.level + around) b.indent.unit) ++ s ++ "\n" := by
      rw [Fragment.lines_eq_map_nested, List.map_map]
      refine List.map_congr_left fun l _ => ?_
      cases l <;> rfl
    rw [Buffer.fragment_eq]
    refine ⟨rfl, rfl, ?_⟩
    rw [← hwrite]
    rfl
  · rw [Fragment.nested, Fragment.docLines]
    rfl

/-- A class with a documented field and a method, written by two spaces inside of something else. -/
theorem indentation_of_nesting_method :
    ((Buffer.mk (.spaces 2) 1 "").fragment
      (.block "class Order \x7b"
        [.doc ["The total.", "", "In cents."], .line "int total;", .blank,
          .block "int total() \x7b" [.line "return total;"] (some "\x7d")] (some "\x7d"))).text =
      "  class Order \x7b\n" ++
      "    /**\n     * The total.\n     *\n     * In cents.\n     */\n" ++
      "    int total;\n" ++
      "\n" ++
      "    int total() \x7b\n" ++
      "      return total;\n" ++
      "    \x7d\n" ++
      "  \x7d\n" := by
  rw [(indentation_of_nesting.1 _ _).2.2]
  decide

end EventForge.Java
