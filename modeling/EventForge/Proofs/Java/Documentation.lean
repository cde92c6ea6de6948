import EventForge.Proofs.Document.Reading
import EventForge.Proofs.Java.KeptFields
import EventForge.Proofs.Java.SourceLines
import EventForge.Proofs.Java.Undocumented
import EventForge.Proofs.Model
import EventForge.Proofs.Text.Casing

/-!
# Documentation and code

Descriptions and properties are written into comments as they are. As long as none of them ends its
comment, two files that differ in documentation only are the same code.
-/

namespace EventForge.Java

open Code (Fragment Indent Line)
open Lexical

variable {indent : Indent}

section Spaced

variable {R : Fragment → Fragment → Prop}

/-- Related groups have related fragments when they are spaced. -/
theorem forall₂_spaced (hblank : R .blank .blank) {gs gs' : List (List Fragment)}
    (h : List.Forall₂ (List.Forall₂ R) gs gs') :
    List.Forall₂ R (Fragment.spaced gs) (Fragment.spaced gs') := by
  induction h with
  | nil => exact .nil
  | cons hg _ ih =>
    cases hg with
    | nil => exact ih
    | cons hf hfs =>
      rw [Fragment.spaced, Fragment.spaced]
      generalize Fragment.spaced _ = more at ih
      generalize Fragment.spaced _ = more' at ih
      cases ih with
      | nil => exact .cons hf hfs
      | cons hm hms => exact List.rel_append (.cons hf hfs) (.cons hblank (.cons hm hms))

end Spaced

/-- The names in an enum. -/
def EnumDecl.texts (e : EnumDecl) : List String := e.name :: e.variants

/-- The names and types in a class. -/
def ClassDecl.texts (c : ClassDecl) : List String :=
  c.name :: c.fields.flatMap (fun f => [f.name, f.type.text]) ++ c.constants.map Constant.name
    ++ c.enums.flatMap EnumDecl.texts

theorem ClassDecl.forall_texts_iff {c : ClassDecl} {P : String → Prop} :
    (∀ s ∈ c.texts, P s) ↔ P c.name ∧ (∀ f ∈ c.fields, P f.name ∧ P f.type.text) ∧
      (∀ k ∈ c.constants, P k.name) ∧ ∀ e ∈ c.enums, ∀ s ∈ e.texts, P s := by
  simp only [texts, List.cons_append, List.forall_mem_cons, List.forall_mem_append,
    List.forall_mem_flatMap, List.forall_mem_map, List.not_mem_nil, false_implies,
    implies_true, and_true, and_assoc]

def Declaration.texts : Declaration → List String
  | .class c => c.texts
  | .enum e => e.texts

namespace SourceFile

/-- The names and types in a file. -/
def texts (f : SourceFile) : List String :=
  f.package :: f.imports.entries.flatMap (fun g => g.1 :: g.2) ++ f.declaration.texts

/-- No name or type in the file holds a slash, a quote or a backslash. -/
def IsPlain (f : SourceFile) : Prop := ∀ s ∈ f.texts, Plain s.toList

instance (f : SourceFile) : Decidable f.IsPlain :=
  inferInstanceAs (Decidable (∀ s ∈ f.texts, Plain s.toList))

end SourceFile

namespace Declaration

/-- The lines of the documentation comment. -/
def docs : Declaration → List String
  | .class c => c.doc
  | .enum e => e.doc

/-- The comments behind fields. -/
def comments : Declaration → List String
  | .class c => c.fields.filterMap FieldDecl.comment
  | .enum _ => []

end Declaration

/-- No line of documentation and no comment behind a field ends its comment early. -/
def SourceFile.Enclosed (f : SourceFile) : Prop :=
  (∀ s ∈ f.declaration.docs, ¬ EndsBlock s) ∧ ∀ s ∈ f.declaration.comments, ¬ EndsLine s

section Members

variable {depth : Nat}

theorem quiet_accessor {verb field : String} (hverb : Quiet verb) (hfield : Quiet field) :
    Quiet (accessor verb field) := by
  rw [accessor, quiet_append]
  exact ⟨hverb, Text.not_mem_capitalizeFirst (by decide) hfield.1,
    Text.not_mem_capitalizeFirst (by decide) hfield.2⟩

/-- The texts of a method open no comment. -/
structure Method.IsQuiet (m : Method) : Prop where
  name : Quiet m.name
  returns : ∀ s ∈ m.returns, Quiet s
  params : ∀ p ∈ m.params, Quiet p.type ∧ Quiet p.name
  annotations : ∀ s ∈ m.annotations, Quiet s
  body : ∀ s ∈ m.body, Quiet s

theorem Method.IsQuiet.calm {m : Method} (h : m.IsQuiet) :
    ∀ l ∈ Fragment.linesOfAll depth m.fragments, Calm l := by
  have hparams : Quiet (Text.joinWith ", " (m.params.map fun p => p.type ++ " " ++ p.name)) := by
    refine quiet_joinWith (by decide) fun s hs => ?_
    obtain ⟨p, hp, rfl⟩ := List.mem_map.1 hs
    rw [quiet_append, quiet_append]
    exact ⟨⟨(h.params p hp).1, by decide⟩, (h.params p hp).2⟩
  have hsignature : Quiet m.signature := by
    have hname := h.name
    rw [Method.signature]
    rcases hm : m.returns with _ | type
    · simp +decide only [quiet_append, hname, hparams]
    · have htype := h.returns type (by simp [hm])
      simp +decide only [quiet_append, hname, hparams, htype]
  rw [Method.fragments, Fragment.linesOfAll_append, Fragment.linesOfAll_map_line]
  intro l hl
  simp only [Fragment.linesOfAll, Fragment.lines, Fragment.linesOfAll_map_line, List.append_nil,
    Option.toList_some, List.map_cons, List.map_nil, List.cons_append, List.mem_append,
    List.mem_map, List.mem_cons, List.not_mem_nil, or_false] at hl
  rcases hl with ⟨s, hs, rfl⟩ | rfl | ⟨s, hs, rfl⟩ | rfl
  · exact h.annotations s hs
  · exact hsignature
  · exact h.body s hs
  · exact (by decide : Quiet "\x7d")

theorem calm_enum {e : EnumDecl} (hdoc : e.doc = []) (h : ∀ s ∈ e.texts, Quiet s) :
    ∀ l ∈ Fragment.linesOfAll depth e.fragments, Calm l := by
  have hname : Quiet e.name := h _ (by simp [EnumDecl.texts])
  have hvariants : Quiet (Text.joinWith ", " e.variants) :=
    quiet_joinWith (by decide) fun s hs => h s (by simp [EnumDecl.texts, hs])
  have hheader : Quiet ("public enum " ++ e.name ++ " \x7b") := by
    simp +decide only [quiet_append, hname]
  intro l hl
  simp only [EnumDecl.fragments, EnumNode.fragments, docFragments, hdoc, if_true, List.nil_append,
    Fragment.linesOfAll, Fragment.lines, List.append_nil, Option.toList_some, List.map_cons,
    List.map_nil, List.cons_append, List.mem_append, List.mem_cons, List.not_mem_nil,
    or_false] at hl
  rcases hl with rfl | hl | rfl
  · exact hheader
  · split at hl
    · cases hl
    · simp only [Fragment.linesOfAll, Fragment.lines, List.append_nil, List.mem_singleton] at hl
      exact hl ▸ hvariants
  · exact (by decide : Quiet "\x7d")

variable {c : ClassDecl}

theorem params_bare (c : ClassDecl) : c.bare.params = c.params := by
  simp [ClassDecl.params, ClassDecl.bare, FieldDecl.bare]

theorem methods_bare (c : ClassDecl) : c.bare.methods = c.methods := by
  have hfields : c.bare.fields = [] ↔ c.fields = [] := by simp [ClassDecl.bare]
  have haccessors : c.bare.accessors = c.accessors := rfl
  rw [ClassDecl.methods, ClassDecl.methods]
  simp only [hfields, haccessors, ClassDecl.fullConstructor, ClassDecl.textMethod, params_bare]
  rfl

theorem quiet_of_mem_params (h : ∀ s ∈ c.texts, Quiet s) {p : Param} (hp : p ∈ c.params) :
    Quiet p.type ∧ Quiet p.name := by
  obtain ⟨f, hf, rfl⟩ := List.mem_map.1 hp
  exact ((ClassDecl.forall_texts_iff.1 h).2.1 f hf).symm

theorem quiet_assignment {p : Param} (h : Quiet p.name) : Quiet (ClassDecl.assignment p) := by
  simp +decide only [ClassDecl.assignment, quiet_append, h]

theorem isQuiet_emptyConstructor (hname : Quiet c.name) : c.emptyConstructor.IsQuiet := by
  refine ⟨hname, ?_, ?_, ?_, ?_⟩ <;> simp [ClassDecl.emptyConstructor]

theorem isQuiet_fullConstructor (hname : Quiet c.name) (h : ∀ s ∈ c.texts, Quiet s) :
    c.fullConstructor.IsQuiet := by
  refine ⟨hname, by simp [ClassDecl.fullConstructor], fun p hp => quiet_of_mem_params h hp,
    by simp [ClassDecl.fullConstructor], fun s hs => ?_⟩
  obtain ⟨p, hp, rfl⟩ := List.mem_map.1 hs
  exact quiet_assignment (quiet_of_mem_params h hp).2

theorem isQuiet_getter {p : Param} (htype : Quiet p.type) (hname : Quiet p.name) :
    (ClassDecl.getter p).IsQuiet := by
  refine ⟨quiet_accessor (by decide) hname, by simpa [ClassDecl.getter] using htype,
    by simp [ClassDecl.getter], by simp [ClassDecl.getter], ?_⟩
  simp +decide [ClassDecl.getter, quiet_append, hname]

theorem isQuiet_setter {p : Param} (htype : Quiet p.type) (hname : Quiet p.name) :
    (ClassDecl.setter p).IsQuiet := by
  refine ⟨quiet_accessor (by decide) hname, by simp +decide [ClassDecl.setter],
    by simpa [ClassDecl.setter] using ⟨htype, hname⟩, by simp [ClassDecl.setter], ?_⟩
  simpa [ClassDecl.setter] using quiet_assignment hname

theorem isQuiet_textMethod (hname : Quiet c.name) (h : ∀ s ∈ c.texts, Quiet s) :
    c.textMethod.IsQuiet := by
  have hlisted : Quiet (Text.joinWith ", "
      (c.params.map fun p => p.name ++ "=\" + " ++ p.name ++ " + \"")) := by
    refine quiet_joinWith (by decide) fun s hs => ?_
    obtain ⟨p, hp, rfl⟩ := List.mem_map.1 hs
    simp +decide only [quiet_append, (quiet_of_mem_params h hp).2]
  refine ⟨(by decide : Quiet "toString"), by simp +decide [ClassDecl.textMethod],
    by simp [ClassDecl.textMethod], by simp +decide [ClassDecl.textMethod], ?_⟩
  simp +decide [ClassDecl.textMethod, quiet_append, hname, hlisted]

theorem isQuiet_of_mem_methods (h : ∀ s ∈ c.texts, Quiet s) {m : Method} (hm : m ∈ c.methods) :
    m.IsQuiet := by
  have hname := (ClassDecl.forall_texts_iff.1 h).1
  have hstart : ∀ m ∈ (if c.isMutable then [c.emptyConstructor] else []), m.IsQuiet := by
    intro m hm
    split at hm
    · exact List.mem_singleton.1 hm ▸ isQuiet_emptyConstructor hname
    · cases hm
  rw [ClassDecl.methods] at hm
  split at hm
  · exact hstart m hm
  · simp only [List.append_assoc, List.mem_append, List.mem_singleton, List.mem_flatMap] at hm
    rcases hm with hm | rfl | ⟨p, hp, hm⟩ | rfl
    · exact hstart m hm
    · exact isQuiet_fullConstructor hname h
    · obtain ⟨htype, hpname⟩ := quiet_of_mem_params h hp
      rw [ClassDecl.accessors] at hm
      split at hm
      · rcases List.mem_pair.1 hm with rfl | rfl
        · exact isQuiet_getter htype hpname
        · exact isQuiet_setter htype hpname
      · exact List.mem_singleton.1 hm ▸ isQuiet_getter htype hpname
    · exact isQuiet_textMethod hname h

theorem declaration_bare (c : ClassDecl) (f : FieldDecl) :
    (c.bare.fieldNode f.bare).declaration =
      (if c.isMutable then "private" else "private final") ++ " " ++ f.type.text ++ " " ++ f.name
        ++ ";" := by
  have hmutable : c.bare.isMutable = c.isMutable := rfl
  rw [FieldNode.declaration, ClassDecl.fieldNode, hmutable]
  cases c.isMutable <;> rfl

theorem declaration_eq (c : ClassDecl) (f : FieldDecl) :
    (c.fieldNode f).declaration =
      (c.bare.fieldNode f.bare).declaration ++ (f.comment.elim "" fun s => " // " ++ s) := by
  rw [declaration_bare, FieldNode.declaration, ClassDecl.fieldNode]
  cases f.comment with
  | none => cases c.isMutable <;> simp
  | some comment => cases c.isMutable <;> simp only [Option.elim_some, String.append_assoc] <;> rfl

/-- A field is read like the field without its comment, when that does not end early. -/
theorem alike_field (c : ClassDecl) {f : FieldDecl} (hname : Plain f.name.toList)
    (htype : Plain f.type.text.toList) (hcomment : ∀ s ∈ f.comment, ¬ EndsLine s) :
    Alike indent [.text depth (c.fieldNode f).declaration]
      [.text depth (c.bare.fieldNode f.bare).declaration] := by
  have hplain : Plain (c.bare.fieldNode f.bare).declaration.toList := by
    rw [declaration_bare]
    simp only [String.toList_append, plain_append]
    refine ⟨⟨⟨⟨⟨?_, by decide⟩, htype⟩, by decide⟩, hname⟩, by decide⟩
    split <;> decide
  have hbare : Alike indent [.text depth (c.bare.fieldNode f.bare).declaration]
      [.text depth (c.bare.fieldNode f.bare).declaration] :=
    alike_line (quiet_of_plain hplain) depth
  rw [declaration_eq]
  rcases hf : f.comment with _ | comment
  · simpa using hbare
  · rw [Option.elim_some, ← String.append_assoc, Alike,
      readLines_commented hplain (hcomment comment (by simp [hf]))]
    exact ⟨rfl, hbare.2⟩

theorem alike_constant {k : Constant} (hname : Plain k.name.toList) :
    ∀ f ∈ k.fragments, Alike indent (f.lines depth) (f.lines depth) := by
  intro f hf
  rw [List.mem_singleton.1 hf]
  exact ⟨rfl, readLines_constant hname k.value depth⟩

/-- The members of a class are read like those of the class without comments. -/
theorem alike_members (hplain : ∀ s ∈ c.texts, Plain s.toList)
    (hnested : ∀ e ∈ c.enums, e.doc = []) (hcomments : ∀ s ∈ c.fields.filterMap FieldDecl.comment,
      ¬ EndsLine s) :
    Alike indent (Fragment.linesOfAll depth (Fragment.spaced c.node.members))
      (Fragment.linesOfAll depth (Fragment.spaced c.bare.node.members)) := by
  obtain ⟨-, hfields, hconstants, henums⟩ := ClassDecl.forall_texts_iff.1 hplain
  refine alike_linesOfAll (forall₂_spaced (alike_of_calm (by simp [Fragment.lines, Calm])) ?_)
  have hfieldGroup : List.Forall₂ (fun f f' => Alike indent (f.lines depth) (f'.lines depth))
      (c.fields.flatMap fun f => (c.fieldNode f).fragments)
      (c.bare.fields.flatMap fun f => (c.bare.fieldNode f).fragments) := by
    have hgroup : ∀ c : ClassDecl, c.fields.flatMap (fun f => (c.fieldNode f).fragments) =
        c.fields.map fun f => .line (c.fieldNode f).declaration := by
      intro c
      rw [List.map_eq_flatMap]
      rfl
    have hbareFields : c.bare.fields = c.fields.map .bare := rfl
    rw [hgroup, hgroup, hbareFields, List.map_map, List.forall₂_map_left_iff,
      List.forall₂_map_right_iff, List.forall₂_same]
    intro f hf
    obtain ⟨hname, htype⟩ := hfields f hf
    exact alike_field c hname htype fun s hs => hcomments s (List.mem_filterMap.2 ⟨f, hf, hs⟩)
  have hconstantGroup : List.Forall₂ (fun f f' => Alike indent (f.lines depth) (f'.lines depth))
      (c.constants.flatMap Constant.fragments) (c.bare.constants.flatMap Constant.fragments) := by
    refine List.forall₂_same.2 fun f hf => ?_
    obtain ⟨k, hk, hf⟩ := List.mem_flatMap.1 hf
    exact alike_constant (hconstants k hk) f hf
  have henumGroups : List.Forall₂
      (List.Forall₂ fun f f' => Alike indent (f.lines depth) (f'.lines depth))
      (c.enums.map EnumDecl.fragments) (c.bare.enums.map EnumDecl.fragments) := by
    refine List.forall₂_same.2 fun fs hfs => ?_
    obtain ⟨e, he, rfl⟩ := List.mem_map.1 hfs
    exact alike_self (calm_enum (hnested e he) fun s hs => quiet_of_plain (henums e he s hs))
  have hmethodGroups : List.Forall₂
      (List.Forall₂ fun f f' => Alike indent (f.lines depth) (f'.lines depth))
      (c.methods.map Method.fragments) (c.bare.methods.map Method.fragments) := by
    rw [methods_bare]
    refine List.forall₂_same.2 fun fs hfs => ?_
    obtain ⟨m, hm, rfl⟩ := List.mem_map.1 hfs
    exact alike_self (isQuiet_of_mem_methods (fun s hs => quiet_of_plain (hplain s hs)) hm).calm
  exact List.rel_append (List.rel_append (.cons hconstantGroup (.cons hfieldGroup .nil))
    henumGroups) hmethodGroups

/-- A documentation comment that does not end early is read like none. -/
theorem alike_docFragments {ls : List String} (h : ∀ s ∈ ls, ¬ EndsBlock s) :
    Alike indent (Fragment.linesOfAll depth (docFragments ls)) [] := by
  rw [docFragments]
  split
  · exact alike_of_calm (by simp [Fragment.linesOfAll])
  · simpa [Fragment.linesOfAll, Fragment.lines] using alike_docLines h depth

/-- The line that opens a class. -/
def classHeader (c : ClassDecl) : String :=
  (if c.isMutable then "public class" else "public final class") ++ " " ++ c.name ++ " \x7b"

theorem linesOfAll_class (c : ClassDecl) :
    Fragment.linesOfAll depth c.fragments =
      Fragment.linesOfAll depth (docFragments c.doc) ++
        ([.text depth (classHeader c)] ++
          (Fragment.linesOfAll (depth + 1) (Fragment.spaced c.node.members) ++
            [.text depth "\x7d"])) := by
  have hheader : (if c.node.isFinal then "public final class" else "public class") ++ " " ++
      c.node.name ++ " \x7b" = classHeader c := by
    rw [classHeader, ClassDecl.node]
    cases c.isMutable <;> rfl
  rw [ClassDecl.fragments, ClassNode.fragments, Fragment.linesOfAll_append]
  rw [hheader, Fragment.linesOfAll, Fragment.lines]
  simp [Fragment.linesOfAll, ClassDecl.node]

theorem alike_class (hplain : ∀ s ∈ c.texts, Plain s.toList) (hnested : ∀ e ∈ c.enums, e.doc = [])
    (hdoc : ∀ s ∈ c.doc, ¬ EndsBlock s)
    (hcomments : ∀ s ∈ c.fields.filterMap FieldDecl.comment, ¬ EndsLine s) :
    Alike indent (Fragment.linesOfAll depth c.fragments)
      (Fragment.linesOfAll depth c.bare.fragments) := by
  have hheader : Quiet (classHeader c) := by
    have hname : Quiet c.name := quiet_of_plain (ClassDecl.forall_texts_iff.1 hplain).1
    rw [classHeader]
    split <;> simp +decide only [quiet_append, hname]
  rw [linesOfAll_class, linesOfAll_class]
  exact (alike_docFragments hdoc).append <| (alike_line hheader depth).append <|
    (alike_members hplain hnested hcomments).append <| alike_line (by decide) depth

/-- The enum of a schema is read like the one without documentation. -/
theorem alike_enum {e : EnumDecl} (hplain : ∀ s ∈ e.texts, Plain s.toList)
    (hdoc : ∀ s ∈ e.doc, ¬ EndsBlock s) :
    Alike indent (Fragment.linesOfAll depth e.fragments)
      (Fragment.linesOfAll depth e.bare.fragments) := by
  have hsplit : Fragment.linesOfAll depth e.fragments =
      Fragment.linesOfAll depth (docFragments e.doc) ++
        Fragment.linesOfAll depth e.bare.fragments := by
    rw [← Fragment.linesOfAll_append]
    rfl
  rw [hsplit]
  exact (alike_docFragments hdoc).append
    (alike_of_calm (calm_enum rfl fun s hs => quiet_of_plain (hplain s hs)))

end Members

/-- The nested enums of a class have no documentation. -/
def Declaration.NestedBare : Declaration → Prop
  | .class c => ∀ e ∈ c.enums, e.doc = []
  | .enum _ => True

/-- A file whose comments do not end early is the same code as the file without them. -/
theorem SourceFile.code_bare {f : SourceFile} (hplain : f.IsPlain)
    (hnested : f.declaration.NestedBare) (henclosed : f.Enclosed) :
    code f.text = code f.bare.text := by
  have hpackage : Quiet f.package := quiet_of_plain (hplain _ (by simp [texts]))
  have himports : ∀ g ∈ f.imports.entries, Quiet g.1 ∧ ∀ n ∈ g.2, Quiet n := by
    intro g hg
    have hgroup : ∀ s ∈ g.1 :: g.2, Quiet s := fun s hs => by
      refine quiet_of_plain (hplain s ?_)
      rw [texts, List.cons_append, List.mem_cons, List.mem_append, List.mem_flatMap]
      exact .inr (.inl ⟨g, hg, hs⟩)
    exact List.forall_mem_cons.1 hgroup
  have hdeclaration : ∀ s ∈ f.declaration.texts, Plain s.toList :=
    fun s hs => hplain s (by simp [texts, hs])
  have hbody : Alike f.indent (Fragment.linesOfAll 0 f.declaration.fragments)
      (Fragment.linesOfAll 0 f.declaration.bare.fragments) := by
    obtain ⟨hdocs, hcomments⟩ := henclosed
    cases hf : f.declaration with
    | «class» c =>
      rw [hf] at hdeclaration hnested hdocs hcomments
      exact alike_class hdeclaration hnested hdocs hcomments
    | enum e =>
      rw [hf] at hdeclaration hdocs
      exact alike_enum hdeclaration hdocs
  have hfile := (alike_of_calm (calm_headLines hpackage himports)).append hbody
  rw [text, text, fileText_eq, fileText_eq]
  exact hfile.code_eq

/-- The texts of properties. -/
def propertyTexts (properties : List (String × String)) : List String :=
  properties.flatMap fun (k, v) => [k, v]

theorem dash_eq : " - " = " " ++ ("-" ++ " ") := by decide

theorem endsBlock_docLine {k v : String} :
    EndsBlock ("Property: " ++ k ++ " - " ++ v) ↔ EndsBlock k ∨ EndsBlock v := by
  have hfirst : "Property: " = "Property:" ++ " " := by decide
  have hline : "Property: " ++ k ++ " - " ++ v =
      "Property:" ++ " " ++ k ++ " " ++ ("-" ++ " " ++ v) := by
    rw [hfirst, dash_eq]
    simp only [String.append_assoc]
  have hword : ¬ EndsBlock "Property:" := by
    rw [endsBlock_iff]
    exact fun h => absurd (h.subset List.mem_cons_self) (by decide)
  have hdash : ¬ EndsBlock "-" := by
    rw [endsBlock_iff]
    decide
  rw [hline, endsBlock_words, endsBlock_words, endsBlock_words]
  simp only [hword, hdash, false_or]

theorem endsLine_property {k v : String} :
    EndsLine (k ++ " - " ++ v) ↔ EndsLine k ∨ EndsLine v := by
  have hline : k ++ " - " ++ v = k ++ " " ++ ("-" ++ " " ++ v) := by
    rw [dash_eq]
    simp only [String.append_assoc]
  have hword : ¬ EndsLine "-" := by decide
  rw [hline, endsLine_words, endsLine_words]
  simp only [hword, false_or]

theorem endsLine_joinWith {ss : List String} :
    EndsLine (Text.joinWith " | " ss) ↔ ∃ s ∈ ss, EndsLine s := by
  have hbar : " | " = " " ++ ("|" ++ " ") := by decide
  have hempty : ¬ EndsLine "" := by decide
  have hword : ¬ EndsLine "|" := by decide
  induction ss with
  | nil => simpa [Text.joinWith] using hempty
  | cons s ss ih =>
    cases ss with
    | nil => simp [Text.joinWith]
    | cons t ss =>
      have hline : Text.joinWith " | " (s :: t :: ss) =
          s ++ " " ++ ("|" ++ " " ++ Text.joinWith " | " (t :: ss)) := by
        rw [Text.joinWith, hbar]
        simp only [String.append_assoc]
      have hmem : (∃ u ∈ s :: t :: ss, EndsLine u) ↔
          EndsLine s ∨ ∃ u ∈ t :: ss, EndsLine u := by
        simp only [List.mem_cons, exists_eq_or_imp]
      rw [hline, endsLine_words, endsLine_words, hmem]
      simp only [hword, false_or]
      exact or_congr_right ih

theorem forall_docLines {description : Option String} {properties : List (String × String)} :
    (∀ s ∈ docLines description properties, ¬ EndsBlock s) ↔
      ∀ s ∈ description.toList ++ propertyTexts properties, ¬ EndsBlock s := by
  have hgap : ∀ s ∈ (if properties = [] ∨ description.toList = [] then [] else [""]),
      ¬ EndsBlock s := by
    have hempty : ¬ EndsBlock "" := by
      rw [endsBlock_iff]
      decide
    split
    · simp
    · simpa using hempty
  have hproperties : (∀ s ∈ properties.map fun (k, v) => "Property: " ++ k ++ " - " ++ v,
      ¬ EndsBlock s) ↔ ∀ s ∈ propertyTexts properties, ¬ EndsBlock s := by
    simp only [propertyTexts, List.forall_mem_map, List.forall_mem_flatMap, endsBlock_docLine,
      not_or, List.forall_mem_cons, List.not_mem_nil, false_implies, implies_true, and_true]
  rw [docLines, List.forall_mem_append, List.forall_mem_append, List.forall_mem_append,
    hproperties]
  exact ⟨fun h => ⟨h.1.1, h.2⟩, fun h => ⟨⟨h.1, hgap⟩, h.2⟩⟩

theorem forall_propertyComment {t : TypeTree} :
    (∀ s ∈ propertyComment t, ¬ EndsLine s) ↔ ∀ s ∈ propertyTexts t.properties, ¬ EndsLine s := by
  rw [propertyComment, TypeTree.properties]
  cases t.properties? with
  | none => simp [propertyTexts]
  | some properties =>
    simp only [Option.map_some, Option.mem_some_iff, forall_eq', endsLine_joinWith,
      Option.getD_some, not_exists, not_and, List.forall_mem_map, endsLine_property, propertyTexts,
      List.forall_mem_flatMap, not_or, List.forall_mem_cons, List.not_mem_nil, false_implies,
      implies_true, and_true]

namespace ClassSource

/-- The properties in the documentation of a class: those of a map. -/
def docProperties (s : ClassSource) : List (String × String) :=
  match s.root with
  | some (.object l entries) => (TypeTree.object l entries).properties
  | _ => []

theorem doc_eq (s : ClassSource) : s.doc = docLines s.description s.docProperties := by
  obtain ⟨name, description, root⟩ := s
  cases root with
  | none => rfl
  | some t => cases t <;> rfl

/-- The texts that end up in the documentation comment of a class. -/
def blockTexts (s : ClassSource) : List String :=
  s.description.toList ++ propertyTexts s.docProperties

/-- The texts that end up behind fields. -/
def lineTexts (m : Model) (s : ClassSource) : List String :=
  (s.keptEntries m).flatMap fun e => propertyTexts e.2.properties

end ClassSource

namespace Emission

/-- The texts that end up in the documentation comment of a file. -/
def blockTexts : Emission → List String
  | .class _ source _ => source.blockTexts
  | .enum root description => description.toList ++ propertyTexts root.properties

/-- The texts that end up behind the fields of a file. -/
def lineTexts (m : Model) : Emission → List String
  | .class _ source _ => source.lineTexts m
  | .enum _ _ => []

variable {p : Project} {e e' : Emission} {f f' : SourceFile}

theorem nestedBare_file (h : (e.file p).2 = .ok f) : f.declaration.NestedBare := by
  cases e with
  | «class» kind source mutability =>
    obtain ⟨d, -, rfl⟩ := Project.exists_draft h
    intro e he
    obtain ⟨entry, -, rfl⟩ := List.mem_map.1 he
    rfl
  | enum root description =>
    rw [← Except.ok.inj h]
    trivial

/-- The comments of a file do not end early when none of the texts in them does it. -/
theorem enclosed_iff (h : (e.file p).2 = .ok f) :
    f.Enclosed ↔ (∀ s ∈ e.blockTexts, ¬ EndsBlock s) ∧ ∀ s ∈ e.lineTexts p.model, ¬ EndsLine s := by
  cases e with
  | «class» kind source mutability =>
    obtain ⟨d, hd, rfl⟩ := Project.exists_draft h
    have hdoc : (∀ s ∈ (d.declaration source mutability).doc, ¬ EndsBlock s) ↔
        ∀ s ∈ source.blockTexts, ¬ EndsBlock s := by
      rw [show (d.declaration source mutability).doc = _ from source.doc_eq]
      exact forall_docLines
    have hlist : (source.keptEntries p.model).map (fun e => propertyComment e.2) =
        d.fields.map fun f => f.decl.comment :=
      Document.map_eq_map_of_forall₂ (hd.fields.imp fun e f hf => hf.comment.symm)
    have hcomments : (∀ s ∈ (d.declaration source mutability).fields.filterMap FieldDecl.comment,
        ¬ EndsLine s) ↔ ∀ s ∈ source.lineTexts p.model, ¬ EndsLine s := by
      have hmem : ∀ s, s ∈ (d.declaration source mutability).fields.filterMap FieldDecl.comment ↔
          some s ∈ (source.keptEntries p.model).map fun e => propertyComment e.2 := by
        intro s
        rw [hlist]
        simp [ClassDraft.declaration]
      simp only [hmem, List.mem_map, forall_exists_index, and_imp, ClassSource.lineTexts,
        List.forall_mem_flatMap, ← forall_propertyComment]
      exact ⟨fun h e he s hs => h s e he hs, fun h s e he hs => h e he s hs⟩
    exact and_congr hdoc hcomments
  | enum root description =>
    rw [← Except.ok.inj h]
    exact and_congr forall_docLines (by simp [Declaration.comments, lineTexts, Project.enumFile])

theorem texts_bare (f : SourceFile) : f.bare.texts = f.texts := by
  obtain ⟨dir, package, imports, declaration, indent⟩ := f
  cases declaration with
  | «class» c =>
    simp [SourceFile.texts, SourceFile.bare, Declaration.bare, Declaration.texts, ClassDecl.texts,
      ClassDecl.bare, FieldDecl.bare, List.flatMap_map]
  | enum e => rfl

/-- Emissions that differ in documentation only make the same file but for comments. -/
theorem bare_eq (hbare : e.bare = e'.bare) (h : (e.file p).2 = .ok f) (h' : (e'.file p).2 = .ok f') :
    f.bare = f'.bare := by
  have hfile : (e.bare.file p).2 = (e'.bare.file p).2 := by rw [hbare]
  rw [file_bare, file_bare, h, h'] at hfile
  exact Except.ok.inj hfile

/-- Documentation does not become code: two emissions that differ in descriptions and properties
only raise the same diagnostics and faults, and make files of the same code as long as no comment
ends early. That happens at a text with an asterisk and a slash in a documentation comment and at a
text with the end of a line behind a field, after unicode escapes are replaced. -/
theorem documentation_inert (p : Project) {e e' : Emission} (hbare : e.bare = e'.bare) :
    (e.file p).1 = (e'.file p).1 ∧
    (e.file p).2.map SourceFile.bare = (e'.file p).2.map SourceFile.bare ∧
    ∀ f f', (e.file p).2 = .ok f → (e'.file p).2 = .ok f' →
      (f.Enclosed ↔
        (∀ s ∈ e.blockTexts, ¬ ['*', '/'] <:+: translate s.toList) ∧
          ∀ s ∈ e.lineTexts p.model, ∀ c ∈ translate s.toList, ¬ isLineEnd c) ∧
      (f.IsPlain → f.Enclosed → f'.Enclosed → code f.text = code f'.text) := by
  have hfile : e.bare.file p = e'.bare.file p := by rw [hbare]
  rw [file_bare, file_bare] at hfile
  obtain ⟨hdiagnostics, hresult⟩ := Prod.mk.inj hfile
  refine ⟨hdiagnostics, hresult, fun f f' hf hf' => ⟨?_, fun hplain henclosed henclosed' => ?_⟩⟩
  · simp only [enclosed_iff hf, endsBlock_iff, endsLine_iff, not_exists, not_and]
  · have hsame := bare_eq hbare hf hf'
    have hplain' : f'.IsPlain := by
      rw [SourceFile.IsPlain, ← texts_bare, ← hsame, texts_bare]
      exact hplain
    calc code f.text = code f.bare.text :=
          SourceFile.code_bare hplain (nestedBare_file hf) henclosed
      _ = code f'.bare.text := by rw [hsame]
      _ = code f'.text :=
          (SourceFile.code_bare hplain' (nestedBare_file hf') henclosed').symm

/-- A project without schemas. -/
def shop : Project := ⟨Model.empty, ⟨"Orders", "main.orders", ⟨""⟩, .useExisting⟩, .tab⟩

/-- The class of an event with one field, whose only property has the given value. -/
def noted (value : String) : Emission :=
  .class .events
    ⟨"OrderPlaced", some "An order was placed.",
      some (.object ⟨"OrderPlaced", none⟩
        [("id", .scalar ⟨"id", some (Dict.ofList [("note", value)])⟩ .uuid)])⟩
    .immutable

/-- The files made from two emissions, when a check holds of both. -/
theorem exists_files {p : Project} {e e' : Emission} {q : SourceFile → SourceFile → Bool}
    (h : (e.file p).2.toOption.any fun f => (e'.file p).2.toOption.any (q f)) :
    ∃ f f', (e.file p).2 = .ok f ∧ (e'.file p).2 = .ok f' ∧ q f f' := by
  cases hf : (e.file p).2 with
  | error fault => simp [hf, Except.toOption] at h
  | ok f =>
    cases hf' : (e'.file p).2 with
    | error fault => simp [hf, hf', Except.toOption] at h
    | ok f' => exact ⟨f, f', rfl, rfl, by simpa [hf, hf', Except.toOption] using h⟩

theorem documentation_inert_noted :
    (noted "see the manual").bare = (noted "ask the wiki").bare ∧ ∃ f f',
      ((noted "see the manual").file shop).2 = .ok f ∧
        ((noted "ask the wiki").file shop).2 = .ok f' ∧ f.IsPlain ∧ f.Enclosed ∧ f'.Enclosed ∧
        f.text ≠ f'.text ∧ code f.text = code f'.text := by
  have hbare : (noted "see the manual").bare = (noted "ask the wiki").bare := rfl
  obtain ⟨f, f', hf, hf', hcheck⟩ := exists_files
    (show ((noted "see the manual").file shop).2.toOption.any fun f =>
      ((noted "ask the wiki").file shop).2.toOption.any fun f' =>
        f.IsPlain ∧ f.text ≠ f'.text by decide +kernel)
  obtain ⟨hplain, htext⟩ : f.IsPlain ∧ f.text ≠ f'.text := by simpa using hcheck
  obtain ⟨hiff, hcode⟩ := (documentation_inert shop hbare).2.2 f f' hf hf'
  obtain ⟨hiff', -⟩ := (documentation_inert shop hbare.symm).2.2 f' f hf' hf
  have henclosed : f.Enclosed :=
    hiff.2 ⟨by decide +kernel, not_isLineEnd_of_all (by decide +kernel)⟩
  have henclosed' : f'.Enclosed :=
    hiff'.2 ⟨by decide +kernel, not_isLineEnd_of_all (by decide +kernel)⟩
  exact ⟨hbare, f, f', hf, hf', hplain, henclosed, henclosed', htext,
    hcode hplain henclosed henclosed'⟩

/-- The class of an event without a schema. -/
def described (description : String) : Emission :=
  .class .events ⟨"OrderPlaced", some description, none⟩ .immutable

/-- A description with the end of a block comment in it ends the documentation of its class there,
and the rest of the description is code. -/
theorem description_becomes_code :
    (described "Ends */ int early;").bare = (described "An order was placed.").bare ∧ ∃ f f',
      ((described "Ends */ int early;").file shop).2 = .ok f ∧
        ((described "An order was placed.").file shop).2 = .ok f' ∧ f.IsPlain ∧ f'.IsPlain ∧
        code f.text ≠ code f'.text := by
  refine ⟨rfl, ?_⟩
  obtain ⟨f, f', hf, hf', hcheck⟩ := exists_files
    (show ((described "Ends */ int early;").file shop).2.toOption.any fun f =>
      ((described "An order was placed.").file shop).2.toOption.any fun f' =>
        f.IsPlain ∧ f'.IsPlain ∧ code f.text ≠ code f'.text by decide +kernel)
  exact ⟨f, f', hf, hf', by simpa using hcheck⟩

end Emission

end EventForge.Java
