import EventForge.Proofs.Java.Collisions
import EventForge.Proofs.Report.Success

/-!
# What a dry run foretells

A dry run emits the files but reports only what was noticed before, and it is always a success. The
run itself also reports what emission notices, and fails with the classes that cannot be resolved and
the projects that are given up. Where everything can be created, the two reports agree on success and
on warnings exactly when every project is prepared and emission is silent (`dryRun_foretells_iff`).
-/

namespace EventForge

namespace Java.Generator

variable {g : Generator} {t : FileTree} {target : Path}

/-- What was noticed about the files of the projects that were prepared. -/
def noticed (g : Generator) (t : FileTree) (target : Path) : List Diagnostic :=
  ((g.journal target t g.projects).filter ProjectRun.isPrepared).flatMap fun r =>
    (g.filesOf r.project).diagnostics

/-- Every class can be resolved, and nothing about any file is worth a warning. -/
def Silent (g : Generator) : Prop :=
  ∀ p ∈ g.projects, (g.filesOf p).failed = [] ∧ (g.filesOf p).diagnostics = []

instance (g : Generator) : Decidable g.Silent := inferInstanceAs (Decidable (∀ _ ∈ _, _))

theorem unhindered_of_prepared
    (h : ∀ r ∈ g.journal target t g.projects, r.isPrepared ∧ ∀ a ∈ r.attempts, a.isSaved) :
    g.Unhindered t target := by
  refine ⟨fun r hr dir cause hfault => ?_, fun r hr => (h r hr).2⟩
  have hok := (h r hr).1
  rw [ProjectRun.isPrepared, hfault] at hok
  cases hok

/-- The warnings of a project are those about its files. -/
theorem warnings_diagnostics (g : Generator) (r : ProjectRun) :
    (r.diagnostics g).filter Diagnostic.isWarning =
      if r.isPrepared then (g.filesOf r.project).diagnostics else [] := by
  have hwarns : (g.filesOf r.project).diagnostics.filter Diagnostic.isWarning =
      (g.filesOf r.project).diagnostics :=
    List.filter_eq_self.2 (ContextFiles.warns_ofContext _ _)
  obtain ⟨project, fault | attempts⟩ := r
  · rfl
  · show ((g.filesOf project).diagnostics ++ []).filter Diagnostic.isWarning = _
    rw [List.append_nil]
    exact hwarns

/-- The warnings of a run are what was noticed about the projects that were prepared. -/
theorem warnings_generate (g : Generator) (t : FileTree) (target : Path) :
    (g.generate t target).2.diagnostics.filter Diagnostic.isWarning = g.noticed t target := by
  rw [generate_eq, noticed]
  show (List.flatMap (ProjectRun.diagnostics g) _).filter Diagnostic.isWarning = _
  simp only [List.filter_flatMap, warnings_diagnostics]
  induction g.journal target t g.projects with
  | nil => rfl
  | cons r rest ih =>
    rw [List.flatMap_cons, ih, List.filter_cons]
    split
    · rw [List.flatMap_cons]
    · rw [List.nil_append]

theorem noticed_eq_nil_iff (hprepared : ∀ r ∈ g.journal target t g.projects, r.isPrepared) :
    g.noticed t target = [] ↔ ∀ p ∈ g.projects, (g.filesOf p).diagnostics = [] := by
  rw [noticed, List.filter_eq_self.2 hprepared, List.flatMap_eq_nil_iff,
    forall_projects_iff g t target]

/-- Where everything can be created, only projects that are given up and classes that cannot be
resolved keep a run from success. -/
theorem isSuccess_of_unhindered (hfree : g.Unhindered t target) :
    (g.generate t target).2.isSuccess ↔
      (∀ r ∈ g.journal target t g.projects, r.isPrepared) ∧
        ∀ p ∈ g.projects, (g.filesOf p).failed = [] := by
  rw [isSuccess_generate_iff]
  constructor
  · intro hcomplete
    exact ⟨hcomplete.prepared, hcomplete.resolved⟩
  · rintro ⟨hprepared, hresolved⟩
    exact complete_of_saved hprepared hresolved hfree.files

end Java.Generator

namespace Report

open Java (Generator ProjectOptions)
open Java.Generator (PlainNames SameRoot Unhindered Silent)

variable {m : Model} {ws : List Diagnostic} {options : ProjectOptions} {target : Path}
  {t : FileTree}

/-- How the report of a dry run compares to the report of the run itself. -/
structure Foretold (g : Generator) (t : FileTree) (target : Path) (dry real : GenerateReport) :
    Prop where
  success : dry.isSuccess
  warnings : real.warnings = dry.warnings ++ (g.noticed t target).map Diagnostic.paragraph
  agrees : Unhindered g t target →
    (real.isSuccess = dry.isSuccess ∧ real.warnings = dry.warnings ↔
      (∀ r ∈ g.journal target t g.projects, r.isPrepared) ∧ Silent g)
  /-- New projects are all prepared in an empty directory unless two have the same source root. -/
  prepared : PlainNames g.model → t.EmptyDirectory target → Unhindered g t target →
    ((∀ r ∈ g.journal target t g.projects, r.isPrepared) ↔
      (g.options.mode = .createNew → g.projects.Pairwise fun a b => ¬ SameRoot a b))

theorem warnings_ofDiagnostics (ds : List Diagnostic) :
    (Messages.ofDiagnostics ds).warnings =
      (ds.filter Diagnostic.isWarning).map Diagnostic.paragraph := rfl

/-- A run of an accepted document gets to the generator of its model. -/
theorem generate_of_accepted (h : Document.Accepted m ws) (hns : choiceFault? options.ns = none)
    (target : Path) (t : FileTree) :
    ∃ c, Compilation.run m ws = .ok c ∧ c.hasErrors = false ∧
      Generator.ofCompilation c options = Generator.ofModel m options ∧
      ∀ dryRun, (generate m ws options target dryRun t).2 =
        .ok (produce c options target dryRun t).2 := by
  obtain ⟨c, hrun, hmodel, hcontexts, herrors⟩ := Compilation.run_of_accepted h
  refine ⟨c, hrun, herrors, ?_, fun dryRun => ?_⟩
  · rw [Generator.ofCompilation, Generator.ofModel, hmodel, hcontexts]
  · rw [generate, hns, hrun]

theorem foretold_produce {c : Compilation} (h : Document.Accepted m ws)
    (hns : choiceFault? options.ns = none) (hc : c.hasErrors = false)
    (hg : Generator.ofCompilation c options = Generator.ofModel m options) :
    Foretold (Generator.ofModel m options) t target (produce c options target true t).2
      (produce c options target false t).2 := by
  have hsuccess : (produce c options target true t).2.isSuccess := by
    show ((Messages.ofDiagnostics c.diagnostics).errors.isEmpty && true) = true
    rw [Bool.and_true, List.isEmpty_iff, errors_ofDiagnostics_eq_nil_iff]
    exact hc
  have hwarnings : (produce c options target false t).2.warnings =
      (produce c options target true t).2.warnings ++
        ((Generator.ofModel m options).noticed t target).map Diagnostic.paragraph := by
    show (Messages.ofDiagnostics (c.diagnostics ++
      ((Generator.ofCompilation c options).generate t target).2.diagnostics)).warnings =
        (Messages.ofDiagnostics c.diagnostics).warnings ++ _
    rw [hg, warnings_ofDiagnostics, warnings_ofDiagnostics, List.filter_append, List.map_append,
      Generator.warnings_generate]
  refine ⟨hsuccess, hwarnings, fun hfree => ?_, fun hplain hempty hfree => ?_⟩
  · have hreal : (produce c options target false t).2.isSuccess ↔
        ((Generator.ofCompilation c options).generate t target).2.isSuccess :=
      isSuccess_produce_iff hc
    rw [hg, Generator.isSuccess_of_unhindered hfree] at hreal
    rw [hsuccess, hreal, hwarnings, List.append_right_eq_self, List.map_eq_nil_iff]
    constructor
    · rintro ⟨⟨hprepared, hfailed⟩, hnoticed⟩
      have hsilent := (Generator.noticed_eq_nil_iff hprepared).1 hnoticed
      exact ⟨hprepared, fun p hp => ⟨hfailed p hp, hsilent p hp⟩⟩
    · rintro ⟨hprepared, hsilent⟩
      refine ⟨⟨hprepared, fun p hp => (hsilent p hp).1⟩, ?_⟩
      exact (Generator.noticed_eq_nil_iff hprepared).2 fun p hp => (hsilent p hp).2
  · exact Generator.prepared_iff (Generator.tidy_of_plainNames h rfl hplain hns) hempty hfree

/-- A dry run and the run itself are refused alike, or both give a report. The dry run is a success
and has the warnings from before emission; the run has those of the projects that it prepared as well.
Where everything can be created, the two agree on success and on warnings exactly when all projects
are prepared and emission is silent; and with plain names, in an empty directory, all projects are
prepared unless they are new and two have the same source root. -/
theorem dryRun_foretells_iff (h : Document.Accepted m ws) (options : ProjectOptions)
    (target : Path) (t : FileTree) :
    (∀ fault, choiceFault? options.ns = some fault → ∀ dryRun,
      (generate m ws options target dryRun t).2 = .error (.ns fault)) ∧
    (choiceFault? options.ns = none → ∃ dry real,
      (generate m ws options target true t).2 = .ok dry ∧
      (generate m ws options target false t).2 = .ok real ∧
      Foretold (Generator.ofModel m options) t target dry real) := by
  constructor
  · intro fault hfault dryRun
    rw [generate, hfault]
  · intro hns
    obtain ⟨c, -, hc, hg, hreport⟩ := generate_of_accepted h hns target t
    exact ⟨_, _, hreport true, hreport false, foretold_produce h hns hc hg⟩

/-- An event on a stream, which holds an order with the given fields. -/
def orderShop (fields : List (String × TypeTree)) : Model :=
  { Model.empty with
    streams := [⟨.uniform 3, "Orders"⟩]
    events := Dict.ofList [(.uniform 4, ⟨.uniform 4, "Placed", none, some (.uniform 1)⟩)]
    placements := Dict.ofList
      [(.uniform 5, ⟨.uniform 5, 0, .event, .uniform 4, .stream, some (.uniform 3)⟩)]
    schemas := Dict.ofList
      [(.uniform 1, ⟨.uniform 1, "Order", "shop", none, .object ⟨"Order", none⟩ fields⟩)] }

def numberField : String × TypeTree := ("number", .scalar ⟨"Order", none⟩ .int)

/-- A text or a number, which no field can hold. -/
def methodField : String × TypeTree :=
  ("method", .combined ⟨"Order", none⟩ .or
    [.scalar ⟨"Order", none⟩ .string, .scalar ⟨"Order", none⟩ .int])

/-- A reference to a schema that the shop does not have. -/
def buyerField : String × TypeTree := ("buyer", .reference ⟨"Order", none⟩ (.uniform 2))

/-- New projects in the working directory. -/
def newHere : ProjectOptions := ⟨.fallback, .createNew, .tab⟩

/-- The run of a shop whose orders have a number is foretold. -/
theorem dryRun_foretells_numbers :
    Document.Accepted (orderShop [numberField]) [] ∧
      (∅ : FileTree).EmptyDirectory ⟨"."⟩ ∧
      Unhindered (Generator.ofModel (orderShop [numberField]) newHere) ∅ ⟨"."⟩ ∧
      ∃ dry real,
        (generate (orderShop [numberField]) [] newHere ⟨"."⟩ true ∅).2 = .ok dry ∧
        (generate (orderShop [numberField]) [] newHere ⟨"."⟩ false ∅).2 = .ok real ∧
        dry.isSuccess ∧ real.isSuccess = dry.isSuccess ∧ real.warnings = dry.warnings := by
  have haccepted : Document.Accepted (orderShop [numberField]) [] :=
    Document.accepted_of_wellFormed (by decide +kernel)
  have hplain : PlainNames (orderShop [numberField]) := by
    refine ⟨by decide +kernel, fun kind => ?_⟩
    cases kind <;> decide +kernel
  have hempty := FileTree.emptyDirectory_empty (p := ⟨"."⟩) (by decide +kernel)
  have hfree : Unhindered (Generator.ofModel (orderShop [numberField]) newHere) ∅ ⟨"."⟩ :=
    Generator.unhindered_of_prepared (by decide +kernel)
  obtain ⟨dry, real, hdry, hreal, hforetold⟩ :=
    (dryRun_foretells_iff haccepted newHere ⟨"."⟩ ∅).2 rfl
  have hprepared := (hforetold.prepared hplain hempty hfree).2 fun _ => by decide +kernel
  have hagrees := (hforetold.agrees hfree).2 ⟨hprepared, by decide +kernel⟩
  exact ⟨haccepted, hempty, hfree, dry, real, hdry, hreal, hforetold.success, hagrees⟩

/-- The warning for the field that a class cannot have. -/
def methodWarning (className : String) : String :=
  "field 'method' omitted: 'Order' has unsupported shape 'or'\n  --> " ++ className ++ ".method"

/-- A dry run is silent about a field that is left out, and calls a run a success whose classes
cannot be resolved, although everything can be created in an empty directory. -/
theorem dryRun_unforetold :
    (∅ : FileTree).EmptyDirectory ⟨"."⟩ ∧
      (∀ field ∈ [methodField, buyerField],
        Document.Accepted (orderShop [numberField, field]) [] ∧
        Unhindered (Generator.ofModel (orderShop [numberField, field]) newHere) ∅ ⟨"."⟩) ∧
      (generate (orderShop [numberField, methodField]) [] newHere ⟨"."⟩ true ∅).2.toOption.map
        GenerateReport.warnings = some [] ∧
      (generate (orderShop [numberField, methodField]) [] newHere ⟨"."⟩ false ∅).2.toOption.map
        GenerateReport.warnings = some [methodWarning "Order", methodWarning "Placed"] ∧
      (generate (orderShop [numberField, buyerField]) [] newHere ⟨"."⟩ true ∅).2.toOption.map
        GenerateReport.isSuccess = some true ∧
      (generate (orderShop [numberField, buyerField]) [] newHere ⟨"."⟩ false ∅).2.toOption.map
        GenerateReport.isSuccess = some false := by
  refine ⟨FileTree.emptyDirectory_empty (by decide +kernel), fun field hfield => ⟨?_, ?_⟩, ?_⟩
  · apply Document.accepted_of_wellFormed
    revert field
    decide +kernel
  · apply Generator.unhindered_of_prepared
    revert field
    decide +kernel
  · decide +kernel

end Report

end EventForge
