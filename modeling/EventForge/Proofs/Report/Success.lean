import EventForge.Proofs.Compilation
import EventForge.Proofs.Java.Failures
import EventForge.Proofs.Java.Preview
import EventForge.Report.Generate
import Mathlib.Data.List.TFAE
import Mathlib.Tactic.TFAE

/-!
# What a successful run has done

A run is complete when it prepared every project, could resolve every class and wrote every file that
a preview shows, so that all of them are in the tree. It calls itself successful exactly when it is
complete, and so does the report on it, which has something to say exactly when it does not
(`success_tfae`).
-/

namespace EventForge.Java.Generator

/-- Every project was prepared, every class was resolved and every file was written. -/
structure Complete (g : Generator) (t : FileTree) (target : Path) : Prop where
  prepared : ∀ r ∈ g.journal target t g.projects, r.isPrepared
  resolved : ∀ project ∈ g.projects, (g.filesOf project).failed = []
  written : (g.generate t target).2.written = g.preview.map Prod.fst
  /-- Below the target every path of the preview is that of a file, which holds what the preview
  shows for its place. -/
  files : ∀ pair ∈ g.preview, ∃ last ∈ g.preview,
    (g.generate t target).1.locate (target.join last.1) =
      (g.generate t target).1.locate (target.join pair.1) ∧
    (g.generate t target).1.read? (target.join pair.1) = some last.2

variable {g : Generator} {t : FileTree} {target : Path}

theorem unprepared?_eq_none_iff (r : ProjectRun) : r.unprepared? = none ↔ r.isPrepared := by
  obtain ⟨project, fault | attempts⟩ := r
  · exact iff_of_false (fun h => nomatch h) (fun h => nomatch h)
  · exact iff_of_true rfl rfl

theorem failure?_eq_none_iff (a : Attempt) : a.failure? = none ↔ a.isSaved := by
  obtain ⟨file, _ | fault⟩ := a
  · simp
  · simp

/-- A run has no errors exactly when it prepared every project. -/
theorem any_isError_generate (g : Generator) (t : FileTree) (target : Path) :
    (g.generate t target).2.diagnostics.any Diagnostic.isError = false ↔
      ∀ r ∈ g.journal target t g.projects, r.isPrepared := by
  rw [List.any_eq_false, ← List.filter_eq_nil_iff, (accounts_journal g t target).errors,
    List.filterMap_eq_nil_iff]
  exact forall₂_congr fun r _ => unprepared?_eq_none_iff r

/-- Nothing failed in a run that prepared every project exactly when every class was resolved and
every attempt to write a file succeeded. -/
theorem failed_eq_nil_iff (hprepared : ∀ r ∈ g.journal target t g.projects, r.isPrepared) :
    (g.generate t target).2.failed = [] ↔
      (∀ project ∈ g.projects, (g.filesOf project).failed = []) ∧
        ∀ r ∈ g.journal target t g.projects, ∀ a ∈ r.attempts, a.isSaved := by
  rw [(accounts_journal g t target).failed, List.flatMap_eq_nil_iff,
    forall_projects_iff g t target, ← forall₂_and]
  refine forall₂_congr fun r hr => ?_
  rw [if_pos (hprepared r hr), List.append_eq_nil_iff, List.filterMap_eq_nil_iff]
  exact and_congr_right fun _ => forall₂_congr fun a _ => failure?_eq_none_iff a

/-- A run that prepared every project tried to write everything that the preview shows. -/
theorem attempted_eq_preview (hprepared : ∀ r ∈ g.journal target t g.projects, r.isPrepared) :
    ((g.journal target t g.projects).flatMap ProjectRun.attempts).map Attempt.pair =
      g.preview := by
  have haccounts := accounts_journal g t target
  rw [List.map_flatMap, haccounts.attempted, List.filter_eq_self.2 hprepared, haccounts.preview]

/-- What is written is all of the preview exactly when no attempt failed. -/
theorem written_eq_preview_iff (hprepared : ∀ r ∈ g.journal target t g.projects, r.isPrepared) :
    (g.generate t target).2.written = g.preview.map Prod.fst ↔
      ∀ r ∈ g.journal target t g.projects, ∀ a ∈ r.attempts, a.isSaved := by
  rw [← List.forall_mem_flatMap (f := ProjectRun.attempts), (accounts_journal g t target).written,
    ← attempted_eq_preview hprepared, List.map_map, succeeded]
  constructor
  · intro hpaths
    have hlength := congrArg List.length hpaths
    rw [List.length_map, List.length_map] at hlength
    exact List.length_filter_eq_length_iff.1 hlength
  · intro hsaved
    rw [List.filter_eq_self.2 hsaved]
    rfl

/-- When all attempts succeed, the paths of the preview hold its texts. -/
theorem files_of_saved (hprepared : ∀ r ∈ g.journal target t g.projects, r.isPrepared)
    (hsaved : ∀ r ∈ g.journal target t g.projects, ∀ a ∈ r.attempts, a.isSaved)
    {pair : Path × String} (hpair : pair ∈ g.preview) :
    ∃ last ∈ g.preview,
      (g.generate t target).1.locate (target.join last.1) =
        (g.generate t target).1.locate (target.join pair.1) ∧
      (g.generate t target).1.read? (target.join pair.1) = some last.2 := by
  have hpreview : (g.savedInOrder t target).map (fun f => (f.path, f.text)) = g.preview := by
    rw [← List.forall_mem_flatMap (f := ProjectRun.attempts)] at hsaved
    rw [savedInOrder_eq_succeeded, succeeded, List.filter_eq_self.2 hsaved,
      ← attempted_eq_preview hprepared, List.map_map]
    rfl
  rw [← hpreview] at hpair ⊢
  obtain ⟨f, hf, rfl⟩ := List.mem_map.1 hpair
  obtain ⟨earlier, last, later, heq, hplace, -, hread⟩ := read?_saved g t target hf
  rw [SourceFile.pathBelow_eq, SourceFile.pathBelow_eq] at hplace
  rw [SourceFile.pathBelow_eq] at hread
  have hlast : last ∈ g.savedInOrder t target := by simp [heq]
  exact ⟨(last.path, last.text), List.mem_map_of_mem hlast, hplace, hread⟩

theorem complete_of_saved (hprepared : ∀ r ∈ g.journal target t g.projects, r.isPrepared)
    (hresolved : ∀ project ∈ g.projects, (g.filesOf project).failed = [])
    (hsaved : ∀ r ∈ g.journal target t g.projects, ∀ a ∈ r.attempts, a.isSaved) :
    g.Complete t target where
  prepared := hprepared
  resolved := hresolved
  written := (written_eq_preview_iff hprepared).2 hsaved
  files _ hpair := files_of_saved hprepared hsaved hpair

/-- A run is successful exactly when it is complete. -/
theorem isSuccess_generate_iff (g : Generator) (t : FileTree) (target : Path) :
    (g.generate t target).2.isSuccess ↔ g.Complete t target := by
  rw [Result.isSuccess, Bool.and_eq_true, List.isEmpty_iff, Bool.not_eq_true',
    any_isError_generate]
  constructor
  · rintro ⟨hfailed, hprepared⟩
    obtain ⟨hresolved, hsaved⟩ := (failed_eq_nil_iff hprepared).1 hfailed
    exact complete_of_saved hprepared hresolved hsaved
  · rintro ⟨hprepared, hresolved, hwritten, -⟩
    have hsaved := (written_eq_preview_iff hprepared).1 hwritten
    exact ⟨(failed_eq_nil_iff hprepared).2 ⟨hresolved, hsaved⟩, hprepared⟩

end EventForge.Java.Generator

namespace EventForge.Report

open Java (Generator ProjectOptions)

variable {m : Model} {ws : List Diagnostic} {options : ProjectOptions} {target : Path}
  {dryRun : Bool} {t : FileTree} {report : GenerateReport}

/-- Joined lines are no text at all only when there is no line, provided that none is empty. -/
theorem joinWith_eq_empty_iff {sep : String} (hsep : sep ≠ "") {lines : List String}
    (h : ∀ line ∈ lines, line ≠ "") : Text.joinWith sep lines = "" ↔ lines = [] := by
  match lines with
  | [] => simp [Text.joinWith]
  | [line] => simpa [Text.joinWith] using h
  | line :: next :: rest => simp [Text.joinWith, hsep]

/-- A report has something to say exactly when it is not one of success. -/
theorem diagnosticText_eq_empty_iff (r : GenerateReport) :
    r.diagnosticText = "" ↔ r.isSuccess := by
  have hlines : ∀ line ∈ r.errors.map (fun e => "error: " ++ e) ++
      r.outcome.failed.map (fun f => "failed: " ++ failedText f), line ≠ "" := by
    intro line hline
    rcases List.mem_append.1 hline with hline | hline
    · obtain ⟨e, -, rfl⟩ := List.mem_map.1 hline
      simp
    · obtain ⟨f, -, rfl⟩ := List.mem_map.1 hline
      simp
  rw [GenerateReport.diagnosticText, joinWith_eq_empty_iff (by decide) hlines,
    GenerateReport.isSuccess, List.append_eq_nil_iff, List.map_eq_nil_iff, List.map_eq_nil_iff,
    Bool.and_eq_true, List.isEmpty_iff, List.isEmpty_iff]

/-- A report is that on the compiled model, which has no errors. -/
theorem generate_eq_ok (h : (generate m ws options target dryRun t).2 = .ok report) :
    ∃ c, Compilation.run m ws = .ok c ∧ report = (produce c options target dryRun t).2 := by
  rw [generate] at h
  split at h
  · cases h
  · split at h
    · cases h
    · next c hrun => exact ⟨c, hrun, (Except.ok.inj h).symm⟩

theorem errors_ofDiagnostics_eq_nil_iff (ds : List Diagnostic) :
    (Messages.ofDiagnostics ds).errors = [] ↔ ds.any Diagnostic.isError = false := by
  rw [Messages.ofDiagnostics, List.map_eq_nil_iff, List.any_eq_false, List.filter_eq_nil_iff]
  rfl

/-- The report on a run is one of success exactly when the run was successful. -/
theorem isSuccess_produce_iff {c : Compilation} (hc : c.hasErrors = false) :
    (produce c options target false t).2.isSuccess ↔
      ((Generator.ofCompilation c options).generate t target).2.isSuccess := by
  have hnone : c.diagnostics.any Diagnostic.isError = false := hc
  show ((Messages.ofDiagnostics (c.diagnostics ++ _)).errors.isEmpty &&
    ((Generator.ofCompilation c options).generate t target).2.failed.isEmpty) = true ↔ _
  rw [Bool.and_eq_true, List.isEmpty_iff, errors_ofDiagnostics_eq_nil_iff, List.any_append, hnone,
    Bool.false_or, Generator.Result.isSuccess, Bool.and_eq_true, Bool.not_eq_true']
  exact and_comm

/-- Whenever a run of a model gives a report, the report is one of success, has nothing to say, the
run calls itself successful, and every project of a context that is not empty was prepared, all of
its classes resolved and all of its files written: all of this or nothing of it. -/
theorem success_tfae (h : (generate m ws options target false t).2 = .ok report) :
    ∃ c, Compilation.run m ws = .ok c ∧
      ((Generator.ofCompilation c options).projects.map Prod.fst =
        (Context.partition m).filter fun x => !x.isEmpty) ∧
      [report.isSuccess = true, report.diagnosticText = "",
        ((Generator.ofCompilation c options).generate t target).2.isSuccess = true,
        (Generator.ofCompilation c options).Complete t target].TFAE := by
  obtain ⟨c, hrun, rfl⟩ := generate_eq_ok h
  obtain ⟨-, hcontexts, hnone⟩ := Compilation.run_eq_ok hrun
  refine ⟨c, hrun, ?_, ?_⟩
  · rw [← hcontexts]
    simp [Generator.projects, Generator.ofCompilation, Function.comp_def]
  · tfae_have 2 ↔ 1 := diagnosticText_eq_empty_iff _
    tfae_have 1 ↔ 3 := isSuccess_produce_iff hnone
    tfae_have 3 ↔ 4 := Generator.isSuccess_generate_iff _ t target
    tfae_finish

/-- How the model below is generated. -/
def inPlace : ProjectOptions := ⟨.fallback, .useExisting, .tab⟩

/-- An event whose schema refers to buyers, who have no schema. -/
def unknownBuyers : Model := (Java.ContextFiles.orderProject [Java.ContextFiles.orderSchema]).model

def orderFailure : Java.FailedFile :=
  ⟨"Order", "reference to unknown schema 22222222-2222-2222-2222-222222222222"⟩

/-- Neither the class of the order nor that of the event is resolved: no error is reported and every
directory was created, yet the run was no success by any of the four. -/
theorem success_tfae_unknownBuyers :
    ∃ report c, (generate unknownBuyers [] inPlace ⟨"out"⟩ false ∅).2 = .ok report ∧
      report.errors = [] ∧
      report.outcome =
        .written ⟨"out"⟩ [] [orderFailure, Java.ContextFiles.placedFailure] [] ∧
      report.isSuccess = false ∧ report.diagnosticText ≠ "" ∧
      ((Generator.ofCompilation c inPlace).generate ∅ ⟨"out"⟩).2.isSuccess = false ∧
      ¬ (Generator.ofCompilation c inPlace).Complete ∅ ⟨"out"⟩ := by
  have hreport : ((generate unknownBuyers [] inPlace ⟨"out"⟩ false ∅).2.toOption.map
      fun r => (r.errors, r.outcome, r.isSuccess)) =
      some ([], .written ⟨"out"⟩ [] [orderFailure, Java.ContextFiles.placedFailure] [], false) := by
    decide +kernel
  cases h : (generate unknownBuyers [] inPlace ⟨"out"⟩ false ∅).2 with
  | error fault =>
    rw [h] at hreport
    cases hreport
  | ok report =>
    obtain ⟨c, -, -, htfae⟩ := success_tfae h
    rw [h] at hreport
    obtain ⟨herrors, hrest⟩ := Prod.mk.inj (Option.some.inj hreport)
    obtain ⟨houtcome, hfailed⟩ := Prod.mk.inj hrest
    have hnot : ¬ report.isSuccess = true := Bool.eq_false_iff.1 hfailed
    exact ⟨report, c, rfl, herrors, houtcome, hfailed, fun htext => hnot ((htfae.out 1 0).1 htext),
      Bool.eq_false_iff.2 fun hrun => hnot ((htfae.out 2 0).1 hrun),
      fun hcomplete => hnot ((htfae.out 3 0).1 hcomplete)⟩

end EventForge.Report
