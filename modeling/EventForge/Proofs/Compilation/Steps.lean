import EventForge.Proofs.Compilation
import EventForge.Proofs.Document.RoundTrip
import EventForge.Proofs.Model

/-!
# Compilations step by step

A compilation goes on by adding a diagnostic, by validation and by partitioning, in any order and
any number of times. What a step finds depends on the model alone, and the model never changes, so
the diagnostics after any steps are what each of the steps finds, one behind the other
(`steps_accounted`). No lint finds an error: validation fails for errors that were added.
-/

namespace EventForge.Compilation

/-- Something that is done to a compilation. -/
inductive Step where
  | add (d : Diagnostic)
  | validate
  | partition
  deriving DecidableEq

/-- Does a step. Only validation can fail, and what it has found then stays. -/
def perform (c : Compilation) : Step → Compilation × Option Failure
  | .add d => (c.add d, none)
  | .validate => c.validate
  | .partition => (c.partition, none)

/-- Does steps in order; the failure of one does not keep the next from being done. -/
def after (c : Compilation) (steps : List Step) : Compilation :=
  steps.foldl (fun c step => (c.perform step).1) c

/-- What a step adds to the diagnostics of a compilation of the model. -/
def Step.findings (m : Model) : Step → List Diagnostic
  | add d => [d]
  | validate =>
    Lint.missingSchema.check m ++ Lint.unresolvedReference.check m ++ Lint.danglingFlow.check m
      ++ Lint.defaultStream.check m
  | partition =>
    ((Context.partition m).filter fun x => x.placements = [] ∧ x.stream ≠ none).map emptyStream

/-- The contexts after a step, when there were `contexts` before. -/
def Step.contextsAfter (m : Model) (contexts : Option (List Context)) : Step → Option (List Context)
  | partition => some (Context.partition m)
  | _ => contexts

variable {m : Model} {ws : List Diagnostic}

theorem perform_eq (c : Compilation) (step : Step) :
    (c.perform step).1 =
      ⟨c.model, step.contextsAfter c.model c.contexts,
        c.diagnostics ++ step.findings c.model⟩ := by
  cases step with
  | add d => rfl
  | validate => simp [perform, validate, Step.findings, Step.contextsAfter, Lint.all]
  | partition =>
    have hempty : (fun x : Context => x.isEmpty && !x.isDefault) =
        fun x => decide (x.placements = [] ∧ x.stream ≠ none) := by
      funext x
      rw [Bool.eq_iff_iff]
      simp [Context.isEmpty, Context.isDefault, ← Option.ne_none_iff_isSome]
    rw [perform, partition, Step.findings, Step.contextsAfter, hempty]

/-- After steps the model is the same, the diagnostics are followed by what the steps found, and the
contexts are those of the model if one of the steps was partitioning. -/
theorem after_eq (c : Compilation) (steps : List Step) :
    c.after steps =
      ⟨c.model, if .partition ∈ steps then some (Context.partition c.model) else c.contexts,
        c.diagnostics ++ steps.flatMap (Step.findings c.model)⟩ := by
  induction steps generalizing c with
  | nil => simp [after]
  | cons step steps ih =>
    have hcontexts : (if .partition ∈ steps then some (Context.partition c.model)
        else step.contextsAfter c.model c.contexts) =
          if .partition ∈ step :: steps then some (Context.partition c.model)
          else c.contexts := by
      cases step <;> simp [Step.contextsAfter]
    have hstep : c.after (step :: steps) = (c.perform step).1.after steps := rfl
    rw [hstep, ih, perform_eq, hcontexts, List.flatMap_cons, List.append_assoc]

theorem after_append (c : Compilation) (steps more : List Step) :
    c.after (steps ++ more) = (c.after steps).after more :=
  List.foldl_append

theorem diagnostics_prefix_after (c : Compilation) (steps : List Step) :
    c.diagnostics <+: (c.after steps).diagnostics := by
  rw [after_eq]
  exact List.prefix_append _ _

/-- Starting with diagnostics is adding them first. -/
theorem after_map_add (m : Model) (ds : List Diagnostic) :
    (ofModel m []).after (ds.map .add) = ofModel m ds := by
  simp [after_eq, ofModel, List.flatMap_map, Step.findings]

/-- A step finds an error when it adds one. -/
theorem isError_of_mem_findings {step : Step} {d : Diagnostic} (hd : d ∈ step.findings m)
    (herror : d.isError) : step = .add d := by
  cases step with
  | add d' => rw [List.mem_singleton.1 hd]
  | validate =>
    have hlint : d ∈ Lint.all.flatMap fun l => l.check m := by
      simpa [Step.findings, Lint.all] using hd
    obtain ⟨l, hl, hd⟩ := List.mem_flatMap.1 hlint
    exact absurd herror (Diagnostic.not_isError_of_isWarning (Lint.isWarning_of_mem hl hd))
  | partition =>
    obtain ⟨x, -, rfl⟩ := List.mem_map.1 hd
    simp [emptyStream, Diagnostic.isError] at herror

/-- A failure tells the number of errors that are known behind the lints. -/
theorem validate_failure (c : Compilation) :
    c.validate.2 =
      if ∃ d ∈ c.validate.1.diagnostics, d.isError then
        some ⟨c.validate.1.diagnostics.countP Diagnostic.isError⟩
      else none := by
  have herrors : c.validate.1.hasErrors ↔ ∃ d ∈ c.validate.1.diagnostics, d.isError :=
    List.any_eq_true
  have hcount : c.validate.1.errors.length =
      c.validate.1.diagnostics.countP Diagnostic.isError :=
    List.countP_eq_length_filter.symm
  simp only [← herrors, ← hcount]
  rfl

theorem validate_fails_iff (c : Compilation) :
    c.validate.2 ≠ none ↔ ∃ d ∈ c.validate.1.diagnostics, d.isError := by
  rw [validate_failure]
  simp

/-- The errors that are known behind the lints were added by steps. -/
theorem exists_error_iff (m : Model) (steps : List Step) :
    (∃ d ∈ ((ofModel m []).after steps).validate.1.diagnostics, d.isError) ↔
      ∃ d, .add d ∈ steps ∧ d.isError := by
  have hdiagnostics : ((ofModel m []).after steps).validate.1.diagnostics =
      (steps ++ [Step.validate]).flatMap (Step.findings m) := by
    have hvalidated := after_eq (ofModel m []) (steps ++ [.validate])
    rw [after_append] at hvalidated
    exact congrArg Compilation.diagnostics hvalidated
  rw [hdiagnostics]
  constructor
  · rintro ⟨d, hd, herror⟩
    obtain ⟨step, hstep, hd⟩ := List.mem_flatMap.1 hd
    obtain rfl := isError_of_mem_findings hd herror
    exact ⟨d, by simpa using hstep, herror⟩
  · rintro ⟨d, hd, herror⟩
    have hstep : Step.add d ∈ steps ++ [Step.validate] := List.mem_append_left _ hd
    exact ⟨d, List.mem_flatMap.2 ⟨_, hstep, List.mem_singleton_self d⟩, herror⟩

/-- The run of an accepted document adds its warnings, validates and partitions. -/
theorem run_eq_after (h : Document.Accepted m ws) :
    run m ws = .ok ((ofModel m []).after (ws.map .add ++ [.validate, .partition])) := by
  obtain ⟨done, hrun, -⟩ := run_of_accepted h
  rw [hrun, after_append, after_map_add]
  unfold run at hrun
  split at hrun
  · cases hrun
  · next valid hvalid =>
    have hvalidated : ((ofModel m ws).perform .validate).1 = valid := congrArg Prod.fst hvalid
    rw [← Except.ok.inj hrun, ← hvalidated]
    rfl

/-- Whatever is done to the compilation of a model, and in whatever order, the model stays, nothing
that was found is removed or moved, and the contexts are there once a step was partitioning, which
only ever remarks. Validating then fails exactly when an error is known behind the lints, with the
number of errors in its message, and that is when one of the steps added an error; the contexts stay
as they are. So the run of an accepted document succeeds, and what it has found begins with the
warnings of the document. -/
theorem steps_accounted (m : Model) (steps : List Step) :
    let c := (ofModel m []).after steps
    c.model = m ∧
      c.diagnostics = steps.flatMap (Step.findings m) ∧
      (∀ more, c.diagnostics <+: (c.after more).diagnostics) ∧
      (∀ d ∈ Step.partition.findings m, d.severity = .info) ∧
      c.contexts = (if .partition ∈ steps then some (Context.partition m) else none) ∧
      c.validate.1.contexts = c.contexts ∧
      (c.validate.2 ≠ none ↔ ∃ d ∈ c.validate.1.diagnostics, d.isError) ∧
      (c.validate.2 ≠ none ↔ ∃ d, .add d ∈ steps ∧ d.isError) ∧
      (∀ failure, c.validate.2 = some failure →
        failure.message = "Validation failed with "
          ++ Text.decimal (c.validate.1.diagnostics.countP Diagnostic.isError) ++ " error(s)") ∧
      ∀ ws, Document.Accepted m ws →
        ∃ done, run m ws = .ok done ∧
          done = (ofModel m []).after (ws.map .add ++ [.validate, .partition]) ∧
          ws <+: done.diagnostics := by
  have hafter := after_eq (ofModel m []) steps
  refine ⟨by rw [hafter]; rfl, by rw [hafter]; rfl, diagnostics_prefix_after _, fun d hd => ?_,
    by rw [hafter]; rfl, rfl, validate_fails_iff _,
    (validate_fails_iff _).trans (exists_error_iff m steps), fun failure hfailure => ?_,
    fun ws hws => ⟨_, run_eq_after hws, rfl, ?_⟩⟩
  · obtain ⟨x, -, rfl⟩ := List.mem_map.1 hd
    rfl
  · rw [validate_failure] at hfailure
    split at hfailure
    · rw [← Option.some.inj hfailure]
      rfl
    · cases hfailure
  · rw [after_append, after_map_add]
    exact diagnostics_prefix_after (ofModel m ws) _

/-- A stream without events. -/
def idleStream : Model := { Model.empty with streams := [⟨.uniform 1, "Orders"⟩] }

/-- The warning about a document that does not tell its version. -/
def noVersion : Diagnostic :=
  Document.Reading.warning "no spec-version declared, assuming 0.1.0-beta" "spec-version"

def spoilt : Diagnostic := ⟨.error, "test", "spoilt", none⟩

def idleRemark : Diagnostic := emptyStream ⟨some (.uniform 1), "Orders", []⟩

/-- An error that is added between two partitionings fails the validation behind them and takes
nothing away; the document without a version is run, and its warning is told before the remark on
the stream. -/
theorem steps_accounted_idleStream :
    let c := (ofModel idleStream []).after [.partition, .add spoilt, .partition]
    c.diagnostics = [idleRemark, spoilt, idleRemark] ∧
      c.contexts = some (Context.partition idleStream) ∧
      c.validate.2 ≠ none ∧
      (∀ failure, c.validate.2 = some failure →
        failure.message = "Validation failed with 1 error(s)") ∧
      Document.Accepted idleStream [noVersion] ∧
      ∃ done, run idleStream [noVersion] = .ok done ∧
        done.diagnostics = [noVersion, idleRemark] := by
  have haccepted : Document.Accepted idleStream [noVersion] := by
    refine .json (.object [("event-model", .object (Document.sectionFields idleStream))]) ?_
    rw [Document.ofJson_unversioned, Document.readModel_sectionFields (by decide +kernel)]
    exact congrArg (Document.Reading.read idleStream) (by decide +kernel)
  obtain ⟨-, hdiagnostics, -, -, hcontexts, -, -, hfails, hmessage, hrun⟩ :=
    steps_accounted idleStream [.partition, .add spoilt, .partition]
  obtain ⟨done, hdone, rfl, -⟩ := hrun [noVersion] haccepted
  exact ⟨hdiagnostics.trans (by decide +kernel), hcontexts, hfails.2 ⟨spoilt, by simp, rfl⟩,
    fun failure hfailure => (hmessage failure hfailure).trans (by decide +kernel), haccepted, _,
    hdone, by decide +kernel⟩

end EventForge.Compilation
