import EventForge.Compilation
import EventForge.Proofs.Document.Severity
import EventForge.Proofs.Lint

/-!
# Runs of models that were read

Only errors stop a run. Reading a document only warns and so does every lint, hence the run of an
accepted document always reaches partitioning.
-/

namespace EventForge.Compilation

variable {m : Model} {ws : List Diagnostic}

theorem hasErrors_eq_false {c : Compilation} (h : ∀ d ∈ c.diagnostics, ¬ d.isError) :
    c.hasErrors = false :=
  List.any_eq_false.2 h

/-- Partitioning only adds remarks. -/
theorem hasErrors_partition (c : Compilation) : c.partition.hasErrors = c.hasErrors := by
  have hremarks : ∀ contexts : List Context,
      (contexts.map emptyStream).any Diagnostic.isError = false := by
    intro contexts
    simp [emptyStream, Diagnostic.isError]
  simp only [partition, hasErrors, List.any_append, hremarks, Bool.or_false]

/-- A run that succeeds knows of no error and has the contexts of its model. -/
theorem run_eq_ok {c : Compilation} (h : run m ws = .ok c) :
    c.model = m ∧ c.contextList = Context.partition m ∧ c.hasErrors = false := by
  unfold run at h
  split at h
  · cases h
  · next valid hvalid =>
    obtain rfl := Except.ok.inj h
    obtain ⟨rfl, hpassed⟩ := Prod.mk.inj hvalid
    refine ⟨rfl, rfl, ?_⟩
    rw [hasErrors_partition]
    by_contra herrors
    rw [Bool.not_eq_false] at herrors
    simp [herrors] at hpassed

/-- A run that starts with warnings only ends without errors, with the contexts of its model. -/
theorem run_of_isWarning (h : ∀ d ∈ ws, d.isWarning) :
    ∃ c, run m ws = .ok c ∧ c.model = m ∧ c.contextList = Context.partition m ∧
      c.hasErrors = false := by
  have hwarns : ∀ d ∈ (ofModel m ws).validate.1.diagnostics, ¬ d.isError := by
    intro d hd
    rcases List.mem_append.1 hd with hd | hd
    · exact Diagnostic.not_isError_of_isWarning (h d hd)
    · obtain ⟨l, hl, hd⟩ := List.mem_flatMap.1 hd
      exact Diagnostic.not_isError_of_isWarning (Lint.isWarning_of_mem hl hd)
  have hpassed : (ofModel m ws).validate.2 = none :=
    if_neg (Bool.eq_false_iff.1 (hasErrors_eq_false hwarns))
  have hrun : run m ws = .ok (ofModel m ws).validate.1.partition := by
    unfold run
    split
    · next failure hfailed => rw [hfailed] at hpassed; cases hpassed
    · next c _ hc => rw [hc]
  exact ⟨_, hrun, run_eq_ok hrun⟩

theorem run_of_accepted (h : Document.Accepted m ws) :
    ∃ c, run m ws = .ok c ∧ c.model = m ∧ c.contextList = Context.partition m ∧
      c.hasErrors = false :=
  run_of_isWarning h.isWarning

end EventForge.Compilation
