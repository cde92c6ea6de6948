import EventForge.Proofs.Compilation
import EventForge.Proofs.Context.Exclusive
import EventForge.Proofs.Java.Run
import EventForge.Report.Check

/-!
# What a check counts

A check counts the placements of a context by looking up the identifiers that the context lists
among the keys of the model's placements. A context lists the identifiers that placements declare,
and a document may keep a placement under another key. So a check and a run agree about a context
exactly when what the context lists is found under its own identifier (`check_agrees_iff`).
-/

namespace EventForge.Report

open Java (Generator ProjectOptions)

variable {m : Model}

/-- A check counts the identifier: it is the key of a placement, which holds no interface. -/
def isCounted (m : Model) (id : Uuid) : Bool :=
  (m.placements.get? id).any fun p => p.noteKind ≠ .interface

/-- All that a check counts in a context. -/
def ContextSummary.total (s : ContextSummary) : Nat := s.events + s.commands + s.readModels

/-- The names of the contexts that a check shows as empty and skipped. -/
def CheckReport.shownEmpty (r : CheckReport) : List String :=
  (r.contexts.filter fun s => s.text = s.name ++ " (empty, skipped)").map ContextSummary.name

theorem length_filter_kinds (ps : List Placement) :
    (ps.filter fun p => p.noteKind = .event).length +
        (ps.filter fun p => p.noteKind = .command).length +
        (ps.filter fun p => p.noteKind = .readModel).length =
      (ps.filter fun p => p.noteKind ≠ .interface).length := by
  induction ps with
  | nil => rfl
  | cons p ps ih =>
    cases hkind : p.noteKind with
    | interface => simpa [List.filter_cons, hkind] using ih
    | command | readModel | event =>
      simp only [List.filter_cons, hkind, reduceCtorEq, ne_eq, not_false_eq_true, decide_true,
        decide_false, if_true, if_false, Bool.false_eq_true, List.length_cons] at ih ⊢
      omega

theorem length_filter_filterMap {α β : Type} (f : α → Option β) (q : β → Bool) (xs : List α) :
    ((xs.filterMap f).filter q).length = (xs.filter fun x => (f x).any q).length := by
  induction xs with
  | nil => rfl
  | cons x xs ih =>
    cases hx : f x with
    | none => simpa [List.filterMap_cons, List.filter_cons, hx] using ih
    | some y => by_cases hy : q y <;> simpa [List.filterMap_cons, List.filter_cons, hx, hy] using ih

theorem total_ofContext (m : Model) (c : Context) :
    (ContextSummary.ofContext m c).total = (c.placements.filter (isCounted m)).length :=
  (length_filter_kinds _).trans (length_filter_filterMap _ _ _)

/-- A check counts every placement of the context exactly when it finds each of them. -/
theorem total_eq_length_iff (m : Model) (c : Context) :
    (ContextSummary.ofContext m c).total = c.placements.length ↔
      ∀ id ∈ c.placements, isCounted m id := by
  rw [total_ofContext, List.length_filter_eq_length_iff]

theorem text_eq_iff (s : ContextSummary) :
    s.text = s.name ++ " (empty, skipped)" ↔ s.total = 0 := by
  rw [ContextSummary.text]
  split
  · next hempty => exact iff_of_true rfl (of_decide_eq_true hempty)
  · next hfull =>
    refine iff_of_false (fun htext => ?_) fun htotal => hfull (decide_eq_true htotal)
    have hchars := congrArg String.toList htext
    simp at hchars

/-- Choosing items twice, once more narrowly, gives the same names when both choices agree. -/
theorem map_filter_eq_iff {α β : Type} {xs : List α} {p q : α → Bool} (f : α → β)
    (h : ∀ x ∈ xs, q x → p x) :
    (xs.filter p).map f = (xs.filter q).map f ↔ ∀ x ∈ xs, p x → q x := by
  constructor
  · intro hnames x hx hpx
    have hlength : (xs.filter q).length = (xs.filter p).length := by
      simpa using (congrArg List.length hnames).symm
    have hnarrow : xs.filter q = (xs.filter p).filter q := by
      rw [List.filter_filter]
      refine List.filter_congr fun x hx => ?_
      by_cases hq : q x
      · simp [hq, h x hx hq]
      · simp [hq]
    have hsub : (xs.filter q).Sublist (xs.filter p) := hnarrow ▸ List.filter_sublist
    have hmem : x ∈ xs.filter q := by
      rw [hsub.eq_of_length hlength]
      exact List.mem_filter.2 ⟨hx, hpx⟩
    exact (List.mem_filter.1 hmem).2
  · intro hall
    rw [List.filter_congr fun x hx => Bool.eq_iff_iff.2 ⟨hall x hx, h x hx⟩]

theorem skipped_generate (g : Generator) (t : FileTree) (target : Path) :
    (g.generate t target).2.skipped = (g.contexts.filter Context.isEmpty).map Context.name := by
  rw [Generator.generate_eq]
  rfl

/-- What is shown as empty in the summaries of some contexts. -/
theorem shownEmpty_eq (m : Model) (source : Path) (messages : Messages) (contexts : List Context) :
    CheckReport.shownEmpty ⟨source, messages, contexts.map (ContextSummary.ofContext m)⟩ =
      (contexts.filter fun c => (ContextSummary.ofContext m c).total = 0).map Context.name := by
  simp only [CheckReport.shownEmpty, text_eq_iff, List.filter_map, List.map_map]
  rfl

/-- What no warning says to stand under another key is counted by a check. -/
theorem isCounted_of_mem {ws : List Diagnostic} (h : Document.Accepted m ws)
    (hkeys : ∀ e ∈ m.placements.entries, ∀ location,
      Document.keyMismatch e.1 e.2.id location ∉ ws) {c : Context} (hc : c ∈ Context.partition m)
    {id : Uuid} (hid : id ∈ c.placements) : isCounted m id := by
  rw [Context.placements_of_mem_partition hc] at hid
  obtain ⟨p, hp, rfl, hbelongs⟩ := Context.mem_placementsFor_iff.1 hid
  obtain ⟨e, he, rfl⟩ := List.mem_map.1 hp
  have hkind : e.2.noteKind ≠ .interface := by
    rcases hbelongs.kind with hkind | hkind | hkind <;> simp [hkind]
  rw [isCounted, ← h.key_eq he (hkeys e he), Dict.get?_of_mem he]
  simpa using hkind

/-- A check of an accepted document counts all placements of a context exactly when it finds each of
them under the identifier that it declares, and shows those contexts as skipped that a run skips
exactly when it finds some placement of every context that has any. Both hold unless reading raised
the warning that a placement stands under another identifier than its own. -/
theorem check_agrees_iff {ws : List Diagnostic} (h : Document.Accepted m ws) (source : Path)
    (options : ProjectOptions) (t : FileTree) (target : Path) :
    ∃ c report, Compilation.run m ws = .ok c ∧ check m ws source = .ok report ∧ report.isValid ∧
      c.contextList = Context.partition m ∧
      report.contexts = (Context.partition m).map (ContextSummary.ofContext m) ∧
      (∀ x ∈ Context.partition m,
        ((ContextSummary.ofContext m x).total = x.placements.length ↔
          ∀ id ∈ x.placements, isCounted m id)) ∧
      (report.shownEmpty = ((Generator.ofCompilation c options).generate t target).2.skipped ↔
        ∀ x ∈ Context.partition m, x.placements ≠ [] → ∃ id ∈ x.placements, isCounted m id) ∧
      ((∀ e ∈ m.placements.entries, ∀ location,
          Document.keyMismatch e.1 e.2.id location ∉ ws) →
        (∀ x ∈ Context.partition m,
          (ContextSummary.ofContext m x).total = x.placements.length) ∧
        report.shownEmpty =
          ((Generator.ofCompilation c options).generate t target).2.skipped) := by
  obtain ⟨c, hrun, rfl, hcontexts, hnone⟩ := Compilation.run_of_accepted h
  have hcheck : check c.model ws source = .ok ⟨source, .ofDiagnostics c.diagnostics,
      (Context.partition c.model).map (ContextSummary.ofContext c.model)⟩ := by
    rw [check, hrun, ← hcontexts]
    rfl
  have hskipped : ((Generator.ofCompilation c options).generate t target).2.skipped =
      ((Context.partition c.model).filter Context.isEmpty).map Context.name := by
    rw [skipped_generate, ← hcontexts]
    rfl
  have hempty : ∀ x : Context, x.isEmpty →
      decide ((ContextSummary.ofContext c.model x).total = 0) := by
    intro x hx
    rw [total_ofContext, List.isEmpty_iff.1 hx]
    rfl
  have hagree : CheckReport.shownEmpty ⟨source, .ofDiagnostics c.diagnostics,
        (Context.partition c.model).map (ContextSummary.ofContext c.model)⟩ =
      ((Generator.ofCompilation c options).generate t target).2.skipped ↔
        ∀ x ∈ Context.partition c.model, x.placements ≠ [] →
          ∃ id ∈ x.placements, isCounted c.model id := by
    rw [hskipped, shownEmpty_eq, map_filter_eq_iff _ fun x _ => hempty x]
    refine forall₂_congr fun x _ => ?_
    rw [decide_eq_true_iff, total_ofContext, List.length_eq_zero_iff, List.filter_eq_nil_iff,
      Context.isEmpty, List.isEmpty_iff, ← not_imp_not]
    simp
  refine ⟨c, _, hrun, hcheck, ?_, hcontexts, rfl, fun x _ => total_eq_length_iff c.model x, hagree,
    fun hkeys => ⟨fun x hx => ?_, hagree.2 fun x hx hany => ?_⟩⟩
  · have herrors : c.diagnostics.filter Diagnostic.isError = [] :=
      List.filter_eq_nil_iff.2 (List.any_eq_false.1 hnone)
    simp only [CheckReport.isValid, Messages.ofDiagnostics]
    rw [List.isEmpty_iff, List.map_eq_nil_iff]
    exact herrors
  · exact (total_eq_length_iff c.model x).2 fun id hid => isCounted_of_mem h hkeys hx hid
  · obtain ⟨id, hid⟩ := List.exists_mem_of_ne_nil _ hany
    exact ⟨id, hid, isCounted_of_mem h hkeys hx hid⟩

/-- How the small models below are generated. -/
def fallbackOptions : ProjectOptions := ⟨.fallback, .useExisting, .tab⟩

/-- Two contexts with an event and a shared command each, and the empty default context. -/
theorem check_agrees_sharedCommand :
    Document.Accepted Context.sharedCommand [] ∧
      ∃ c report, Compilation.run Context.sharedCommand [] = .ok c ∧
        check Context.sharedCommand [] ⟨"shop.json"⟩ = .ok report ∧
        report.contexts.map ContextSummary.total = [2, 2, 0] ∧
        report.shownEmpty = ["DefaultStream"] ∧
        ((Generator.ofCompilation c fallbackOptions).generate ∅ ⟨"out"⟩).2.skipped =
          ["DefaultStream"] := by
  have haccepted : Document.Accepted Context.sharedCommand [] :=
    Document.accepted_of_wellFormed (by decide)
  obtain ⟨c, report, hrun, hcheck, -, -, hcontexts, -, -, hagree⟩ :=
    check_agrees_iff haccepted ⟨"shop.json"⟩ fallbackOptions ∅ ⟨"out"⟩
  have hshown : report.shownEmpty = ["DefaultStream"] := by
    rw [CheckReport.shownEmpty, hcontexts]
    decide
  refine ⟨haccepted, c, report, hrun, hcheck, ?_, hshown, ?_⟩
  · rw [hcontexts]
    decide
  · rw [← (hagree fun _ _ _ hmem => List.not_mem_nil hmem).2, hshown]

/-- A stream whose only event stands under another key (5) than the identifier it declares (4). -/
def rekeyedEvent : Model :=
  { Model.empty with
    streams := [⟨.uniform 1, "Orders"⟩]
    events := Dict.ofList [(.uniform 3, ⟨.uniform 3, "Placed", none, none⟩)]
    placements := Dict.ofList [(.uniform 5, Context.placedOn (.uniform 1) 0)] }

def rekeyedWarnings : List Diagnostic :=
  [Document.keyMismatch (.uniform 5) (.uniform 4) "placements.55555555-5555-5555-5555-555555555555"]

/-- The document is accepted and the event is in the context of its stream. A check counts nothing
there and shows the context as skipped; a run writes the class of the event and skips only the
default context. -/
theorem rekeyedEvent_shownEmpty :
    Document.Accepted rekeyedEvent rekeyedWarnings ∧
      (Context.partition rekeyedEvent).map Context.placements = [[.uniform 4], []] ∧
      (check rekeyedEvent rekeyedWarnings ⟨"shop.json"⟩).toOption.map
          (fun r => (r.contexts.map ContextSummary.total, r.shownEmpty)) =
        some ([0, 0], ["Orders", "DefaultStream"]) ∧
      (Compilation.run rekeyedEvent rekeyedWarnings).toOption.map
          (fun c => ((Generator.ofCompilation c fallbackOptions).generate ∅ ⟨"out"⟩).2) =
        some ⟨[⟨"main/orders/events/Placed.java"⟩], [], ["DefaultStream"], []⟩ := by
  have haccepted : Document.Accepted rekeyedEvent rekeyedWarnings :=
    Document.accepted_of_placements (by decide +kernel) (by decide +kernel)
  exact ⟨haccepted, by decide +kernel, by decide +kernel, by decide +kernel⟩

end EventForge.Report
