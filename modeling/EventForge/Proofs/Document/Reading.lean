import EventForge.Document.Reading
import EventForge.Proofs.Dict
import Mathlib.Data.List.Forall2

/-!
# What a reading went through

A reading that gives a value read each of its steps: plain steps without warnings, and a fold entry
by entry (`foldlM_induction`). So a fact about what is read from a section is proved for one entry,
and a property of all warnings (`Raises`) for one step.
-/

namespace EventForge.Document

/-- Two lists of images agree when they agree item by item. -/
theorem map_eq_map_of_forall₂ {α β γ : Type} {f : α → γ} {g : β → γ} {xs : List α} {ys : List β}
    (h : List.Forall₂ (fun x y => f x = g y) xs ys) : xs.map f = ys.map g := by
  rwa [← List.forall₂_eq_eq_eq, List.forall₂_map_left_iff, List.forall₂_map_right_iff]

namespace Reading

variable {α β : Type}

@[simp]
theorem pure_eq_read_iff {a b : α} {ws : List Diagnostic} :
    (pure a : Reading α) = read b ws ↔ a = b ∧ ws = [] := by
  rw [pure_eq, read.injEq, eq_comm (a := ([] : List Diagnostic))]

@[simp]
theorem warn_eq_read_iff {message location : String} {u : Unit} {ws : List Diagnostic} :
    warn message location = read u ws ↔ ws = [warning message location] := by
  rw [warn, read.injEq]
  simp [eq_comm]

@[simp]
theorem lift_ok (a : α) : (liftM (Except.ok a : Except Fault α) : Reading α) = read a [] := rfl

@[simp]
theorem read_nil_bind (a : α) (f : α → Reading β) : (read a [] >>= f) = f a := by
  rw [read_bind, after_nil]

theorem lift_eq_read_iff {x : Except Fault α} {a : α} {ws : List Diagnostic} :
    (liftM x : Reading α) = read a ws ↔ x = .ok a ∧ ws = [] := by
  cases x with
  | error e => exact ⟨fun h => (nomatch h), fun ⟨h, _⟩ => (nomatch h)⟩
  | ok b =>
    rw [lift_ok, read.injEq, Except.ok.injEq]
    exact and_congr_right fun _ => eq_comm

/-- A plain step raises no warning: all warnings are those of what follows it. -/
theorem lift_bind_eq_read_iff {x : Except Fault α} {f : α → Reading β} {b : β}
    {ws : List Diagnostic} :
    (liftM x : Reading α) >>= f = read b ws ↔ ∃ a, x = .ok a ∧ f a = read b ws := by
  cases x with
  | error e => exact ⟨fun h => (nomatch h), fun ⟨_, h, _⟩ => (nomatch h)⟩
  | ok a =>
    show (f a).after [] = read b ws ↔ _
    rw [after_nil]
    exact ⟨fun h => ⟨a, rfl, h⟩, fun ⟨_, ha, h⟩ => Except.ok.inj ha ▸ h⟩

theorem warn_bind_eq_read_iff {message location : String} {f : Unit → Reading β} {b : β}
    {ws : List Diagnostic} :
    warn message location >>= f = read b ws ↔
      ∃ vs, f () = read b vs ∧ ws = warning message location :: vs := by
  rw [warn, read_bind, after_eq_read_iff]
  rfl

/-- A value was read when some feature of what was read is known. -/
theorem exists_read_of_map {γ : Type} {x : Reading α} {feature : α × List Diagnostic → γ} {c : γ}
    (h : x.toExcept.toOption.map feature = some c) :
    ∃ a ws, x = read a ws ∧ feature (a, ws) = c := by
  cases x with
  | refused e => cases h
  | read a ws => exact ⟨a, ws, rfl, Option.some.inj h⟩

/-- A reading without warnings had none in either of its two steps. -/
theorem bind_eq_read_nil_iff {x : Reading α} {f : α → Reading β} {b : β} :
    x >>= f = read b [] ↔ ∃ a, x = read a [] ∧ f a = read b [] := by
  rw [bind_eq_read_iff]
  constructor
  · rintro ⟨a, ds, es, hx, hf, hnil⟩
    obtain ⟨rfl, rfl⟩ := List.nil_eq_append_iff.1 hnil
    exact ⟨a, hx, hf⟩
  · rintro ⟨a, hx, hf⟩
    exact ⟨a, [], [], hx, hf, rfl⟩

/-- Steps of a list, each with what it read; all their warnings are raised. -/
theorem mapM_eq_read {f : α → Reading β} {xs : List α} {ys : List β}
    {ws : List Diagnostic} (h : xs.mapM f = read ys ws) :
    List.Forall₂ (fun x y => ∃ new, f x = read y new ∧ new ⊆ ws) xs ys := by
  induction xs generalizing ys ws with
  | nil =>
    obtain ⟨rfl, -⟩ := pure_eq_read_iff.1 h
    exact .nil
  | cons x xs ih =>
    rw [List.mapM_cons] at h
    obtain ⟨y, new, _, hx, hrest, rfl⟩ := bind_eq_read_iff.1 h
    obtain ⟨ys, later, _, hxs, hpure, rfl⟩ := bind_eq_read_iff.1 hrest
    obtain ⟨rfl, rfl⟩ := pure_eq_read_iff.1 hpure
    refine .cons ⟨new, hx, by simp⟩ ((ih hxs).imp fun x y hread => ?_)
    obtain ⟨new', hread, hsub⟩ := hread
    exact ⟨new', hread, fun d hd => by simp [hsub hd]⟩

/-- Plain steps of a list raise no warning. -/
theorem mapM_lift_eq_read {f : α → Except Fault β} {xs : List α} {ys : List β}
    {ws : List Diagnostic} (h : xs.mapM (fun x => (liftM (f x) : Reading β)) = read ys ws) :
    List.Forall₂ (fun x y => f x = .ok y) xs ys ∧ ws = [] := by
  induction xs generalizing ys ws with
  | nil =>
    obtain ⟨rfl, rfl⟩ := pure_eq_read_iff.1 h
    exact ⟨.nil, rfl⟩
  | cons x xs ih =>
    rw [List.mapM_cons] at h
    obtain ⟨y, hx, h⟩ := lift_bind_eq_read_iff.1 h
    obtain ⟨ys, _, _, hxs, hpure, rfl⟩ := bind_eq_read_iff.1 h
    obtain ⟨rfl, rfl⟩ := pure_eq_read_iff.1 hpure
    obtain ⟨hys, rfl⟩ := ih hxs
    exact ⟨.cons hx hys, rfl⟩

/-- A section that was read, with what each of its entries put into the result and warned of. -/
theorem foldlM_eq_read {γ : Type} {step : β → α → Reading β} {put : β → γ → β}
    {R : α → γ → List Diagnostic → Prop} {xs : List α} {start result : β} {ws : List Diagnostic}
    (h : xs.foldlM step start = read result ws)
    (hstep : ∀ acc x next new, step acc x = read next new → ∃ y, R x y new ∧ next = put acc y) :
    ∃ ys : List (γ × List Diagnostic), List.Forall₂ (fun x y => R x y.1 y.2) xs ys ∧
      result = (ys.map Prod.fst).foldl put start ∧ ws = ys.flatMap Prod.snd := by
  induction xs generalizing start ws with
  | nil =>
    obtain ⟨rfl, rfl⟩ := pure_eq_read_iff.1 h
    exact ⟨[], .nil, rfl, rfl⟩
  | cons x xs ih =>
    rw [List.foldlM_cons] at h
    obtain ⟨next, new, later, hx, hrest, rfl⟩ := bind_eq_read_iff.1 h
    obtain ⟨y, hy, rfl⟩ := hstep start x next new hx
    obtain ⟨ys, hys, hresult, rfl⟩ := ih hrest
    exact ⟨(y, new) :: ys, .cons hy hys, hresult, rfl⟩

/-- A section that was read without warnings, with what each of its entries put into the result. -/
theorem foldlM_eq_read_nil {γ : Type} {step : β → α → Reading β} {put : β → γ → β}
    {R : α → γ → Prop} {xs : List α} {start result : β}
    (h : xs.foldlM step start = read result [])
    (hstep : ∀ acc x next, step acc x = read next [] → ∃ y, R x y ∧ next = put acc y) :
    ∃ ys, List.Forall₂ R xs ys ∧ result = ys.foldl put start := by
  induction xs generalizing start with
  | nil =>
    obtain ⟨rfl, -⟩ := pure_eq_read_iff.1 h
    exact ⟨[], .nil, rfl⟩
  | cons x xs ih =>
    rw [List.foldlM_cons] at h
    obtain ⟨next, hx, hrest⟩ := bind_eq_read_nil_iff.1 h
    obtain ⟨y, hy, rfl⟩ := hstep start x next hx
    obtain ⟨ys, hys, hresult⟩ := ih hrest
    exact ⟨y :: ys, .cons hy hys, hresult⟩

/-- What holds before the first entry and is kept by reading an entry, of the value and of the
warnings so far, holds of a section that was read entry by entry. -/
theorem foldlM_induction {step : β → α → Reading β} {motive : β → List Diagnostic → Prop}
    {entries : List α} {start result : β} {ws : List Diagnostic}
    (h : entries.foldlM step start = read result ws) (first : motive start [])
    (next : ∀ entry ∈ entries, ∀ before seen after new, motive before seen →
      step before entry = read after new → motive after (seen ++ new)) :
    motive result ws := by
  suffices hgen : ∀ (entries : List α) (start : β) (seen ws : List Diagnostic),
      entries.foldlM step start = read result ws → motive start seen →
      (∀ entry ∈ entries, ∀ before seen after new, motive before seen →
        step before entry = read after new → motive after (seen ++ new)) →
      motive result (seen ++ ws) by
    simpa using hgen entries start [] ws h first next
  intro entries
  induction entries with
  | nil =>
    intro start seen ws h hstart _
    rw [List.foldlM_nil, pure_eq_read_iff] at h
    obtain ⟨rfl, rfl⟩ := h
    simpa using hstart
  | cons entry entries ih =>
    intro start seen ws h hstart hnext
    rw [List.foldlM_cons, bind_eq_read_iff] at h
    obtain ⟨after, new, later, hstep, hrest, rfl⟩ := h
    rw [← List.append_assoc]
    have hafter := hnext entry (by simp) start seen after new hstart hstep
    exact ih after (seen ++ new) later hrest hafter fun e he => hnext e (by simp [he])

/-- Steps that each insert an entry of a dictionary, in its order, read the whole dictionary. -/
theorem foldlM_insert {κ ν : Type} [DecidableEq κ] {step : Dict κ ν → α → Reading (Dict κ ν)}
    {print : κ × ν → α} (d : Dict κ ν)
    (h : ∀ e ∈ d.entries, ∀ acc, step acc (print e) = read (acc.insert e.1 e.2) []) :
    (d.entries.map print).foldlM step ∅ = read d [] := by
  suffices hgen : ∀ (rest : List (κ × ν)) (acc : Dict κ ν), acc.entries ++ rest = d.entries →
      (rest.map print).foldlM step acc = read d [] from hgen d.entries ∅ (by simp)
  intro rest
  induction rest with
  | nil =>
    intro acc hacc
    rw [List.append_nil] at hacc
    rw [Dict.ext hacc]
    rfl
  | cons e rest ih =>
    intro acc hacc
    have hfresh : e.1 ∉ acc.entries.map Prod.fst := by
      have hkeys := d.keys_nodup
      rw [← hacc, List.map_append, List.map_cons, List.nodup_append] at hkeys
      exact fun hmem => hkeys.2.2 e.1 hmem e.1 (by simp) rfl
    rw [List.map_cons, List.foldlM_cons, h e (by simp [← hacc]), read_nil_bind]
    refine ih (acc.insert e.1 e.2) ?_
    rw [Dict.entries_insert, upsert_of_not_mem hfresh, List.append_assoc, List.singleton_append,
      hacc]

/-- Every warning of the reading has the property. -/
def Raises (P : Diagnostic → Prop) (x : Reading α) : Prop :=
  ∀ a ws, x = read a ws → ∀ d ∈ ws, P d

namespace Raises

variable {P : Diagnostic → Prop} {x : Reading α} {f : α → Reading β}

theorem pure (a : α) : Raises P (Pure.pure a : Reading α) := by
  intro b ws h d hd
  rw [(pure_eq_read_iff.1 h).2] at hd
  cases hd

theorem refused (e : Fault) : Raises P (Reading.refused e : Reading α) := nofun

theorem bind (hx : Raises P x) (hf : ∀ a, Raises P (f a)) : Raises P (x >>= f) := by
  intro b ws h d hd
  obtain ⟨a, vs, us, hread, hrest, rfl⟩ := bind_eq_read_iff.1 h
  rcases List.mem_append.1 hd with hd | hd
  · exact hx a vs hread d hd
  · exact hf a b us hrest d hd

theorem lift (x : Except Fault α) : Raises P (liftM x : Reading α) := by
  intro a ws h d hd
  rw [(lift_eq_read_iff.1 h).2] at hd
  cases hd

/-- A plain step before a reading. -/
theorem lift_bind (x : Except Fault α) (hf : ∀ a, Raises P (f a)) :
    Raises P ((liftM x : Reading α) >>= f) :=
  (lift x).bind hf

theorem warn {message location : String} (h : P (warning message location)) :
    Raises P (Reading.warn message location) := by
  intro _ ws hread d hd
  rw [warn_eq_read_iff.1 hread, List.mem_singleton] at hd
  exact hd ▸ h

theorem foldlM {step : β → α → Reading β} {xs : List α}
    (h : ∀ acc, ∀ a ∈ xs, Raises P (step acc a)) (start : β) :
    Raises P (xs.foldlM step start) := by
  induction xs generalizing start with
  | nil => exact pure start
  | cons a xs ih =>
    rw [List.foldlM_cons]
    exact (h start a (by simp)).bind fun acc => ih (fun acc b hb => h acc b (by simp [hb])) acc

theorem mapM {xs : List α} {g : α → Reading β} (h : ∀ a ∈ xs, Raises P (g a)) :
    Raises P (xs.mapM g) := by
  induction xs with
  | nil => exact pure []
  | cons a xs ih =>
    rw [List.mapM_cons]
    exact (h a (by simp)).bind fun b => (ih fun c hc => h c (by simp [hc])).bind fun bs => pure _

end Raises

end Reading

end EventForge.Document
