import EventForge.Diagnostic
import EventForge.Document.Fault

/-!
# Reading with warnings

A reader either refuses the document with a fault or gives a value together with the warnings
raised on the way, in order. Warnings of a refused document are lost.
-/

namespace EventForge.Document

inductive Reading (α : Type) where
  | refused (fault : Fault)
  | read (value : α) (warnings : List Diagnostic)
  deriving DecidableEq, Repr

namespace Reading

variable {α β γ : Type}

/-- Puts warnings in front of those of a reading. -/
def after (ds : List Diagnostic) : Reading α → Reading α
  | refused e => refused e
  | read a es => read a (ds ++ es)

protected def bind (x : Reading α) (f : α → Reading β) : Reading β :=
  match x with
  | refused e => refused e
  | read a ds => (f a).after ds

instance : Monad Reading where
  pure a := read a []
  bind := Reading.bind

/-- A step that raises no warning. -/
def ofExcept : Except Fault α → Reading α
  | .error e => refused e
  | .ok a => read a []

instance : MonadLift (Except Fault) Reading := ⟨ofExcept⟩

def toExcept : Reading α → Except Fault (α × List Diagnostic)
  | refused e => .error e
  | read a ds => .ok (a, ds)

/-- A warning about a place of the document. -/
def warning (message location : String) : Diagnostic :=
  ⟨.warning, "parse", message, some location⟩

def warn (message location : String) : Reading Unit :=
  read () [warning message location]

theorem pure_eq (a : α) : (pure a : Reading α) = read a [] := rfl

theorem refused_bind (e : Fault) (f : α → Reading β) : (refused e >>= f) = refused e := rfl

theorem read_bind (a : α) (ds : List Diagnostic) (f : α → Reading β) :
    (read a ds >>= f) = (f a).after ds := rfl

theorem after_nil (x : Reading α) : x.after [] = x := by
  cases x <;> rfl

theorem after_after (ds es : List Diagnostic) (x : Reading α) :
    (x.after es).after ds = x.after (ds ++ es) := by
  cases x with
  | refused e => rfl
  | read a fs => simp only [after, List.append_assoc]

theorem after_bind (ds : List Diagnostic) (x : Reading α) (f : α → Reading β) :
    (x.after ds >>= f) = (x >>= f).after ds := by
  cases x with
  | refused e => rfl
  | read a es => exact (after_after ds es (f a)).symm

theorem after_eq_read_iff {ds fs : List Diagnostic} {x : Reading α} {a : α} :
    x.after ds = read a fs ↔ ∃ es, x = read a es ∧ fs = ds ++ es := by
  cases x with
  | refused e => simp [after]
  | read b es =>
    constructor
    · intro h
      cases h
      exact ⟨es, rfl, rfl⟩
    · rintro ⟨es', h, rfl⟩
      cases h
      rfl

theorem bind_eq_read_iff {x : Reading α} {f : α → Reading β} {b : β} {ds : List Diagnostic} :
    x >>= f = read b ds ↔
      ∃ a ds₁ ds₂, x = read a ds₁ ∧ f a = read b ds₂ ∧ ds = ds₁ ++ ds₂ := by
  cases x with
  | refused e => simp [refused_bind]
  | read a ds₁ =>
    rw [read_bind, after_eq_read_iff]
    constructor
    · rintro ⟨es, h, rfl⟩
      exact ⟨a, ds₁, es, rfl, h, rfl⟩
    · rintro ⟨a', es₁, es₂, h₁, h₂, rfl⟩
      cases h₁
      exact ⟨es₂, h₂, rfl⟩

instance : LawfulMonad Reading := LawfulMonad.mk' Reading
  (fun x => by
    cases x with
    | refused e => rfl
    | read a ds => exact congrArg (read a) (List.append_nil ds))
  (fun a f => after_nil (f a))
  (fun x f g => by
    cases x with
    | refused e => rfl
    | read a ds => rw [read_bind, after_bind, read_bind])

end Reading

end EventForge.Document
