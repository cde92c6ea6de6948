/-!
# Binary fractions of double precision

A finite number of the 64-bit binary format is a sign and `mantissa * 2 ^ exponent` with a mantissa
below `2 ^ 53` and an exponent from `-1074` to `971`. Results are rounded to the nearest such
number, halfway cases to the even mantissa. A decimal literal is read in two steps: its digits and
its power of ten are each rounded, then their product or quotient is.
-/

namespace EventForge

/-- The magnitude of a finite number: `mantissa * 2 ^ exponent`. -/
structure Magnitude where
  mantissa : Nat
  exponent : Int
  deriving DecidableEq, Repr

namespace Magnitude

def minExponent : Int := -1074

def maxExponent : Int := 971

def zero : Magnitude := ⟨0, minExponent⟩

/-- The nearest integer to `num / den`; a half goes to the even neighbour. -/
def nearest (num den : Nat) : Nat :=
  let q := num / den
  let r := num % den
  if 2 * r < den then q
  else if den < 2 * r then q + 1
  else q + q % 2

/-- `num / (den * 2 ^ e)` as a fraction of natural numbers. -/
def scaled (num den : Nat) (e : Int) : Nat × Nat :=
  if 0 ≤ e then (num, den * Nat.pow 2 e.toNat) else (num * Nat.pow 2 (-e).toNat, den)

/-- The exponent at which `num / den` has a mantissa of 53 bits, or the least one. -/
def exponentOf (num den : Nat) : Int :=
  let guess : Int := (num.log2 : Int) - den.log2 - 53
  let (n, d) := scaled num den guess
  max minExponent (if n / d < Nat.pow 2 53 then guess else guess + 1)

/-- The magnitude nearest to `num / den`, unless it is beyond the largest one. -/
def ofRatio? (num den : Nat) : Option Magnitude :=
  if num = 0 then some zero
  else
    let e := exponentOf num den
    let (n, d) := scaled num den e
    let m := nearest n d
    let rounded : Magnitude := if m < Nat.pow 2 53 then ⟨m, e⟩ else ⟨Nat.pow 2 52, e + 1⟩
    if rounded.exponent ≤ maxExponent then some rounded else none

/-- The exact value as a fraction. -/
def ratio (x : Magnitude) : Nat × Nat :=
  if 0 ≤ x.exponent then (x.mantissa * Nat.pow 2 x.exponent.toNat, 1)
  else (x.mantissa, Nat.pow 2 (-x.exponent).toNat)

def mul? (x y : Magnitude) : Option Magnitude :=
  ofRatio? (x.ratio.1 * y.ratio.1) (x.ratio.2 * y.ratio.2)

def div? (x y : Magnitude) : Option Magnitude :=
  ofRatio? (x.ratio.1 * y.ratio.2) (x.ratio.2 * y.ratio.1)

/-- The greatest power of ten that is a magnitude. -/
def maxTens : Nat := 308

/-- Divides by powers of ten until `tens` of them are gone or nothing is left. -/
def divTens? (x : Magnitude) (tens : Nat) : Option Magnitude :=
  if tens ≤ maxTens then (ofRatio? (Nat.pow 10 tens) 1).bind x.div?
  else if x.mantissa = 0 then some x
  else
    ((ofRatio? (Nat.pow 10 maxTens) 1).bind x.div?).bind fun y => y.divTens? (tens - maxTens)
termination_by tens
decreasing_by
  simp only [maxTens] at *
  omega

/-- The magnitude of `digits * 10 ^ exponent`; none when it is too large. -/
def ofDecimal? (digits : Nat) (exponent : Int) : Option Magnitude :=
  (ofRatio? digits 1).bind fun x =>
    if exponent < 0 then x.divTens? (-exponent).toNat
    else if exponent.toNat ≤ maxTens then (ofRatio? (Nat.pow 10 exponent.toNat) 1).bind x.mul?
    else if x.mantissa = 0 then some x
    else none

end Magnitude

/-- A finite number of the 64-bit binary format; there are two zeros. -/
structure Binary64 where
  negative : Bool
  magnitude : Magnitude
  deriving DecidableEq, Repr

end EventForge
