import EventForge.Number.Binary64
import EventForge.Text.Numeral

/-!
# The shortest decimal text of a number

A number is written with the fewest digits that read back as it, and of those with the digits
nearest to it; of two equally near the even ones are taken. Numbers from `1e-5` up to, but not
including, `1e16` are written positionally with at least one digit after the point, all others
with an exponent.
-/

namespace EventForge

namespace Magnitude

/-- The decimal `digits * 10 ^ tens`. -/
structure Decimal where
  digits : Nat
  tens : Int

/-- `10 ^ e` as a fraction. -/
def tenPower (e : Int) : Nat × Nat :=
  if 0 ≤ e then (Nat.pow 10 e.toNat, 1) else (1, Nat.pow 10 (-e).toNat)

/-- Whether the power of two below is nearer than the number above. -/
def isBoundary (x : Magnitude) : Bool :=
  x.mantissa = Nat.pow 2 52 ∧ minExponent < x.exponent

/-- The point of the grid of multiples of `10 ^ tens` that is nearest to `x`, when it reads back as
`x`. All sides are compared in quarters of a unit of the mantissa. -/
def onGrid? (x : Magnitude) (tens : Int) : Option Decimal :=
  let quarter : Nat × Nat := ratio ⟨1, x.exponent - 2⟩
  let ten := tenPower tens
  let a := quarter.1 * ten.2
  let b := ten.1 * quarter.2
  let center := 4 * x.mantissa * a
  let low := (4 * x.mantissa - if x.isBoundary then 1 else 2) * a
  let high := (4 * x.mantissa + 2) * a
  let inside (d : Nat) : Bool :=
    if x.mantissa % 2 = 0 then low ≤ d * b ∧ d * b ≤ high else low < d * b ∧ d * b < high
  let below := center / b
  let above := below + 1
  let down := center - below * b
  let up := above * b - center
  let prefersBelow := down < up ∨ (down = up ∧ below % 2 = 0)
  if 0 < below ∧ inside below ∧ (prefersBelow ∨ ¬inside above) then some ⟨below, tens⟩
  else if inside above then some ⟨above, tens⟩
  else none

/-- The first hit on the grids `10 ^ tens`, `10 ^ (tens - 1)`, …, at most `count` of them. -/
def firstOnGrid (x : Magnitude) (tens : Int) : Nat → Decimal
  | 0 => ⟨0, 0⟩
  | count + 1 =>
    match x.onGrid? tens with
    | some d => d
    | none => x.firstOnGrid (tens - 1) count

/-- The coarsest grid on which a number can lie, and how many there are down to the finest. -/
def coarsestTens : Int := 308

def gridCount : Nat := 308 + 1075

def shortest (x : Magnitude) : Decimal :=
  x.firstOnGrid coarsestTens gridCount

end Magnitude

namespace Binary64

/-- Exponents of the leading digit that are written positionally. -/
def positionalFrom : Int := -5

def positionalBelow : Int := 16

def zeros (n : Nat) : String := String.ofList (List.replicate n '0')

/-- The text of a positive decimal. -/
def decimalText (d : Magnitude.Decimal) : String :=
  let ds := (Text.decimal d.digits).toList
  let lead : Int := (ds.length : Int) - 1 + d.tens
  if positionalFrom ≤ lead ∧ lead < positionalBelow then
    if 0 ≤ d.tens then String.ofList ds ++ zeros d.tens.toNat ++ ".0"
    else if 0 ≤ lead then
      String.ofList (ds.take (lead.toNat + 1)) ++ "." ++ String.ofList (ds.drop (lead.toNat + 1))
    else "0." ++ zeros ((-lead).toNat - 1) ++ String.ofList ds
  else
    let fraction := if ds.length = 1 then "" else "." ++ String.ofList (ds.drop 1)
    let sign := if lead < 0 then "-" else "+"
    String.ofList (ds.take 1) ++ fraction ++ "e" ++ sign ++ Text.decimal lead.natAbs

def toText (x : Binary64) : String :=
  let digits :=
    if x.magnitude.mantissa = 0 then "0.0" else decimalText x.magnitude.shortest
  if x.negative then "-" ++ digits else digits

end Binary64

end EventForge
