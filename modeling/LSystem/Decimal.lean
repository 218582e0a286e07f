/-
# Decimal numbers and the doubles nearest to them

A decimal number is a natural number times a power of ten. Reading one gives the
magnitude of the nearest double, or nothing when that double is not finite. Exponents
that are far out of range are decided by their size alone, so that no huge power is
formed for them.

Key definitions: `Decimal`, `Decimal.nearest`, `Decimal.magnitude?`, `Decimal.toFloat?`.
-/
import LSystem.Decimal.Binary64

namespace LSystem

/-- The number `significand * 10 ^ exponent`. -/
structure Decimal where
  significand : Nat
  exponent : Int
  deriving DecidableEq

namespace Decimal

/-- A power of ten. -/
def tenTo (k : Nat) : Nat := Nat.pow 10 k

/-- The magnitude nearest to a decimal, `Binary64.infinity` or more when it is too large. -/
def nearest (d : Decimal) : Nat :=
  match d.exponent with
  | .ofNat e => Binary64.nearest (d.significand * tenTo e) 1
  | .negSucc e => Binary64.nearest d.significand (tenTo (e + 1))

/-- A decimal that is not zero and surely too large for a double: `10 ^ e` is at least `8 ^ e`. -/
def isHuge (d : Decimal) : Bool := decide (1024 ≤ 3 * d.exponent)

/-- A decimal that surely rounds to zero, by the binary length of its significand. -/
def isTiny (d : Decimal) : Bool := decide (3 * d.exponent + d.significand.log2 + 1080 < 0)

/-- The magnitude of the double nearest to a decimal, if that double is finite. -/
def magnitude? (d : Decimal) : Option Nat :=
  if d.significand = 0 || d.isTiny then some 0
  else if d.isHuge then none
  else if d.nearest < Binary64.infinity then some d.nearest
  else none

/-- The double nearest to a decimal with a sign, if it is finite. -/
def toFloat? (negative : Bool) (d : Decimal) : Option Float :=
  d.magnitude?.map (Binary64.ofMagnitude negative)

end Decimal
end LSystem
