/-
# Doubles as counts of the smallest one

Every finite double is a natural number of units of `2^-1074`, but for its sign. A
magnitude is the word of a double without its sign bit; magnitudes are ordered as their
counts are, and neighbours differ by one. Rounding a quotient to the nearest double is
then a division and a comparison of natural numbers, and a half goes to the even word.

Key definitions: `Binary64.units`, `Binary64.floor`, `Binary64.nearest`,
`Binary64.magnitude`, `Binary64.ofMagnitude`.
-/
namespace LSystem.Binary64

/-- How many magnitudes share an exponent: `2^52`. -/
def binade : Nat := 0x10000000000000

/-- The magnitude of infinity, the first one that is not finite. -/
def infinity : Nat := 2047 * binade

/-- The word of a negative zero: `2^63`. -/
def signWord : Nat := UInt64.size / 2

/-- How many units of `2^-1074` a magnitude stands for. -/
def units (m : Nat) : Nat :=
  if m < binade then m else (m % binade + binade) <<< (m / binade - 1)

/-- The greatest magnitude of at most `n` units. -/
def floor (n : Nat) : Nat :=
  let shift := n.log2 - 52
  (n >>> shift) + shift * binade

/-- The one of two neighbours `m` and `m + 1` that `n / den` units are nearer to. -/
def nearer (m n den : Nat) : Nat :=
  if 2 * n < (units m + units (m + 1)) * den then m
  else if (units m + units (m + 1)) * den < 2 * n then m + 1
  else m + m % 2

/-- The magnitude nearest to the quotient of two natural numbers. -/
def nearest (num den : Nat) : Nat :=
  nearer (floor ((num <<< 1074) / den)) (num <<< 1074) den

/-- The word of a double without its sign. -/
def magnitude (x : Float) : Nat := x.toBits.toNat % signWord

/-- The sign of a double; zero and NaN have one too. -/
def isNegative (x : Float) : Bool := decide (signWord ≤ x.toBits.toNat)

/-- The double with a sign and a magnitude. -/
def ofMagnitude (negative : Bool) (m : Nat) : Float :=
  .ofBits (UInt64.ofNat (if negative then m + signWord else m))

theorem units_of_lt {m : Nat} (h : m < binade) : units m = m := if_pos h

theorem units_of_le {m : Nat} (h : binade ≤ m) :
    units m = (m % binade + binade) <<< (m / binade - 1) := if_neg (Nat.not_lt.mpr h)

end LSystem.Binary64
