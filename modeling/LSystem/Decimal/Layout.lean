/-
# How a double is written

A double is written with the digits of its shortest decimal, by a layout that says which
exponents are written positionally, whether a positive exponent carries a sign, and where
a half goes. A positional number always has a point with a digit on either side.

Key definitions: `Decimal.Layout`, `Decimal.Layout.write`.
-/
import LSystem.Decimal.Digits
import LSystem.Decimal.Shortest

namespace LSystem.Decimal

/-- The choices of a way to write doubles. -/
structure Layout where
  /-- The least exponent of a first digit that is written positionally. -/
  leastPositional : Int
  /-- The greatest exponent of a first digit that is written positionally. -/
  greatestPositional : Int
  /-- Whether a positive exponent carries a sign. -/
  plusSign : Bool
  /-- Which of two equally near decimals is written. -/
  half : Half

namespace Layout

/-- Digits with a point, where `exponent` is that of the last digit. -/
def positional (ds : List Char) (exponent : Int) : List Char :=
  match exponent with
  | .ofNat e => ds ++ List.replicate e '0' ++ ['.', '0']
  | .negSucc e =>
    if e + 1 < ds.length then
      ds.take (ds.length - (e + 1)) ++ '.' :: ds.drop (ds.length - (e + 1))
    else
      '0' :: '.' :: (List.replicate (e + 1 - ds.length) '0' ++ ds)

/-- One digit, the others after a point, and the exponent of the first. -/
def scientific (l : Layout) (ds : List Char) (exponent : Int) : List Char :=
  let mantissa := match ds with
    | d :: e :: rest => d :: '.' :: e :: rest
    | ds => ds
  let sign := if exponent < 0 then ['-'] else if l.plusSign then ['+'] else []
  mantissa ++ 'e' :: sign ++ digits exponent.natAbs

/-- A decimal, positional or scientific as its first digit's exponent says. -/
def writeDecimal (l : Layout) (d : Decimal) : List Char :=
  let ds := digits d.significand
  let first := d.exponent + ds.length - 1
  if l.leastPositional ≤ first ∧ first ≤ l.greatestPositional then positional ds d.exponent
  else l.scientific ds first

/-- A magnitude: infinity and NaN by name, everything else by its shortest decimal. -/
def writeMagnitude (l : Layout) (m : Nat) : List Char :=
  if m = Binary64.infinity then ['i', 'n', 'f']
  else l.writeDecimal (shortest l.half m)

/-- A double; NaN is written without a sign, zero with one. -/
def write (l : Layout) (x : Float) : List Char :=
  let m := Binary64.magnitude x
  if Binary64.infinity < m then ['N', 'a', 'N']
  else if Binary64.isNegative x then '-' :: l.writeMagnitude m
  else l.writeMagnitude m

end Layout
end LSystem.Decimal
