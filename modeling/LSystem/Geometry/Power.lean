/-
# Integer powers of a double

A power is computed by squaring: the bits of the exponent are taken lowest first, and
each set bit multiplies the square of its place into the result. Every product rounds,
so the order of the products is part of the definition.

Key definitions: `power`, `powerLoop`.
-/
namespace LSystem

/-- `acc * x^n`, where `x` is squared once for every bit of `n`. -/
def powerLoop (acc x : Float) (n : Nat) : Float :=
  if n = 0 then acc
  else powerLoop (if n % 2 = 1 then acc * x else acc) (x * x) (n / 2)
termination_by n

/-- `x^n`; a negative exponent gives the reciprocal of the positive power. -/
def power (x : Float) : Int → Float
  | .ofNat n => powerLoop 1 x n
  | .negSucc n => 1 / powerLoop 1 x (n + 1)

end LSystem
