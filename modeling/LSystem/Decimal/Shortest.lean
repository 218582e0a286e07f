/-
# The shortest decimal of a double

Of the decimals that read back as a double, the shortest have the fewest digits: they lie
on the coarsest decimal grid on which one of the two neighbours of the double reads back.
If both do, the nearer one is taken, and of two equally near ones the one that a rule for
halves prefers. On the finest grid tried, that of `10 ^ -1074`, every double lies itself.

Key definitions: `Half`, `Decimal.exact`, `Decimal.shortest`.
-/
import LSystem.Decimal

namespace LSystem

/-- Which neighbour a half goes to. -/
inductive Half where
  | toEven
  | up
  deriving DecidableEq

namespace Decimal

/-- The decimal reads back as the magnitude. -/
def readsAs (d : Decimal) (m : Nat) : Bool := d.magnitude? == some m

/-- How many times `10 ^ -1074` a magnitude stands for. -/
def exact (m : Nat) : Nat := Nat.pow 5 1074 * Binary64.units m

/-- The neighbour of `n` on the grid of `10 ^ k` that is nearer, as a count of grid steps. -/
def nearerStep (half : Half) (n k : Nat) : Nat :=
  let q := n / tenTo k
  let r := n % tenTo k
  if 2 * r < tenTo k then q
  else if tenTo k < 2 * r then q + 1
  else match half with
    | .toEven => q + q % 2
    | .up => q + 1

/-- The grid point of `10 ^ (k - 1074)` with a number of steps. -/
def gridPoint (steps k : Nat) : Decimal := ⟨steps, (k : Int) - 1074⟩

/-- The shortest decimal that reads as `m`, which stands for `n` times `10 ^ -1074`, on grids
from that of `10 ^ (k - 1074)` on. -/
def shortestFrom (half : Half) (m n : Nat) : (k : Nat) → Decimal
  | 0 => gridPoint n 0
  | k + 1 =>
    let below := gridPoint (n / tenTo (k + 1)) (k + 1)
    let above := gridPoint (n / tenTo (k + 1) + 1) (k + 1)
    match below.readsAs m, above.readsAs m with
    | true, true => gridPoint (nearerStep half n (k + 1)) (k + 1)
    | true, false => below
    | false, true => above
    | false, false => shortestFrom half m n k

/-- The shortest decimal that reads back as a magnitude. The search starts on a grid too
coarse for it: a number of `b` bits is less than `10 ^ (b / 3 + 1)`. -/
def shortest (half : Half) (m : Nat) : Decimal :=
  if m = 0 then ⟨0, 0⟩
  else shortestFrom half m (exact m) ((exact m).log2 / 3 + 1)

end Decimal
end LSystem
