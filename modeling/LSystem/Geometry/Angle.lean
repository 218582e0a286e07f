/-
# Plane angles

An angle is a number of radians and is never brought back into one turn. Degrees
are converted by one multiplication with a constant quotient, which is rounded to a
double first.

Key definitions: `Angle`, `Angle.ofDegrees`, `Angle.degrees`, `Angle.compare?`.
-/
namespace LSystem

/-- A plane angle in radians. As a heading, `0` points up and growing angles turn towards
the right. -/
structure Angle where
  radians : Float
  deriving DecidableEq, Inhabited

namespace Angle

/-- Half a turn in radians. -/
def pi : Float := 3.141592653589793

/-- The angle that does not turn. -/
def zero : Angle := ⟨0⟩

/-- The angle of a number of degrees. -/
def ofDegrees (degrees : Float) : Angle := ⟨degrees * (pi / 180)⟩

/-- The angle in degrees. -/
def degrees (a : Angle) : Float := a.radians * (180 / pi)

instance : Add Angle := ⟨fun a b => ⟨a.radians + b.radians⟩⟩

instance : Neg Angle := ⟨fun a => ⟨-a.radians⟩⟩

instance : HMul Angle Float Angle := ⟨fun a k => ⟨a.radians * k⟩⟩

/-- Equality of the numbers of radians as numbers: both zeros are equal, NaN equals nothing. -/
def equals (a b : Angle) : Bool := a.radians == b.radians

/-- The order of the numbers of radians; there is none when one of them is NaN. -/
def compare? (a b : Angle) : Option Ordering :=
  if a.radians < b.radians then some .lt
  else if a.radians == b.radians then some .eq
  else if b.radians < a.radians then some .gt
  else none

end Angle
end LSystem
