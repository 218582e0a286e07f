/-
# Points of the plane

A point is a pair of doubles, and also serves as the vector from the origin to it.
Sums, multiples and corners are taken per coordinate.

Key definitions: `Point`, `Point.minCorner`, `Point.maxCorner`.
-/
namespace LSystem

/-- A point of the plane, or a vector. -/
structure Point where
  x : Float
  y : Float
  deriving DecidableEq, Inhabited

namespace Point

/-- The origin. -/
def origin : Point := ⟨0, 0⟩

instance : Add Point := ⟨fun p q => ⟨p.x + q.x, p.y + q.y⟩⟩

instance : HMul Point Float Point := ⟨fun p k => ⟨p.x * k, p.y * k⟩⟩

/-- The smaller of two coordinates. The second one is taken when they are equal as numbers
and when one of them is NaN. -/
def lesser (a b : Float) : Float := if a < b then a else b

/-- The greater of two coordinates. The second one is taken when they are equal as numbers
and when one of them is NaN. -/
def greater (a b : Float) : Float := if a > b then a else b

/-- The lesser coordinates of two points. -/
def minCorner (p q : Point) : Point := ⟨lesser p.x q.x, lesser p.y q.y⟩

/-- The greater coordinates of two points. -/
def maxCorner (p q : Point) : Point := ⟨greater p.x q.x, greater p.y q.y⟩

end Point
end LSystem
