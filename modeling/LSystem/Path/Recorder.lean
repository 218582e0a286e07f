/-
# Recording a path with its extent

A recorder keeps every call, counts the lines, and keeps the corners of the smallest
box around the points, so that a finished path can be fitted to a canvas.

Key definitions: `PathRecorder`, `PathRecorder.bounds`, `PathRecorder.extend`.
-/
import LSystem.Path

namespace LSystem

/-- A sink that keeps all calls, and the extent of their points. -/
structure PathRecorder where
  /-- All calls, in order. -/
  commands : Array PathCommand := #[]
  /-- How many lines were drawn, counted in a machine word. -/
  segments : UInt64 := 0
  /-- The lesser coordinates of the points. -/
  min : Option Point := none
  /-- The greater coordinates of the points. -/
  max : Option Point := none

namespace PathRecorder

/-- The corners of the box around all points, if there are any. -/
def bounds (r : PathRecorder) : Option (Point × Point) := do
  return (← r.min, ← r.max)

/-- Extends the box to hold `p`. -/
def extend (r : PathRecorder) (p : Point) : PathRecorder :=
  { r with
    min := some (r.min.elim p (·.minCorner p))
    max := some (r.max.elim p (·.maxCorner p)) }

/-- Takes in a point that is gone to. -/
def moveTo (r : PathRecorder) (p : Point) : PathRecorder :=
  let r := r.extend p
  { r with commands := r.commands.push (.moveTo p) }

/-- Takes in a line. -/
def lineTo (r : PathRecorder) (p : Point) : PathRecorder :=
  let r := r.extend p
  { r with segments := r.segments + 1, commands := r.commands.push (.lineTo p) }

instance : LineSink PathRecorder := ⟨moveTo, lineTo⟩

end PathRecorder
end LSystem
