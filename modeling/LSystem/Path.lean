/-
# Paths and line sinks

What a turtle draws is a sequence of two kinds of calls: go to a point, and draw a
line to a point. Anything that takes these calls is a line sink; the plainest one
keeps them in an array.

Key definitions: `LineSink`, `PathCommand`, `PathCommand.point`.
-/
import LSystem.Geometry.Point

namespace LSystem

/-- States that take in the motion of a turtle. -/
class LineSink (σ : Type) where
  /-- Goes to a point without drawing. -/
  moveTo : σ → Point → σ
  /-- Draws a segment from the current point. -/
  lineTo : σ → Point → σ

/-- One recorded call. -/
inductive PathCommand where
  | moveTo (point : Point)
  | lineTo (point : Point)
  deriving DecidableEq

namespace PathCommand

/-- The point a call goes to. -/
def point : PathCommand → Point
  | moveTo p | lineTo p => p

/-- A call that draws. -/
def isLine : PathCommand → Bool
  | moveTo _ => false
  | lineTo _ => true

end PathCommand

/-- An array of calls takes in a call at its end. -/
instance : LineSink (Array PathCommand) where
  moveTo calls p := calls.push (.moveTo p)
  lineTo calls p := calls.push (.lineTo p)

end LSystem
