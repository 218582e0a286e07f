/-
# The turtle

A turtle has a position, a heading and a pen, and draws into a line sink that it
holds. A forward step is scaled by the depth scale once for every scale depth. Position
and heading can be saved on a stack; going back to them is a move and never a line.

Key definitions: `Turtle`, `Turtle.forward`, `Turtle.turn`, `Turtle.save`,
`Turtle.restore`.
-/
import LSystem.Geometry.Angle
import LSystem.Geometry.Power
import LSystem.Path

namespace LSystem

/-- Whether a forward step draws (down) or only moves (up). -/
inductive Pen where
  | up
  | down
  deriving DecidableEq

/-- What brackets save and restore. -/
structure TurtleState where
  position : Point := .origin
  heading : Angle := .zero
  deriving DecidableEq

/-- The unit vector along the heading; a heading of zero points along the second axis. -/
def TurtleState.direction (s : TurtleState) : Point :=
  ⟨s.heading.radians.sin, s.heading.radians.cos⟩

/-- A turtle that draws into a sink of type `σ`; new ones stand at the origin, face up and
hold the pen down. -/
structure Turtle (σ : Type) where
  sink : σ
  state : TurtleState := {}
  pen : Pen := .down
  /-- The saved states, the last one first. -/
  stack : List TurtleState := []
  /-- How often the depth scale applies to a step; negative depths divide by it. -/
  scaleDepth : Int := 0
  depthScale : Float := 1

namespace Turtle

variable {σ : Type}

def setHeading (t : Turtle σ) (heading : Angle) : Turtle σ :=
  { t with state := { t.state with heading } }

def setDepthScale (t : Turtle σ) (scale : Float) : Turtle σ := { t with depthScale := scale }

/-- Adds to the heading. -/
def turn (t : Turtle σ) (angle : Angle) : Turtle σ :=
  { t with state := { t.state with heading := t.state.heading + angle } }

def penUp (t : Turtle σ) : Turtle σ := { t with pen := .up }

def penDown (t : Turtle σ) : Turtle σ := { t with pen := .down }

/-- One scale depth down. -/
def enterScale (t : Turtle σ) : Turtle σ := { t with scaleDepth := t.scaleDepth + 1 }

/-- One scale depth up. -/
def exitScale (t : Turtle σ) : Turtle σ := { t with scaleDepth := t.scaleDepth - 1 }

/-- Saves position and heading. -/
def save (t : Turtle σ) : Turtle σ := { t with stack := t.state :: t.stack }

/-- Whether there is a state to go back to. -/
def hasSaved (t : Turtle σ) : Bool := !t.stack.isEmpty

/-- The length of a step of `distance` at the current scale depth. -/
def stepLength (t : Turtle σ) (distance : Float) : Float :=
  distance * power t.depthScale t.scaleDepth

/-- Where a step of `distance` along the heading ends. -/
def ahead (t : Turtle σ) (distance : Float) : Point :=
  t.state.position + t.state.direction * t.stepLength distance

variable [LineSink σ]

/-- Goes to a point without drawing, with the heading kept. -/
def moveTo (t : Turtle σ) (p : Point) : Turtle σ :=
  { t with sink := LineSink.moveTo t.sink p, state := { t.state with position := p } }

/-- Draws to a point, with the heading kept. -/
def lineTo (t : Turtle σ) (p : Point) : Turtle σ :=
  { t with sink := LineSink.lineTo t.sink p, state := { t.state with position := p } }

/-- Takes a step along the heading, which draws when the pen is down. -/
def forward (t : Turtle σ) (distance : Float) : Turtle σ :=
  match t.pen with
  | .up => t.moveTo (t.ahead distance)
  | .down => t.lineTo (t.ahead distance)

/-- Goes back to the state saved last; without one, nothing happens. -/
def restore (t : Turtle σ) : Turtle σ :=
  match t.stack with
  | [] => t
  | s :: rest =>
    { t with sink := LineSink.moveTo t.sink s.position, state := s, stack := rest }

end Turtle
end LSystem
