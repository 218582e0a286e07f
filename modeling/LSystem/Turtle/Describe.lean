/-
# A turtle in words

The description of a turtle names everything it holds but its sink. Doubles are written
positionally while the first digit stands for `10 ^ -4` to `10 ^ 15`, and a half of the
last digit goes up.

Key definitions: `Turtle.describe`, `TurtleState.describe`.
-/
import LSystem.Decimal.Layout
import LSystem.Turtle.Json

namespace LSystem

/-- The way doubles are written in descriptions. -/
def Turtle.measureLayout : Decimal.Layout where
  leastPositional := -4
  greatestPositional := 15
  plusSign := false
  half := .up

/-- A double in a description. -/
def Turtle.measure (x : Float) : String := .ofList (measureLayout.write x)

/-- A position and a heading in words. -/
def TurtleState.describe (s : TurtleState) : String :=
  "TurtleState \x7b position: DVec2(" ++ Turtle.measure s.position.x ++ ", " ++
    Turtle.measure s.position.y ++ "), heading: Angle(" ++ Turtle.measure s.heading.radians ++
    ") \x7d"

/-- A turtle in words, with the saved states from the first to the last. -/
def Turtle.describe {σ : Type} (t : Turtle σ) : String :=
  "Turtle \x7b state: " ++ t.state.describe ++ ", pen: " ++ t.pen.name ++ ", stack: [" ++
    ", ".intercalate (t.stack.reverse.map TurtleState.describe) ++ "], scale_depth: " ++
    toString t.scaleDepth ++ ", depth_scale: " ++ measure t.depthScale ++ ", .. \x7d"

end LSystem
