/-
# Grammars

A grammar is an L-system over characters together with the numbers its turtle draws
with: a string to start from, rules, and the heading, step, turn, depth scale and
number of rule levels of the drawing.

Key definitions: `Grammar`, `Grammar.ofStart`, `Grammar.withRule`, `Grammar.body?`,
`Grammar.derive`, `Grammar.equals`.
-/
import LSystem.Derivation
import LSystem.Geometry.Angle

namespace LSystem

/-- A character L-system and the measures it is drawn with. -/
structure Grammar where
  /-- The string at depth zero. -/
  start : String := "F"
  rules : Rules := .empty
  /-- The heading before the first command. -/
  initialHeading : Angle := .zero
  /-- How far a forward step goes at scale depth zero. -/
  stepLength : Float := 10
  /-- The angle of a single turn; a positive one turns right on `+`. -/
  turnAngle : Angle := .ofDegrees 90
  /-- What a step is multiplied by at each scale depth. -/
  depthScale : Float := 1
  /-- How many rule bodies may be open at once, a machine word. -/
  evaluationDepth : UInt32 := 4
  deriving DecidableEq

namespace Grammar

instance : Inhabited Grammar := ⟨{}⟩

/-- A grammar without rules, with the usual measures. -/
def ofStart (start : String) : Grammar := { start }

/-- Adds the rule for `c`, or replaces it. -/
def withRule (g : Grammar) (c : Char) (body : String) : Grammar :=
  { g with rules := g.rules.insert c body }

def withInitialHeading (g : Grammar) (heading : Angle) : Grammar :=
  { g with initialHeading := heading }

def withTurnAngle (g : Grammar) (angle : Angle) : Grammar := { g with turnAngle := angle }

def withStepLength (g : Grammar) (length : Float) : Grammar := { g with stepLength := length }

def withDepthScale (g : Grammar) (scale : Float) : Grammar := { g with depthScale := scale }

def withEvaluationDepth (g : Grammar) (depth : UInt32) : Grammar :=
  { g with evaluationDepth := depth }

/-- The body that replaces `c`, if `c` has a rule. -/
def body? (g : Grammar) (c : Char) : Option String := g.rules.body? c

/-- The start after a number of passes of the rules. -/
def derive (g : Grammar) (n : Nat) : String := g.rules.derive n g.start

/-- Equality with the measures taken as numbers: both zeros are equal, and a grammar with a
NaN equals none. -/
def equals (g h : Grammar) : Bool :=
  g.start == h.start && g.rules == h.rules && g.initialHeading.equals h.initialHeading &&
    g.stepLength == h.stepLength && g.turnAngle.equals h.turnAngle &&
    g.depthScale == h.depthScale && g.evaluationDepth == h.evaluationDepth

end Grammar
end LSystem
