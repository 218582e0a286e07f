/-
# Turtle states in JSON

A pen is one of two names, and a turtle state the record of a position and a heading,
both of which must be there.

Key definitions: `Pen.toJson`, `Pen.json`, `TurtleState.toJson`, `TurtleState.json`.
-/
import LSystem.Geometry.Json
import LSystem.Json.Variant
import LSystem.Turtle

namespace LSystem

open Json

namespace Pen

/-- What a pen state is called. -/
def name : Pen → String
  | up => "Up"
  | down => "Down"

def toJson (p : Pen) : Document := .text p.name

/-- A pen state carries no value, or a null. -/
def choice (p : Pen) : Variant Pen where
  name := p.name
  bare := some p
  value := do null "unit"; return p

/-- Reads a pen state. -/
def json : Reader Pen := variant up.choice down.choice

end Pen

namespace TurtleState

def toJson (s : TurtleState) : Document :=
  .map [("position", s.position.toJson), ("heading", s.heading.toJson)]

/-- The fields of a state read so far. -/
structure Slots where
  position : Option Point := none
  heading : Option Angle := none

/-- The fields of a state in their order. -/
def fields : List (RecordField Slots) :=
  [{ name := "position"
     given := (·.position.isSome)
     read := fun s => return { s with position := some (← Point.json) } },
   { name := "heading"
     given := (·.heading.isSome)
     read := fun s => return { s with heading := some (← Angle.json) } }]

/-- The state of fields that are all there. A short sequence is reported by its length, a map
by the first field that is missing. -/
def complete (count : Option Nat) : Slots → Except Mismatch TurtleState
  | ⟨some position, some heading⟩ => .ok { position, heading }
  | ⟨position, _⟩ =>
    .error <| match count with
      | some n => .wrongLength n "struct TurtleState with 2 elements"
      | none => .missingField (if position.isNone then "position" else "heading")

/-- Reads a state. -/
def json : Reader TurtleState := record "struct TurtleState" fields {} complete

end TurtleState
end LSystem
