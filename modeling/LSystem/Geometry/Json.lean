/-
# Angles and points in JSON

An angle is its number of radians, and a point the sequence of its two coordinates.

Key definitions: `Angle.toJson`, `Angle.json`, `Point.toJson`, `Point.json`.
-/
import LSystem.Geometry.Angle
import LSystem.Geometry.Point
import LSystem.Json.Document
import LSystem.Json.Record

namespace LSystem

open Json

/-- The number of radians. -/
def Angle.toJson (a : Angle) : Document := .real a.radians

/-- Reads an angle. -/
def Angle.json : Reader Angle := Angle.mk <$> float

namespace Point

/-- The two coordinates. -/
def toJson (p : Point) : Document := .sequence [.real p.x, .real p.y]

/-- How a point is described where one is expected. -/
def expected : String := "a sequence of 2 f64 values"

/-- The coordinates read so far. -/
structure Slots where
  x : Option Float := none
  y : Option Float := none

/-- The coordinates in their order. -/
def fields : List (RecordField Slots) :=
  [{ name := "x", given := (·.x.isSome), read := fun s => return { s with x := some (← float) } },
    { name := "y", given := (·.y.isSome), read := fun s => return { s with y := some (← float) } }]

/-- Reads a point. -/
def json : Reader Point := do
  if (← peek) = '[' then
    discard next
    let (slots, count) ← positionsFrom {} 0 fields
    match slots with
    | ⟨some x, some y⟩ =>
      punctuation ']'
      return ⟨x, y⟩
    | _ => mismatch (.wrongLength count expected)
  else unexpected expected

end Point
end LSystem
