/-
# Grammars in JSON

A grammar is a record of its start, its rules and its measures. Fields that are missing
take their usual values, in a map as well as at the end of a sequence. Rules are a map from
single characters to bodies, in which a later rule replaces an earlier one.

Key definitions: `Grammar.toJson`, `Grammar.json`, `Rules.json`, `Grammar.fields`.
-/
import LSystem.Geometry.Json
import LSystem.Grammar

namespace LSystem

open Json

namespace Rules

/-- The rules by their characters, in order. -/
def toJson (rules : Rules) : Document :=
  .map (rules.entries.map fun e => (.singleton e.1, .text e.2))

/-- Reads the character a rule is for: a key of exactly one code point. -/
def keyJson : Reader Char := do
  let s ← text
  match s.toList with
  | [c] => return c
  | _ => mismatch (.wrongValue (.text s) "a character")

/-- Reads rules. -/
def json : Reader Rules := map keyJson (string "a string") insert empty

end Rules

namespace Grammar

/-- The record of a grammar. -/
def toJson (g : Grammar) : Document :=
  .map [("axiom", .text g.start), ("rules", g.rules.toJson),
    ("initialHeading", g.initialHeading.toJson), ("stepLength", .real g.stepLength),
    ("turnAngle", g.turnAngle.toJson), ("depthScale", .real g.depthScale),
    ("evaluationDepth", .natural g.evaluationDepth.toNat)]

/-- The fields of a grammar read so far. -/
structure Slots where
  start : Option String := none
  rules : Option Rules := none
  initialHeading : Option Angle := none
  stepLength : Option Float := none
  turnAngle : Option Angle := none
  depthScale : Option Float := none
  evaluationDepth : Option UInt32 := none

/-- The fields of a grammar in their order. -/
def fields : List (RecordField Slots) :=
  [{ name := "axiom"
     given := (·.start.isSome)
     read := fun s => return { s with start := some (← string "a string") } },
   { name := "rules"
     given := (·.rules.isSome)
     read := fun s => return { s with rules := some (← Rules.json) } },
   { name := "initialHeading"
     given := (·.initialHeading.isSome)
     read := fun s => return { s with initialHeading := some (← Angle.json) } },
   { name := "stepLength"
     given := (·.stepLength.isSome)
     read := fun s => return { s with stepLength := some (← float) } },
   { name := "turnAngle"
     given := (·.turnAngle.isSome)
     read := fun s => return { s with turnAngle := some (← Angle.json) } },
   { name := "depthScale"
     given := (·.depthScale.isSome)
     read := fun s => return { s with depthScale := some (← float) } },
   { name := "evaluationDepth"
     given := (·.evaluationDepth.isSome)
     read := fun s => do
       return { s with evaluationDepth := some (← natural UInt32.size "u32").toUInt32 } }]

/-- A grammar with the fields read, and the usual values for the others. -/
def Slots.toGrammar (s : Slots) : Grammar :=
  let usual : Grammar := {}
  { start := s.start.getD usual.start
    rules := s.rules.getD usual.rules
    initialHeading := s.initialHeading.getD usual.initialHeading
    stepLength := s.stepLength.getD usual.stepLength
    turnAngle := s.turnAngle.getD usual.turnAngle
    depthScale := s.depthScale.getD usual.depthScale
    evaluationDepth := s.evaluationDepth.getD usual.evaluationDepth }

/-- Reads a grammar. -/
def json : Reader Grammar :=
  record "struct Grammar" fields {} fun _ s => .ok s.toGrammar

/-- Reads a whole text as a grammar. -/
def ofJson (text : String) : Except ReadError Grammar := json.read text

end Grammar
end LSystem
