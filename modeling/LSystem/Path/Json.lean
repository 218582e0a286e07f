/-
# Paths in JSON

A call is a map from its kind to its point. A recorder is the record of its calls, its
count of lines and its two corners; a corner may be null, and in a map it may be left out.
What is read is taken as it is, whether or not count and corners fit the calls.

Key definitions: `PathCommand.toJson`, `PathCommand.json`, `PathRecorder.toJson`,
`PathRecorder.json`.
-/
import LSystem.Geometry.Json
import LSystem.Json.Variant
import LSystem.Path.Recorder

namespace LSystem

open Json

namespace PathCommand

def toJson : PathCommand → Document
  | moveTo p => .map [("MoveTo", p.toJson)]
  | lineTo p => .map [("LineTo", p.toJson)]

/-- Reads a call. -/
def json : Reader PathCommand :=
  variant { name := "MoveTo", bare := none, value := moveTo <$> Point.json }
    { name := "LineTo", bare := none, value := lineTo <$> Point.json }

end PathCommand

namespace PathRecorder

def toJson (r : PathRecorder) : Document :=
  .map [("commands", .sequence (r.commands.toList.map PathCommand.toJson)),
    ("segments", .natural r.segments.toNat), ("min", .ofOption Point.toJson r.min),
    ("max", .ofOption Point.toJson r.max)]

/-- The fields of a recorder read so far. -/
structure Slots where
  commands : Option (Array PathCommand) := none
  segments : Option UInt64 := none
  min : Option (Option Point) := none
  max : Option (Option Point) := none

/-- The fields of a recorder in their order. -/
def fields : List (RecordField Slots) :=
  [{ name := "commands"
     given := (·.commands.isSome)
     read := fun s => return { s with commands := some (← Json.sequence PathCommand.json) } },
   { name := "segments"
     given := (·.segments.isSome)
     read := fun s => return { s with segments := some (← natural UInt64.size "usize").toUInt64 } },
   { name := "min"
     given := (·.min.isSome)
     read := fun s => return { s with min := some (← nullable Point.json) } },
   { name := "max"
     given := (·.max.isSome)
     read := fun s => return { s with max := some (← nullable Point.json) } }]

/-- The recorder of the fields read. A sequence must hold all four, a map may lack corners. -/
def complete : Option Nat → Slots → Except Mismatch PathRecorder
  | _, ⟨some commands, some segments, some min, some max⟩ => .ok { commands, segments, min, max }
  | some n, _ => .error (.wrongLength n "struct PathRecorder with 4 elements")
  | none, s =>
    match s.commands, s.segments with
    | some commands, some segments =>
      .ok { commands, segments, min := s.min.join, max := s.max.join }
    | none, _ => .error (.missingField "commands")
    | _, none => .error (.missingField "segments")

/-- Reads a recorder. -/
def json : Reader PathRecorder := record "struct PathRecorder" fields {} complete

end PathRecorder
end LSystem
