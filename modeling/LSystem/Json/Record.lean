/-
# Records in JSON

A record is given either as a map from the names of its fields to their values, in any
order, or as the sequence of the values in the order of the fields. The same list of
fields serves both. In a map, names that no field has are skipped with their values, and
a name that comes twice is reported where it is met again. What a record lacks is settled
by the record itself once the closing bracket is reached.

Key definitions: `Json.RecordField`, `Json.record`.
-/
import LSystem.Json.Skip

namespace LSystem.Json

/-- A field of a record, of which `σ` holds the values read so far. -/
structure RecordField (σ : Type) where
  name : String
  /-- Whether the field has its value. -/
  given : σ → Bool
  /-- Reads the value into its place. -/
  read : σ → Reader σ

/-- Reads the entries of a record up to the closing bracket. -/
def membersFrom {σ : Type} (fields : List (RecordField σ)) (first : Bool) (slots : σ) :
    Nat → Reader σ
  | 0 => truncated
  | fuel + 1 => do
    if ← atKey first then
      let name ← text
      match fields.find? (·.name = name) with
      | some field =>
        if field.given slots then mismatch (.duplicateField name)
        punctuation ':'
        membersFrom fields false (← field.read slots) fuel
      | none =>
        punctuation ':'
        skip
        membersFrom fields false slots fuel
    else return slots

/-- Reads the values of a record by position, and says how many there were. The sequence may
end early. -/
def positionsFrom {σ : Type} (slots : σ) (count : Nat) : List (RecordField σ) → Reader (σ × Nat)
  | [] => return (slots, count)
  | field :: fields => do
    if ← atItem (count = 0) then
      positionsFrom (← field.read slots) (count + 1) fields
    else return (slots, count)

/-- Reads a record. `complete` makes it from its slots; it is told how many values there were
if they were given by position. -/
def record {σ α : Type} (expected : String) (fields : List (RecordField σ)) (empty : σ)
    (complete : Option Nat → σ → Except Mismatch α) : Reader α := do
  match ← peek with
  | '{' =>
    discard next
    let slots ← repeated (membersFrom fields true empty)
    match complete none slots with
    | .ok a =>
      punctuation '}'
      return a
    | .error cause => mismatch cause
  | '[' =>
    discard next
    let (slots, count) ← positionsFrom empty 0 fields
    match complete (some count) slots with
    | .ok a =>
      punctuation ']'
      return a
    | .error cause => mismatch cause
  | _ => unexpected expected

end LSystem.Json
