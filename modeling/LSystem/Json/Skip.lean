/-
# Skipping a JSON value

A value that nobody asked for is skipped, however deep it nests. Only its shape is checked:
numbers may be out of range, and surrogates may stand alone.

Key definitions: `Json.skip`.
-/
import LSystem.Json.Container

namespace LSystem.Json

mutual

/-- Skips a value. -/
def skipValue : Nat → Reader Unit
  | 0 => truncated
  | fuel + 1 => do
    match ← peek with
    | 'n' => word "null".toList
    | 't' => word "true".toList
    | 'f' => word "false".toList
    | '"' => skipText
    | '[' =>
      discard next
      skipItems true fuel
    | '{' =>
      discard next
      skipEntries true fuel
    | c => if startsNumber c then skipNumber else malformed

/-- Skips items and the closing bracket. -/
def skipItems (first : Bool) : Nat → Reader Unit
  | 0 => truncated
  | fuel + 1 => do
    if ← atItem first then
      skipValue fuel
      skipItems false fuel
    else punctuation ']'

/-- Skips entries and the closing bracket. -/
def skipEntries (first : Bool) : Nat → Reader Unit
  | 0 => truncated
  | fuel + 1 => do
    if ← atKey first then
      skipText
      punctuation ':'
      skipValue fuel
      skipEntries false fuel
    else punctuation '}'

end

/-- Skips a value; each character opens or ends at most one part of it. -/
def skip : Reader Unit := do
  skipValue (2 * (← get).length + 2)

end LSystem.Json
