/-
# Single values in JSON

A reader of a single value looks at the first character and either reads the value or
finds out what stands there instead. A number or a string that is not expected is read
whole before it is reported; a sequence or a map is reported at its bracket.

Key definitions: `Json.unexpected`, `Json.string`, `Json.float`, `Json.natural`,
`Json.nullable`.
-/
import LSystem.Json.Number
import LSystem.Json.Text

namespace LSystem.Json

/-- A character that a number starts with. -/
def startsNumber (c : Char) : Bool := c = '-' || c.isDigit

/-- Finds out what value starts here. -/
def found : Reader Found := do
  match ← peek with
  | 'n' => word "null".toList; return .null
  | 't' => word "true".toList; return .boolean true
  | 'f' => word "false".toList; return .boolean false
  | '"' => .text <$> text
  | '[' => return .sequence
  | '{' => return .map
  | c => if startsNumber c then Number.found <$> number else malformed

/-- Reports the value that starts here instead of an expected one. -/
def unexpected {α : Type} (expected : String) : Reader α := do
  mismatch (.wrongType (← found) expected)

/-- Reads a string. -/
def string (expected : String) : Reader String := do
  if (← peek) = '"' then text else unexpected expected

/-- Reads a null. -/
def null (expected : String) : Reader Unit := do
  if (← peek) = 'n' then word "null".toList else unexpected expected

/-- Reads a number as a double. -/
def float : Reader Float := do
  if startsNumber (← peek) then Number.toFloat <$> number else unexpected "f64"

/-- Reads a natural number below a bound, of a kind with a name. -/
def natural (bound : Nat) (kind : String) : Reader Nat := do
  if startsNumber (← peek) then
    match ← number with
    | .integer n =>
      if 0 ≤ n ∧ n < bound then return n.toNat else mismatch (.wrongValue (.integer n) kind)
    | .real x => mismatch (.wrongType (.real x) kind)
  else unexpected kind

/-- Reads a null as nothing, and everything else as a value. -/
def nullable {α : Type} (value : Reader α) : Reader (Option α) := do
  if (← peek) = 'n' then
    word "null".toList
    return none
  else some <$> value

end LSystem.Json
