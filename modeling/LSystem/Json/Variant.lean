/-
# Choices in JSON

One of two variants is given by its name alone, or by a map with the name as its only key
and the value that the variant carries. Any other kind of value is malformed, and so is a
map with no key, with more than one, or with one that is no string.

Key definitions: `Json.Variant`, `Json.variant`.
-/
import LSystem.Json.Value

namespace LSystem.Json

/-- One variant of a choice. -/
structure Variant (α : Type) where
  name : String
  /-- What the name alone stands for; without it the variant needs a value. -/
  bare : Option α
  /-- Reads the value behind the name. -/
  value : Reader α

/-- Reads the name of one of two variants from its opening quote on. -/
def variantName {α : Type} (first second : Variant α) : Reader (Variant α) := do
  let name ← text
  if name = first.name then return first
  else if name = second.name then return second
  else mismatch (.unknownVariant name first.name second.name)

/-- Reads one of two variants. -/
def variant {α : Type} (first second : Variant α) : Reader α := do
  match ← peek with
  | '"' =>
    match (← variantName first second).bare with
    | some a => return a
    | none => mismatch (.wrongType .bareVariant "newtype variant")
  | '{' =>
    discard next
    if (← peek) = '"' then
      let chosen ← variantName first second
      punctuation ':'
      let a ← chosen.value
      punctuation '}'
      return a
    else malformed
  | _ => malformed

end LSystem.Json
