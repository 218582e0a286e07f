/-
# What can be wrong with a JSON text

A text is read in one pass, and the first thing wrong with it is reported. The text can
break the rules of the notation, or end too early, or hold a value that does not fit what
is being read. Only the last kind is described in words.

Key definitions: `Json.Found`, `Json.Mismatch`, `Json.Mismatch.message`, `Json.ReadError`.
-/
import LSystem.Decimal.Layout
import LSystem.Text.Quoted

namespace LSystem.Json

/-- Numbers are written with the digits of the shortest decimal, positionally while the first
digit stands for `10 ^ -5` to `10 ^ 15`, and a half goes to the even digit. -/
def numberLayout : Decimal.Layout where
  leastPositional := -5
  greatestPositional := 15
  plusSign := true
  half := .toEven

/-- A value met where another one was expected. -/
inductive Found where
  | null
  | boolean (value : Bool)
  | integer (value : Int)
  | real (value : Float)
  | text (value : String)
  | sequence
  | map
  /-- The bare name of a variant that carries a value. -/
  | bareVariant

/-- What was met, in words. -/
def Found.describe : Found → String
  | null => "null"
  | boolean true => "boolean `true`"
  | boolean false => "boolean `false`"
  | integer (.ofNat n) => "integer `" ++ .ofList (Decimal.digits n) ++ "`"
  | integer (.negSucc n) => "integer `-" ++ .ofList (Decimal.digits (n + 1)) ++ "`"
  | real x => "floating point `" ++ .ofList (numberLayout.write x) ++ "`"
  | text s => "string " ++ Text.quoted s
  | sequence => "sequence"
  | map => "map"
  | bareVariant => "unit variant"

/-- A value, or a collection of values, that does not fit. -/
inductive Mismatch where
  /-- A value of a kind that was not expected. -/
  | wrongType (found : Found) (expected : String)
  /-- A value of the right kind outside its range. -/
  | wrongValue (found : Found) (expected : String)
  /-- A sequence that is too short. -/
  | wrongLength (length : Nat) (expected : String)
  /-- A record without one of its fields. -/
  | missingField (name : String)
  /-- A field that is given twice. -/
  | duplicateField (name : String)
  /-- A variant that is none of two known ones. -/
  | unknownVariant (name first second : String)

/-- The mismatch in words. -/
def Mismatch.message : Mismatch → String
  | wrongType found expected => "invalid type: " ++ found.describe ++ ", expected " ++ expected
  | wrongValue found expected => "invalid value: " ++ found.describe ++ ", expected " ++ expected
  | wrongLength length expected =>
    "invalid length " ++ .ofList (Decimal.digits length) ++ ", expected " ++ expected
  | missingField name => "missing field `" ++ name ++ "`"
  | duplicateField name => "duplicate field `" ++ name ++ "`"
  | unknownVariant name first second =>
    "unknown variant `" ++ name ++ "`, expected `" ++ first ++ "` or `" ++ second ++ "`"

/-- The first thing wrong with a text. -/
inductive ReadError where
  /-- A value that does not fit. -/
  | mismatch (cause : Mismatch)
  /-- A character that cannot stand where it stands, or a number out of range. -/
  | malformed
  /-- The end of the text inside or before a value. -/
  | truncated

end LSystem.Json
