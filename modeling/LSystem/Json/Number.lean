/-
# Numbers in JSON

A number is an integer if it has neither a fraction nor an exponent and fits a machine
word: nonnegative ones an unsigned word, negative ones a signed one. Every other number,
`-0` included, is the nearest double, and too large a double is refused. Digits behind the
first `digitLimit` are not told apart: they count as a single one, zeros too.

Key definitions: `Json.Number`, `Json.number`, `Json.literal`, `Json.Number.toFloat`,
`Json.skipNumber`.
-/
import LSystem.Json.Reader

namespace LSystem.Json

/-- A number as it is read. -/
inductive Number where
  | integer (value : Int)
  | real (value : Float)

/-- A number as a double; integers are rounded to the nearest one. -/
def Number.toFloat : Number → Float
  | integer n => .ofInt n
  | real x => x

/-- A number in the words of an error. -/
def Number.found : Number → Found
  | integer n => .integer n
  | real x => .real x

/-- How many significant digits of a number are told apart. A double, and the middle between
two neighbours, has fewer, so that behind them it only matters whether anything follows. -/
def digitLimit : Nat := 768

/-- Digits without the zeros in front of them. -/
def dropLeadingZeros (ds : List Char) : List Char := ds.dropWhile (· = '0')

/-- Digits without the zeros at their end. -/
def dropTrailingZeros (ds : List Char) : List Char := (dropLeadingZeros ds.reverse).reverse

/-- The decimal of digits before and after a point, times a power of ten. Zeros at the end of
the fraction do not count; of more digits than the limit, those behind it stand for a one. -/
def literal (whole fraction : List Char) (exponent : Int) : Decimal :=
  let fraction := dropTrailingZeros fraction
  let ds := dropLeadingZeros (whole ++ fraction)
  let last := exponent - fraction.length
  if ds.length ≤ digitLimit then ⟨Decimal.ofDigits ds, last⟩
  else
    ⟨Decimal.ofDigits (ds.take digitLimit ++ ['1']), last + (ds.length - (digitLimit + 1) : Nat)⟩

/-- The value of a literal as a double, if that is finite. -/
def Number.ofLiteral? (negative : Bool) (whole fraction : List Char) (exponent : Int) :
    Option Number :=
  (Decimal.toFloat? negative (literal whole fraction exponent)).map .real

/-- The value of an integer literal: a machine word if it fits one, and a double otherwise. -/
def Number.ofInteger? (negative : Bool) (whole : List Char) : Option Number :=
  let n := Decimal.ofDigits whole
  if negative then
    if n ≠ 0 ∧ n ≤ UInt64.size / 2 then some (.integer (-(n : Int)))
    else ofLiteral? true whole [] 0
  else
    if n < UInt64.size then some (.integer n)
    else ofLiteral? false whole [] 0

/-- Takes all digits that come next. -/
def takeDigits : Reader (List Char) := do
  let cs ← get
  set (cs.dropWhile Char.isDigit)
  return cs.takeWhile Char.isDigit

/-- Takes the digits that come next, of which there must be one. -/
def someDigits : Reader (List Char) := do
  match ← get with
  | [] => truncated
  | c :: _ => if c.isDigit then takeDigits else malformed

/-- The digits before the point, of which the first is a zero only if it is alone. -/
def wholeDigits : Reader (List Char) := do
  let ds ← someDigits
  match ds with
  | '0' :: _ :: _ => malformed
  | ds => return ds

/-- The digits of a fraction, if there is one. -/
def fractionDigits? : Reader (Option (List Char)) := do
  match ← takeIf (· = '.') with
  | some _ => some <$> someDigits
  | none => return none

/-- The exponent, if there is one. -/
def exponent? : Reader (Option Int) := do
  match ← takeIf fun c => c = 'e' || c = 'E' with
  | some _ =>
    let sign ← takeIf fun c => c = '+' || c = '-'
    let n := Decimal.ofDigits (← someDigits)
    return some (if sign = some '-' then -(n : Int) else n)
  | none => return none

/-- Takes a minus sign, if there is one. -/
def minus : Reader Bool := Option.isSome <$> takeIf (· = '-')

/-- Reads a number. -/
def number : Reader Number := do
  let negative ← minus
  let whole ← wholeDigits
  let fraction ← fractionDigits?
  let exponent ← exponent?
  let value :=
    if fraction.isNone && exponent.isNone then Number.ofInteger? negative whole
    else Number.ofLiteral? negative whole (fraction.getD []) (exponent.getD 0)
  match value with
  | some n => return n
  | none => malformed

/-- Skips a number. One that breaks off at the end of the text counts as malformed here. -/
def skipNumber : Reader Unit := do
  let cs ← get
  let shape : Reader Unit := do
    discard minus
    discard wholeDigits
    discard fractionDigits?
    discard exponent?
  match shape.run cs with
  | .ok (_, rest) => set rest
  | .error _ => malformed

end LSystem.Json
