/-
# Quoting a text in a message

A quoted text stands between double quotes and shows every character unmistakably:
quotes, backslashes and common controls behind a backslash, characters that have no
printed form or would merge with the quote or with a neighbour by their code point, and
all others as they are. Letters go by what they look like: fillers have no visible form,
and halfwidth sound marks take a cell of their own.

Key definitions: `Text.isConcealed`, `Text.escaped`, `Text.quoted`.
-/
import LSystem.Text.GraphemeExtend
import LSystem.Text.Unprintable

namespace LSystem.Text

/-- The hexadecimal digits of a number, lower case and without leading zeros. -/
def hexDigits (n : Nat) : List Char := Nat.toDigits 16 n

/-- A character by its code point. -/
def codePoint (c : Char) : String := "\\u\x7b" ++ .ofList (hexDigits c.toNat) ++ "\x7d"

/-- The fillers of the Hangul script, letters that leave their place blank. -/
def isFiller (c : Char) : Bool :=
  c = '\u115f' || c = '\u1160' || c = '\u3164' || c = '\uffa0'

/-- The halfwidth sound marks of Katakana, letters that extend the one before them and are
still set beside it. -/
def isHalfwidthSoundMark (c : Char) : Bool := c = '\uff9e' || c = '\uff9f'

/-- A character that is not recognised by its look. -/
def isConcealed (c : Char) : Bool :=
  !isPrintable c || isFiller c || (isGraphemeExtend c && !isHalfwidthSoundMark c)

/-- A character inside a quoted text. -/
def escaped (c : Char) : String :=
  match c with
  | '\x00' => "\\0"
  | '\t' => "\\t"
  | '\r' => "\\r"
  | '\n' => "\\n"
  | '\\' => "\\\\"
  | '"' => "\\\""
  | c => if isConcealed c then codePoint c else .singleton c

/-- A text between double quotes. -/
def quoted (s : String) : String :=
  "\"" ++ s.toList.foldl (fun out c => out ++ escaped c) "" ++ "\""

end LSystem.Text
