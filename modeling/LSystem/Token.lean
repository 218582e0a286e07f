/-
# The tokens of a command string

A command string is read for its tokens. A letter is a symbol: it names a rule,
draws (`F`), moves (`G`) or does nothing. `+` and `-` turn, by a multiple of the
turn angle when digits stand before them. Brackets save and restore the turtle,
`<` and `>` change the scale depth, and `|` draws whatever the rules say.

Key definitions: `Direction`, `Direction.factor`, `Token`, `Token.isDraw`,
`Token.isMove`, `Token.written`.
-/
import LSystem.Decimal.Digits

namespace LSystem

/-- The two ways a turn can go; a right turn makes the heading grow. -/
inductive Direction where
  | right
  | left
  deriving DecidableEq

namespace Direction

/-- The character a turn is written as. -/
def symbol : Direction → Char
  | right => '+'
  | left => '-'

/-- What the turn angle is multiplied by: `1` for a right turn and `-1` for a left one. -/
def sign : Direction → Float
  | right => 1
  | left => -1

/-- The number of turn angles a turn makes, signed: the double nearest to its multiplier,
and `1` when no digits were written. -/
def factor (d : Direction) (multiplier : Nat) : Float :=
  d.sign * (if multiplier = 0 then 1 else Float.ofNat multiplier)

end Direction

/-- One command of the alphabet. -/
inductive Token where
  /-- An ASCII letter. -/
  | symbol (letter : Char)
  /-- A turn, with the number its digits spell; `0` means that no digits were written. -/
  | turn (direction : Direction) (multiplier : Nat)
  /-- Saves position and heading. -/
  | push
  /-- Goes back to what was saved last. -/
  | pop
  /-- One scale depth down. -/
  | enterScale
  /-- One scale depth up. -/
  | exitScale
  /-- Draws forward, whatever stands before it. -/
  | forcedDraw
  deriving DecidableEq

namespace Token

/-- A symbol that draws forward when no rule replaces it: `F` of either case. -/
def isDraw (letter : Char) : Bool := letter = 'F' || letter = 'f'

/-- A symbol that moves forward without drawing when no rule replaces it: `G` of either case. -/
def isMove (letter : Char) : Bool := letter = 'G' || letter = 'g'

/-- Drawing and moving letters are written in upper case, every other letter as it is. -/
def canonical (letter : Char) : Char :=
  if isDraw letter then 'F' else if isMove letter then 'G' else letter

/-- The text a token is written as: its character, after the digits of a nonzero multiplier. -/
def written : Token → String
  | symbol letter => .singleton (canonical letter)
  | turn d multiplier =>
    (if multiplier = 0 then "" else .ofList (Decimal.digits multiplier)) ++ .singleton d.symbol
  | push => "["
  | pop => "]"
  | enterScale => "<"
  | exitScale => ">"
  | forcedDraw => "|"

end Token
end LSystem
