/-
# Derivations

A pass goes over a command string: it reads the tokens and writes each of them again,
but for a symbol with a rule it writes the body of the rule between `<` and `>`. The
markers make up for the scale depth at which a rule body is drawn. Digits keep their
place in the text, so digits at the end of a body wait for the first turn after it.
A derivation is a number of passes, one after the other.

A guarded derivation asks before each token whether to go on, and stops once the
string of a pass is longer than a limit.

Key definitions: `Rules.image`, `Rules.pass`, `Rules.derive`, `Rules.deriveGuarded`,
`Rules.deriveWithin`.
-/
import LSystem.RenderError
import LSystem.Rules
import LSystem.Token.Scan

namespace LSystem.Rules

/-- What a pass writes for a token. -/
def image (rules : Rules) : Token → String
  | .symbol c =>
    match rules.body? c with
    | some body => "<" ++ body ++ ">"
    | none => (Token.symbol c).written
  | t => t.written

/-- One pass over a string. -/
def pass (rules : Rules) (s : String) : String :=
  (Token.scan s).foldl (fun out t => out ++ rules.image t) ""

/-- The string after a number of passes; none of them limited. -/
def derive (rules : Rules) : Nat → String → String
  | 0, s => s
  | n + 1, s => rules.derive n (rules.pass s)

variable {π : Type}

/-- One pass that writes behind `out`, asks `poll` before each token, and fails after the
token that makes the string longer than `limit` bytes. -/
def passGuarded (rules : Rules) (limit : Option Nat) (poll : EStateM RenderError π Unit) :
    List Token → String → EStateM RenderError π String
  | [], out => pure out
  | t :: ts, out => do
    poll
    let out := out ++ rules.image t
    match limit with
    | some l =>
      if l < out.utf8ByteSize then throw (.expansionLimitExceeded out.utf8ByteSize l)
      else rules.passGuarded limit poll ts out
    | none => rules.passGuarded limit poll ts out

/-- The string after a number of passes, each of them guarded. No pass, no guard. -/
def deriveGuarded (rules : Rules) (limit : Option Nat) (poll : EStateM RenderError π Unit) :
    Nat → String → EStateM RenderError π String
  | 0, s => pure s
  | n + 1, s => do
    let next ← rules.passGuarded limit poll (Token.scan s) ""
    rules.deriveGuarded limit poll n next

/-- The string after a number of passes, none of which may write more than `limit` bytes. -/
def deriveWithin (rules : Rules) (limit n : Nat) (s : String) : Except RenderError String :=
  match (rules.deriveGuarded (some limit) (pure ()) n s).run () with
  | .ok out _ => .ok out
  | .error e _ => .error e

end LSystem.Rules
