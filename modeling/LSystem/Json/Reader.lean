/-
# Reading JSON from left to right

A reader takes a value from the front of a text and leaves the rest. The steps here are
the ones every reader is made of: blanks, single characters, words, and the end.

Key definitions: `Json.Reader`, `Json.Reader.read`, `Json.peek`, `Json.next`,
`Json.punctuation`, `Json.word`.
-/
import LSystem.Json.Error

namespace LSystem.Json

/-- Takes a value from the front of a text. -/
abbrev Reader := StateT (List Char) (Except ReadError)

/-- The blanks that may stand between the parts of a text. -/
def isBlank (c : Char) : Bool := c = ' ' || c = '\n' || c = '\t' || c = '\r'

/-- Skips blanks. -/
def skipBlanks : Reader Unit := modify (·.dropWhile isBlank)

/-- Fails over a character that does not fit. -/
def malformed {α : Type} : Reader α := throw .malformed

/-- Fails over the end of the text. -/
def truncated {α : Type} : Reader α := throw .truncated

/-- Fails over a value that does not fit. -/
def mismatch {α : Type} (cause : Mismatch) : Reader α := throw (.mismatch cause)

/-- Takes the next character, blank or not. -/
def next : Reader Char := do
  match ← get with
  | [] => truncated
  | c :: rest =>
    set rest
    return c

/-- Looks at the first character that is no blank, and leaves it. -/
def peek : Reader Char := do
  skipBlanks
  match ← get with
  | [] => truncated
  | c :: _ => return c

/-- Takes the next character if it is one that `p` holds of. -/
def takeIf (p : Char → Bool) : Reader (Option Char) := do
  match ← get with
  | c :: rest =>
    if p c then
      set rest
      return some c
    else return none
  | [] => return none

/-- Takes the mark `c`, before which blanks may stand. -/
def punctuation (c : Char) : Reader Unit := do
  if (← peek) = c then discard next else malformed

/-- Takes the characters of a word. -/
def word : List Char → Reader Unit
  | [] => pure ()
  | c :: cs => do
    if (← next) = c then word cs else malformed

/-- Repeats a step at most once for each character left, and once more. -/
def repeated {α : Type} (step : Nat → Reader α) : Reader α := do
  step ((← get).length + 1)

/-- Takes blanks up to the end of the text. -/
def finish : Reader Unit := do
  skipBlanks
  match ← get with
  | [] => pure ()
  | _ :: _ => malformed

/-- Reads a whole text as one value. -/
def Reader.read {α : Type} (r : Reader α) (text : String) : Except ReadError α :=
  (do let a ← r; finish; return a : Reader α).run' text.toList

end LSystem.Json
