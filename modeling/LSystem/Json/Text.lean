/-
# Strings in JSON

Between its quotes a string holds characters as they are, other than quotes, backslashes
and controls, and escapes behind a backslash. An escape by number has four hexadecimal
digits; a character beyond the first plane takes two of them, a leading and a trailing
surrogate. A string that is only skipped may hold surrogates alone.

Key definitions: `Json.text`, `Json.skipText`, `Json.escape`, `Json.writeText`.
-/
import LSystem.Json.Reader

namespace LSystem.Json

/-- The number a hexadecimal digit stands for. -/
def hexValue? (c : Char) : Option Nat :=
  if c.isDigit then some (c.toNat - '0'.toNat)
  else if 'a' ≤ c ∧ c ≤ 'f' then some (c.toNat - 'a'.toNat + 10)
  else if 'A' ≤ c ∧ c ≤ 'F' then some (c.toNat - 'A'.toNat + 10)
  else none

/-- How many bytes characters take. -/
def byteLength (cs : List Char) : Nat := cs.foldl (fun n c => n + c.utf8Size) 0

/-- The number of four hexadecimal digits. Fewer than four bytes left mean that the text ends
too early, whatever they are. -/
def hexQuad : Reader Nat := do
  match ← get with
  | a :: b :: c :: d :: rest =>
    match hexValue? a, hexValue? b, hexValue? c, hexValue? d with
    | some a, some b, some c, some d =>
      set rest
      return ((a * 16 + b) * 16 + c) * 16 + d
    | _, _, _, _ => malformed
  | cs => if byteLength cs < 4 then truncated else malformed

/-- The first half of a pair that stands for one character. -/
def isLeadingSurrogate (n : Nat) : Bool := 0xD800 ≤ n && n < 0xDC00

/-- The second half of a pair that stands for one character. -/
def isTrailingSurrogate (n : Nat) : Bool := 0xDC00 ≤ n && n < 0xE000

/-- The character of a pair of surrogates. -/
def pairedChar (leading trailing : Nat) : Char :=
  Char.ofNat (0x10000 + (leading - 0xD800) * 0x400 + (trailing - 0xDC00))

/-- The rest of an escape by number. -/
def numberedChar : Reader Char := do
  let first ← hexQuad
  if isTrailingSurrogate first then malformed
  else if isLeadingSurrogate first then
    word ['\\', 'u']
    let second ← hexQuad
    if isTrailingSurrogate second then return pairedChar first second else malformed
  else return Char.ofNat first

/-- The rest of an escape behind its backslash; `numbered` reads one by number. -/
def escapeWith (numbered : Reader Char) : Reader Char := do
  match ← next with
  | '"' => return '"'
  | '\\' => return '\\'
  | '/' => return '/'
  | 'b' => return '\x08'
  | 'f' => return '\x0c'
  | 'n' => return '\n'
  | 'r' => return '\r'
  | 't' => return '\t'
  | 'u' => numbered
  | _ => malformed

/-- The character of an escape behind its backslash. -/
def escape : Reader Char := escapeWith numberedChar

/-- The characters up to the closing quote, behind those found already in reverse. -/
def textFrom (escape : Reader Char) (found : List Char) : Nat → Reader String
  | 0 => truncated
  | fuel + 1 => do
    match ← next with
    | '"' => return .ofList found.reverse
    | '\\' => textFrom escape ((← escape) :: found) fuel
    | c => if c.toNat < 0x20 then malformed else textFrom escape (c :: found) fuel

/-- Reads a string from its opening quote on. -/
def text : Reader String := do
  word ['"']
  repeated (textFrom escape [])

/-- Skips a string from its opening quote on; an escape by number may be any. -/
def skipText : Reader Unit := do
  word ['"']
  discard (repeated (textFrom (escapeWith do discard hexQuad; return ' ') []))

/-- The digits of an escape by number. -/
def writeHexQuad (n : Nat) : List Char :=
  [n / 4096 % 16, n / 256 % 16, n / 16 % 16, n % 16].map fun d =>
    Char.ofNat (if d < 10 then '0'.toNat + d else 'a'.toNat + (d - 10))

/-- A character inside a string. -/
def writeChar (c : Char) : List Char :=
  match c with
  | '"' => ['\\', '"']
  | '\\' => ['\\', '\\']
  | '\x08' => ['\\', 'b']
  | '\x0c' => ['\\', 'f']
  | '\n' => ['\\', 'n']
  | '\r' => ['\\', 'r']
  | '\t' => ['\\', 't']
  | c => if c.toNat < 0x20 then '\\' :: 'u' :: writeHexQuad c.toNat else [c]

/-- A string between its quotes. -/
def writeText (s : String) : List Char := '"' :: s.toList.flatMap writeChar ++ ['"']

end LSystem.Json
