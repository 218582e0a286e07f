/-
# Scanning a command string

A scanner reads a string one character at a time. A digit is no token: it extends
the multiplier that waits for the next turn, and letters, brackets and characters
outside the alphabet leave that multiplier as it is. What is still waiting when the
string ends is lost.

Key definitions: `Scanner`, `Scanner.feed`, `Scanner.run`, `Token.scan`.
Key theorems: `Scanner.tokens_foldl_feed`, `Scanner.pending_foldl_feed`.
-/
import LSystem.Token

namespace LSystem

/-- The largest multiplier; longer runs of digits stay there. -/
def Token.maxMultiplier : Nat := UInt64.size - 1

/-- The token a character gives after digits that spell `pending`; characters outside the
alphabet, and digits, give none. -/
def Token.ofChar? (pending : Nat) (c : Char) : Option Token :=
  match c with
  | '+' => some (.turn .right pending)
  | '-' => some (.turn .left pending)
  | '[' => some .push
  | ']' => some .pop
  | '<' => some .enterScale
  | '>' => some .exitScale
  | '|' => some .forcedDraw
  | c => if c.isAlpha then some (.symbol c) else none

/-- What has been read of a command string. -/
structure Scanner where
  /-- The multiplier that waits for a turn. -/
  pending : Nat := 0
  /-- The tokens found so far, in order. -/
  tokens : Array Token := #[]

namespace Scanner

/-- The waiting multiplier after a character: a digit extends it, a turn uses it up, and
everything else leaves it. -/
def pendingAfter (pending : Nat) (c : Char) : Nat :=
  if c.isDigit then min (10 * pending + Decimal.digitValue c) Token.maxMultiplier
  else if c = '+' || c = '-' then 0
  else pending

/-- Reads one character. -/
def feed (s : Scanner) (c : Char) : Scanner :=
  match Token.ofChar? s.pending c with
  | some t => ⟨pendingAfter s.pending c, s.tokens.push t⟩
  | none => ⟨pendingAfter s.pending c, s.tokens⟩

/-- Reads a whole string. -/
def run (s : String) : Scanner := s.toList.foldl feed {}

@[simp] theorem pending_feed (s : Scanner) (c : Char) :
    (s.feed c).pending = pendingAfter s.pending c := by
  rw [feed]
  split <;> rfl

theorem toList_tokens_feed (s : Scanner) (c : Char) :
    (s.feed c).tokens.toList = s.tokens.toList ++ (Token.ofChar? s.pending c).toList := by
  rw [feed]
  split <;> next h => simp [h]

theorem tokens_foldl_feed (cs : List Char) (pending : Nat) (found : Array Token) :
    (cs.foldl feed ⟨pending, found⟩).tokens.toList =
      found.toList ++ (cs.foldl feed ⟨pending, #[]⟩).tokens.toList := by
  induction cs generalizing pending found with
  | nil => simp
  | cons c cs ih =>
    simp only [List.foldl_cons]
    have h (s : Scanner) : s = ⟨s.pending, s.tokens⟩ := rfl
    rw [h (feed _ c), ih, h (feed ⟨pending, #[]⟩ c), ih _ (feed ⟨pending, #[]⟩ c).tokens]
    simp [toList_tokens_feed]

theorem pending_foldl_feed (cs : List Char) (s : Scanner) :
    (cs.foldl feed s).pending = cs.foldl pendingAfter s.pending := by
  induction cs generalizing s with
  | nil => rfl
  | cons c cs ih => simp [ih]

end Scanner

/-- The tokens of a command string, in order. -/
def Token.scan (s : String) : List Token := (Scanner.run s).tokens.toList

end LSystem
