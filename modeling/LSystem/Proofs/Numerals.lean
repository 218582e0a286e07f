/-
# The numeral of a turn

Each letter of a command string and each of its seven marks gives one token, and no other
character gives one. Only the tokens of `+` and `-` hold more than their character: the number that
waits when they are read. It is built up digit by digit and cut off at a machine word each time,
while letters, brackets and characters outside the alphabet come between the digits. What waits is
nevertheless one number cut off once: the one spelled by all digits behind the last turn
(`pending_eq_numeral`), since a number that is cut off stays cut off behind more digits.

Key definitions: `inAlphabet`, `Token.StandsFor`, `sinceTurn`, `numeral`.
Key theorems: `forall₂_standsFor_scan`, `pending_eq_numeral`, `scan_numerals`.
-/
import Mathlib.Data.List.DropRight
import Mathlib.Data.List.Forall2
import LSystem.Proofs.Closed

namespace LSystem

open Scanner (tokensAfter tokensAfter_cons tokensAfter_append pendingAfter)

/-! ### One token for each character of the alphabet -/

/-- The letters and the marks that stand for a token. -/
def inAlphabet (c : Char) : Bool :=
  c.isAlpha || ['+', '-', '[', ']', '<', '>', '|'].contains c

/-- The character that a token stands for, by its kind. -/
def Token.StandsFor (c : Char) : Token → Prop
  | symbol letter => letter = c ∧ c.isAlpha = true
  | turn .right _ => c = '+'
  | turn .left _ => c = '-'
  | push => c = '['
  | pop => c = ']'
  | enterScale => c = '<'
  | exitScale => c = '>'
  | forcedDraw => c = '|'

theorem forall₂_standsFor_ofChar? (pending : Nat) (c : Char) :
    List.Forall₂ Token.StandsFor ([c].filter inAlphabet) (Token.ofChar? pending c).toList := by
  unfold Token.ofChar?
  split
  case h_8 hplus hminus hpush hpop henter hexit hdraw =>
    by_cases halpha : c.isAlpha = true
    · have hin : inAlphabet c = true := by simp [inAlphabet, halpha]
      simp [hin, halpha, Token.StandsFor]
    · have hout : inAlphabet c = false := by
        simpa [inAlphabet, halpha] using ⟨hplus, hminus, hpush, hpop, henter, hexit, hdraw⟩
      simp [hout, halpha]
  all_goals exact .cons rfl .nil

theorem forall₂_standsFor_tokensAfter : ∀ (cs : List Char) (pending : Nat),
    List.Forall₂ Token.StandsFor (cs.filter inAlphabet) (tokensAfter pending cs)
  | [], _ => .nil
  | c :: cs, pending => by
    rw [← List.singleton_append, List.filter_append, List.singleton_append, tokensAfter_cons]
    exact List.rel_append (forall₂_standsFor_ofChar? pending c)
      (forall₂_standsFor_tokensAfter cs (pendingAfter pending c))

theorem forall₂_standsFor_scan (s : String) :
    List.Forall₂ Token.StandsFor (s.toList.filter inAlphabet) (Token.scan s) :=
  forall₂_standsFor_tokensAfter s.toList 0

/-! ### The number that waits -/

/-- What stands behind the last turn. -/
def sinceTurn (cs : List Char) : List Char := cs.rtakeWhile fun c => !(c = '+' || c = '-')

/-- The number spelled by all digits behind the last turn, whatever stands between them. -/
def numeral (cs : List Char) : Nat := Decimal.ofDigits ((sinceTurn cs).filter Char.isDigit)

theorem sinceTurn_concat (cs : List Char) (c : Char) :
    sinceTurn (cs ++ [c]) = if c = '+' || c = '-' then [] else sinceTurn cs ++ [c] := by
  unfold sinceTurn
  split
  · next hturn =>
    exact List.rtakeWhile_concat_neg (fun c => !(c = '+' || c = '-')) cs c (by simp [hturn])
  · next hgo =>
    exact List.rtakeWhile_concat_pos (fun c => !(c = '+' || c = '-')) cs c (by simp [hgo])

theorem numeral_concat (cs : List Char) (c : Char) :
    numeral (cs ++ [c]) =
      if c.isDigit then 10 * numeral cs + Decimal.digitValue c
      else if c = '+' || c = '-' then 0
      else numeral cs := by
  unfold numeral
  rw [sinceTurn_concat]
  by_cases hturn : (c = '+' || c = '-') = true
  · have hc : c = '+' ∨ c = '-' := by simpa using hturn
    have hdigit : c.isDigit = false := by rcases hc with rfl | rfl <;> rfl
    rw [if_pos hturn, hdigit, if_neg Bool.false_ne_true, if_pos hturn]
    rfl
  · rw [if_neg hturn, if_neg hturn, List.filter_append, Decimal.ofDigits, Decimal.extend_append]
    cases hdigit : c.isDigit with
    | true => simp [hdigit, Decimal.ofDigits, Decimal.extend]
    | false => simp [hdigit, Decimal.ofDigits, Decimal.extend]

/-- **What waits is the numeral**, cut off at a machine word. -/
theorem pending_eq_numeral (cs : List Char) :
    cs.foldl pendingAfter 0 = min Token.maxMultiplier (numeral cs) := by
  induction cs using List.reverseRecOn with
  | nil => rfl
  | append_singleton cs c ih =>
    rw [List.foldl_append, List.foldl_cons, List.foldl_nil, ih, numeral_concat, pendingAfter]
    split
    · -- cutting off before a digit comes to nothing beside cutting off behind it
      omega
    · split
      · exact (Nat.min_zero _).symm
      · rfl

/-- **The tokens of a command string.** They stand for its letters and marks, one for each and in
order, and each turn is multiplied by the number that is spelled by all digits between it and the
turn before it, or by the greatest machine word if that is less. -/
theorem scan_numerals :
    (∀ s : String,
      List.Forall₂ Token.StandsFor (s.toList.filter inAlphabet) (Token.scan s)) ∧
    ∀ (a b : String) (d : Direction),
      (Token.scan (a ++ .singleton d.symbol ++ b))[(a.toList.filter inAlphabet).length]? =
        some (.turn d (min 18446744073709551615 (numeral a.toList))) := by
  refine ⟨forall₂_standsFor_scan, fun a b d => ?_⟩
  have hlength : (a.toList.filter inAlphabet).length = (tokensAfter 0 a.toList).length :=
    (forall₂_standsFor_tokensAfter a.toList 0).length_eq
  have hturn (pending : Nat) : Token.ofChar? pending d.symbol = some (.turn d pending) := by
    cases d <;> rfl
  rw [Scanner.scan_eq_tokensAfter, String.toList_append, String.toList_append,
    String.toList_singleton, List.append_assoc, tokensAfter_append, hlength, List.singleton_append,
    tokensAfter_cons, hturn, pending_eq_numeral]
  simp [Token.maxMultiplier]

/-- Digits on both sides of a letter spell one number, and a turn begins a new one. -/
example : Token.scan "1F0+é2-" = [.symbol 'F', .turn .right 10, .turn .left 2] := by decide

end LSystem
