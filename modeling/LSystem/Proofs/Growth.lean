/-
# How fast a derivation grows

A pass writes a body and two marks for a letter with a rule, and one byte for every other letter,
bracket or mark. Digits are no tokens: the multiplier that they spell is written at another place, in
front of the turn that it has waited for, and all digits in between end up there as one number. So
their bytes are paid for in advance. A digit that is read makes the waiting multiplier one digit
longer at most, and the turn writes no more digits than have been paid for
(`Rules.size_image_add_printed_le`). Over a whole string, every character then pays for itself and
every letter with a rule for its body (`Rules.size_pass_le_allowed`), which is `longestBody + 2` bytes
for one at most (`size_derive_le`).

Key definitions: `Decimal.printed`, `Rules.allowance`, `Rules.allowed`.
Key theorems: `Decimal.printed_extend_le`, `Rules.size_image_add_printed_le`,
`Rules.size_pass_le_allowed`, `size_derive_le`.
-/
import Mathlib.Algebra.Group.Nat.Defs
import LSystem.Proofs.BoundedDerivation

namespace LSystem

/-! ### How many digits a multiplier is written with -/

namespace Decimal

theorem lt_pow_length_digits (n : Nat) : n < Nat.pow 10 (digits n).length := by
  fun_induction digits n with
  | case1 n h => exact h
  | case2 n h ih =>
    have hpow : Nat.pow 10 ((digits (n / 10)).length + 1) =
      Nat.pow 10 (digits (n / 10)).length * 10 := rfl
    rw [List.length_append, List.length_singleton, hpow]
    omega

/-- How many digits a multiplier is written with; none if it is zero. -/
def printed (n : Nat) : Nat := if n = 0 then 0 else (digits n).length

theorem lt_pow_printed (n : Nat) : n < Nat.pow 10 (printed n) := by
  unfold printed
  split
  · next h => rw [h]; exact Nat.one_pos
  · exact lt_pow_length_digits n

theorem printed_le {n k : Nat} (h : n < Nat.pow 10 k) : printed n ≤ k := by
  unfold printed
  split
  · exact Nat.zero_le k
  · next hn =>
    have hk : 0 < k := by
      rcases Nat.eq_zero_or_pos k with rfl | hk
      · have hone : Nat.pow 10 0 = 1 := rfl
        omega
      · exact hk
    exact length_digits_le hk h

/-- A digit more, and the number is written with one digit more at most, also where it stays below
a limit. -/
theorem printed_extend_le (n limit : Nat) {d : Nat} (hd : d < 10) :
    printed (min (10 * n + d) limit) ≤ printed n + 1 := by
  have hn := lt_pow_printed n
  have hpow : Nat.pow 10 (printed n + 1) = Nat.pow 10 (printed n) * 10 := rfl
  exact printed_le (by omega)

theorem digitValue_lt {c : Char} (h : c.isDigit = true) : digitValue c < 10 := by
  have hdigit : ('0'.val ≤ c.val && c.val ≤ '9'.val) = true := h
  have hnine : c.val.toNat ≤ 57 := by
    simp [UInt32.le_iff_toNat_le] at hdigit
    exact hdigit.2
  have hvalue : digitValue c = c.val.toNat - 48 := rfl
  omega

end Decimal

open Decimal (printed)

theorem Token.size_written_turn (d : Direction) (multiplier : Nat) :
    (turn d multiplier).written.utf8ByteSize = printed multiplier + 1 := by
  have hsign : (String.singleton d.symbol).utf8ByteSize = 1 := by cases d <;> rfl
  rw [written, String.utf8ByteSize_append, hsign, printed]
  split
  · rfl
  · rw [Decimal.utf8ByteSize_digits]

theorem utf8Size_of_isAlpha {c : Char} (h : c.isAlpha = true) : c.utf8Size = 1 := by
  have hletter : (decide ('A'.val ≤ c.val ∧ c.val ≤ 'Z'.val) ||
      ('a'.val ≤ c.val && c.val ≤ 'z'.val)) = true := h
  rw [Char.utf8Size_eq_one_iff, UInt32.le_iff_toNat_le]
  simp [UInt32.le_iff_toNat_le] at hletter ⊢
  omega

namespace Rules

/-! ### What one character may be written as -/

/-- The bytes that a character pays for: those of the body and its marks for a letter with a rule, and
its own ones for any other character. -/
def allowance (rules : Rules) (c : Char) : Nat :=
  match if c.isAlpha then rules.body? c else none with
  | some body => body.utf8ByteSize + 2
  | none => c.utf8Size

/-- The bytes that characters pay for. -/
def allowed (rules : Rules) : List Char → Nat
  | [] => 0
  | c :: cs => rules.allowance c + rules.allowed cs

variable {rules : Rules}

theorem size_image_symbol {c : Char} (h : c.isAlpha = true) :
    (rules.image (.symbol c)).utf8ByteSize = rules.allowance c := by
  cases hbody : rules.body? c with
  | some body =>
    have hmarks : "<".utf8ByteSize = 1 ∧ ">".utf8ByteSize = 1 := by decide
    simp only [image, allowance, h, hbody, if_true, String.utf8ByteSize_append]
    omega
  | none =>
    simp only [image, allowance, h, hbody, if_true, Token.written,
      String.utf8ByteSize_singleton, utf8Size_of_isAlpha (isAlpha_canonical h),
      utf8Size_of_isAlpha h]

theorem allowance_of_unruled {c : Char} (h : c.isAlpha = true → rules.body? c = none) :
    rules.allowance c = c.utf8Size := by
  by_cases halpha : c.isAlpha = true
  · simp [allowance, h halpha]
  · simp [allowance, halpha]

variable (rules) in
/-- **What a character makes a pass write, and what it leaves to write**: a token, or a multiplier
that has got longer. Both together are paid for by the character and the multiplier before it. -/
theorem size_image_add_printed_le (pending : Nat) (c : Char) :
    ((Token.ofChar? pending c).elim "" rules.image).utf8ByteSize +
        printed (Scanner.pendingAfter pending c) ≤
      printed pending + rules.allowance c := by
  have hempty : "".utf8ByteSize = 0 := rfl
  by_cases halpha : c.isAlpha = true
  · rw [ofChar?_of_isAlpha pending halpha, Option.elim_some, size_image_symbol halpha,
      pendingAfter_of_isAlpha pending halpha]
    omega
  · rw [allowance_of_unruled fun h => absurd h halpha]
    by_cases hdigit : c.isDigit = true
    · have hlonger := Decimal.printed_extend_le pending Token.maxMultiplier
        (Decimal.digitValue_lt hdigit)
      have hpos : 0 < c.utf8Size := c.utf8Size_pos
      rw [ofChar?_of_isDigit pending hdigit, Option.elim_none, Scanner.pendingAfter, if_pos hdigit]
      omega
    · unfold Token.ofChar?
      split
      case h_1 => exact Nat.le_of_eq (Token.size_written_turn .right pending)
      case h_2 => exact Nat.le_of_eq (Token.size_written_turn .left pending)
      case h_8 hplus hminus _ _ _ _ _ =>
        have hturn : ¬ (c = '+' || c = '-') := by simpa using ⟨hplus, hminus⟩
        rw [if_neg halpha, Option.elim_none, Scanner.pendingAfter, if_neg hdigit, if_neg hturn]
        omega
      -- a bracket, a scale mark or a forced line is a byte and leaves the multiplier
      all_goals exact Nat.le_of_eq (Nat.add_comm 1 (printed pending))

/-! ### One pass -/

variable (rules) in
/-- Characters that are read behind a multiplier pay, together with it, for what they make a pass
write and for the multiplier that they leave. -/
theorem size_foldl_image_add_printed_le : ∀ (cs : List Char) (pending : Nat) (out : String),
    ((Scanner.tokensAfter pending cs).foldl (fun out t => out ++ rules.image t) out).utf8ByteSize +
        printed (cs.foldl Scanner.pendingAfter pending) ≤
      out.utf8ByteSize + printed pending + rules.allowed cs
  | [], _, _ => Nat.le_refl _
  | c :: cs, pending, out => by
    have hfirst := rules.size_image_add_printed_le pending c
    have hwritten : (Token.ofChar? pending c).toList.foldl (fun out t => out ++ rules.image t) out =
        out ++ (Token.ofChar? pending c).elim "" rules.image := by
      cases Token.ofChar? pending c with
      | none => exact String.append_empty.symm
      | some t => rfl
    -- what is left to write behind `c` is paid for by the characters behind it
    have hrest := size_foldl_image_add_printed_le cs (Scanner.pendingAfter pending c)
      (out ++ (Token.ofChar? pending c).elim "" rules.image)
    rw [String.utf8ByteSize_append] at hrest
    rw [Scanner.tokensAfter_cons, List.foldl_append, hwritten, List.foldl_cons, allowed]
    omega

variable (rules) in
/-- **A pass writes no more than the characters of its string pay for.** -/
theorem size_pass_le_allowed (s : String) :
    (rules.pass s).utf8ByteSize ≤ rules.allowed s.toList := by
  have h := rules.size_foldl_image_add_printed_le s.toList 0 ""
  have hstart : "".utf8ByteSize + printed 0 = 0 := rfl
  rw [hstart, Nat.zero_add] at h
  exact Nat.le_trans (Nat.le_add_right _ _) h

/-! ### What the characters of a string pay for -/

theorem allowance_le (c : Char) : rules.allowance c ≤ c.utf8Size * (rules.longestBody + 2) := by
  unfold allowance
  split
  · next body hbody =>
    have hsize : body.utf8ByteSize ≤ rules.longestBody :=
      size_body_le (Option.ite_none_right_eq_some.mp hbody).2
    calc body.utf8ByteSize + 2
      _ ≤ rules.longestBody + 2 := Nat.add_le_add_right hsize 2
      _ ≤ c.utf8Size * (rules.longestBody + 2) := Nat.le_mul_of_pos_left _ c.utf8Size_pos
  · exact Nat.le_mul_of_pos_right _ (Nat.succ_pos _)

variable (rules) in
theorem allowed_le : ∀ cs : List Char,
    rules.allowed cs ≤ (String.ofList cs).utf8ByteSize * (rules.longestBody + 2)
  | [] => Nat.zero_le _
  | c :: cs => by
    rw [String.ofList_cons, String.utf8ByteSize_append, String.utf8ByteSize_singleton, Nat.add_mul]
    exact Nat.add_le_add (allowance_le c) (allowed_le cs)

theorem allowed_of_unruled : ∀ cs : List Char,
    (∀ c ∈ cs, c.isAlpha = true → rules.body? c = none) →
      rules.allowed cs = (String.ofList cs).utf8ByteSize
  | [], _ => rfl
  | c :: cs, h => by
    have hfirst : rules.allowance c = c.utf8Size := allowance_of_unruled (h c List.mem_cons_self)
    rw [String.ofList_cons, String.utf8ByteSize_append, String.utf8ByteSize_singleton, allowed,
      hfirst, allowed_of_unruled cs fun d hd => h d (List.mem_cons_of_mem c hd)]

variable (rules) in
theorem size_pass_le (s : String) :
    (rules.pass s).utf8ByteSize ≤ s.utf8ByteSize * (rules.longestBody + 2) := by
  have h := Nat.le_trans (rules.size_pass_le_allowed s) (rules.allowed_le s.toList)
  rwa [String.ofList_toList] at h

theorem size_pass_le_of_unruled {s : String}
    (h : ∀ c ∈ s.toList, c.isAlpha = true → rules.body? c = none) :
    (rules.pass s).utf8ByteSize ≤ s.utf8ByteSize := by
  have hpass := rules.size_pass_le_allowed s
  rwa [allowed_of_unruled s.toList h, String.ofList_toList] at hpass

end Rules

/-- **How fast a derivation grows**: by no more than the longest body with its marks, each pass and
each byte. A pass that meets no letter with a rule does not make its string longer. -/
theorem size_derive_le (rules : Rules) :
    (∀ (n : Nat) (s : String),
      (rules.derive n s).utf8ByteSize ≤ s.utf8ByteSize * (rules.longestBody + 2) ^ n) ∧
    ∀ s : String, (∀ c ∈ s.toList, c.isAlpha = true → rules.body? c = none) →
      (rules.pass s).utf8ByteSize ≤ s.utf8ByteSize := by
  refine ⟨fun n => ?_, fun s h => Rules.size_pass_le_of_unruled h⟩
  induction n with
  | zero => exact fun s => Nat.le_of_eq (Nat.mul_one _).symm
  | succ n ih =>
    intro s
    calc (rules.derive n (rules.pass s)).utf8ByteSize
      _ ≤ (rules.pass s).utf8ByteSize * (rules.longestBody + 2) ^ n := ih (rules.pass s)
      _ ≤ s.utf8ByteSize * (rules.longestBody + 2) * (rules.longestBody + 2) ^ n :=
        Nat.mul_le_mul_right _ (rules.size_pass_le s)
      _ = s.utf8ByteSize * (rules.longestBody + 2) ^ (n + 1) := by
        rw [Nat.mul_assoc, ← Nat.pow_succ']

/-- Digits that move to a turn further on, in a body and in a string without rules. -/
theorem size_derive_le_digits :
    let rules := Rules.empty.insert 'F' "9F[2+"
    (rules.derive 3 "1F-").utf8ByteSize ≤ "1F-".utf8ByteSize * (rules.longestBody + 2) ^ 3 ∧
      (∀ c ∈ "0[1G2]3+".toList, c.isAlpha = true → rules.body? c = none) ∧
      (rules.pass "0[1G2]3+").utf8ByteSize ≤ "0[1G2]3+".utf8ByteSize := by
  intro rules
  have hunruled : ∀ c ∈ "0[1G2]3+".toList, c.isAlpha = true → rules.body? c = none := by
    intro c hc _
    have hne : c ≠ 'F' := by
      rintro rfl
      exact absurd hc (by decide)
    exact Rules.empty.body?_insert_ne hne "9F[2+"
  exact ⟨(size_derive_le rules).1 3 "1F-", hunruled, (size_derive_le rules).2 _ hunruled⟩

end LSystem
