/-
# Decimal digits of natural numbers

`digits` writes a number without leading zeros and `ofDigits` is the number a run
of digits spells; `ofDigits_digits` says that the second undoes the first.

Key definitions: `Decimal.digits`, `Decimal.ofDigits`, `Decimal.digitValue`.
Key theorems: `Decimal.ofDigits_digits`, `Decimal.isDigit_of_mem_digits`,
`Decimal.length_digits_le`, `Decimal.utf8ByteSize_digits`.
-/
namespace LSystem.Decimal

/-- The character of a digit below ten. -/
def digit (n : Nat) : Char := Char.ofNat ('0'.toNat + n)

/-- The number a digit stands for. -/
def digitValue (c : Char) : Nat := c.toNat - '0'.toNat

/-- The decimal digits of `n`, most significant first; zero is `0`. -/
def digits (n : Nat) : List Char :=
  if n < 10 then [digit n] else digits (n / 10) ++ [digit (n % 10)]
termination_by n

/-- The number spelled by digits that follow others of value `start`. -/
def extend (start : Nat) (cs : List Char) : Nat :=
  cs.foldl (fun n c => 10 * n + digitValue c) start

/-- The number a run of digits spells; no digits spell zero. -/
def ofDigits (cs : List Char) : Nat := extend 0 cs

theorem digitValue_digit {n : Nat} (h : n < 10) : digitValue (digit n) = n := by
  match n, h with
  | 0, _ | 1, _ | 2, _ | 3, _ | 4, _ | 5, _ | 6, _ | 7, _ | 8, _ | 9, _ => rfl

theorem isDigit_digit {n : Nat} (h : n < 10) : (digit n).isDigit = true := by
  match n, h with
  | 0, _ | 1, _ | 2, _ | 3, _ | 4, _ | 5, _ | 6, _ | 7, _ | 8, _ | 9, _ => rfl

theorem extend_append (start : Nat) (cs ds : List Char) :
    extend start (cs ++ ds) = extend (extend start cs) ds := by
  simp [extend]

theorem ofDigits_digits (n : Nat) : ofDigits (digits n) = n := by
  fun_induction digits n with
  | case1 n h => simp [ofDigits, extend, digitValue_digit h]
  | case2 n h ih =>
    rw [ofDigits, extend_append, ← ofDigits, ih]
    simp only [extend, List.foldl_cons, List.foldl_nil, digitValue_digit (Nat.mod_lt n (by decide))]
    omega

theorem isDigit_of_mem_digits {n : Nat} {c : Char} (h : c ∈ digits n) : c.isDigit = true := by
  fun_induction digits n with
  | case1 n hn =>
    rw [List.mem_singleton.mp h]
    exact isDigit_digit hn
  | case2 n hn ih =>
    rcases List.mem_append.mp h with h | h
    · exact ih h
    · rw [List.mem_singleton.mp h]
      exact isDigit_digit (Nat.mod_lt n (by decide))

theorem length_digits_le {n k : Nat} (hk : 0 < k) (h : n < Nat.pow 10 k) :
    (digits n).length ≤ k := by
  fun_induction digits n generalizing k with
  | case1 n hn => exact hk
  | case2 n hn ih =>
    cases k with
    | zero => omega
    | succ k =>
      have hpow : Nat.pow 10 (k + 1) = Nat.pow 10 k * 10 := rfl
      have hpos : 0 < k := by
        rcases Nat.eq_zero_or_pos k with rfl | hpos
        · exact absurd h hn
        · exact hpos
      have hrest : (digits (n / 10)).length ≤ k := ih hpos (by omega)
      rw [List.length_append, List.length_singleton]
      omega

theorem utf8Size_digit {n : Nat} (h : n < 10) : (digit n).utf8Size = 1 := by
  match n, h with
  | 0, _ | 1, _ | 2, _ | 3, _ | 4, _ | 5, _ | 6, _ | 7, _ | 8, _ | 9, _ => rfl

theorem utf8ByteSize_digits (n : Nat) :
    (String.ofList (digits n)).utf8ByteSize = (digits n).length := by
  fun_induction digits n with
  | case1 n h =>
    rw [← String.singleton_eq_ofList, String.utf8ByteSize_singleton, utf8Size_digit h,
      List.length_singleton]
  | case2 n h ih =>
    rw [String.ofList_append, String.utf8ByteSize_append, ih, ← String.singleton_eq_ofList,
      String.utf8ByteSize_singleton, utf8Size_digit (Nat.mod_lt n (by decide)), List.length_append,
      List.length_singleton]

end LSystem.Decimal
