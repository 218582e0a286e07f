/-
# Numbers are read back as they are written

A number is written as a spelling of its value, wherever the layout puts the point
(`Json.spells_writeDecimal`). The shortest decimal of a finite double reads as its magnitude, so the
double is read back bit by bit; one that is not finite is found to be a null (`Json.float_writeReal`).
The digits of a natural number are read back as long as it fits the word it is read as.

Key definitions: `Json.Spells`.
Key theorems: `Json.spells_writeDecimal`, `Json.float_writeReal`, `Json.natural_digits`.
-/
import LSystem.Json.Document
import LSystem.Proofs.DoubleWords
import LSystem.Proofs.ReadNumber
import LSystem.Proofs.ShortestDecimal

namespace LSystem

namespace Decimal

/-! ### Digits as they are written -/

theorem digits_ne_nil (n : Nat) : digits n ≠ [] := by
  unfold digits
  split
  · simp
  · simp

theorem digits_eq_of_head? {n : Nat} (h : (digits n).head? = some '0') : digits n = ['0'] := by
  fun_induction digits n with
  | case1 n hn => simpa using h
  | case2 n hn ih =>
    obtain ⟨c, cs, hcs⟩ := List.exists_cons_of_ne_nil (digits_ne_nil (n / 10))
    have hzero : digits (n / 10) = ['0'] := by
      apply ih
      simpa [hcs] using h
    have hvalue := ofDigits_digits (n / 10)
    rw [hzero] at hvalue
    have hten : n / 10 = 0 := hvalue.symm
    omega

end Decimal

namespace Json

variable {rest : List Char}

theorem isRun_digits (n : Nat) : IsRun (Decimal.digits n) :=
  ⟨Decimal.digits_ne_nil n, fun _ => Decimal.isDigit_of_mem_digits⟩

/-! ### Numbers as they are written -/

/-- The text spells a decimal, with a point or an exponent. -/
def Spells (cs : List Char) (d : Decimal) : Prop :=
  ∀ negative, ∃ s : Spelling, s.text = Spelling.signText negative ++ cs ∧
    s.number? = (d.toFloat? negative).map .real

/-- Digits around a point, or with an exponent, spell the decimal that all of them make up. -/
theorem spells_of {whole : List Char} {fraction : Option (List Char)}
    {exponent : Option ExponentSpelling} {d : Decimal} (hwhole : IsRun whole)
    (hzero : whole.head? = some '0' → whole = ['0']) (hfraction : ∀ ds ∈ fraction, IsRun ds)
    (hreal : (fraction.isNone && exponent.isNone) = false)
    (hlength : whole.length + (fraction.getD []).length ≤ digitLimit)
    (hvalue : Decimal.magnitude? ⟨Decimal.ofDigits (whole ++ fraction.getD []),
      (exponent.map ExponentSpelling.value).getD 0 - (fraction.getD []).length⟩ = d.magnitude?) :
    Spells (whole ++ (Spelling.fractionText fraction ++ Spelling.exponentText exponent)) d := by
  intro negative
  refine ⟨⟨negative, whole, fraction, exponent, hwhole, hzero, hfraction⟩, rfl, ?_⟩
  rw [Spelling.number?, hreal, if_neg Bool.false_ne_true, Number.ofLiteral?, Decimal.toFloat?,
    Decimal.toFloat?, magnitude?_literal _ hlength, hvalue]

section Layouts

variable {ds : List Char} {d : Decimal} {k : Nat}

theorem spells_append_zeros (hrun : IsRun ds) (hhead : ds.head? = some '0' → ds = ['0'])
    (hvalue : Decimal.ofDigits ds = d.significand) (hexponent : d.exponent = k)
    (hzero : d.significand = 0 → d.exponent = 0) (hlength : ds.length + k + 1 ≤ digitLimit) :
    Spells (ds ++ List.replicate k '0' ++ ['.', '0']) d := by
  obtain ⟨s, x⟩ := d
  obtain rfl : x = k := hexponent
  have htext : ds ++ List.replicate k '0' ++ ['.', '0'] = (ds ++ List.replicate k '0') ++
      (Spelling.fractionText (some ['0']) ++ Spelling.exponentText none) := rfl
  rw [htext]
  refine spells_of ⟨?_, ?_⟩ ?_ ?_ rfl ?_ ?_
  · simp [hrun.1]
  · intro c hc
    rcases List.mem_append.mp hc with hc | hc
    · exact hrun.2 c hc
    · rw [List.eq_of_mem_replicate hc]
      rfl
  · intro hfirst
    obtain ⟨c, cs, hcs⟩ := List.exists_cons_of_ne_nil hrun.1
    have hsingle : ds = ['0'] := hhead (by simpa [hcs] using hfirst)
    have hs : s = Decimal.ofDigits ['0'] := by rw [← hsingle, hvalue]
    have hk : k = 0 := Int.natCast_eq_zero.mp (hzero hs)
    rw [hsingle, hk]
    rfl
  · rintro _ ⟨⟩
    exact ⟨by simp, by simp⟩
  · simp only [List.length_append, List.length_replicate, Option.getD_some, List.length_singleton]
    omega
  · have hzeros : List.replicate k '0' ++ ['0'] = List.replicate (k + 1) '0' :=
      List.replicate_succ'.symm
    have hshift : (0 : Int) - (1 : Nat) + (k + 1 : Nat) = k := by omega
    show Decimal.magnitude? ⟨Decimal.ofDigits (ds ++ List.replicate k '0' ++ ['0']),
      (0 : Int) - (1 : Nat)⟩ = _
    rw [List.append_assoc, hzeros, Decimal.ofDigits_append_zeros, Decimal.magnitude?_shift,
      hshift, hvalue]

/-- A point between digits makes as many of them a fraction as the exponent says. -/
theorem spells_split (hrun : IsRun ds) (hhead : ds.head? = some '0' → ds = ['0'])
    (hvalue : Decimal.ofDigits ds = d.significand) (hexponent : d.exponent = -k) (hpos : 0 < k)
    (hk : k < ds.length) (hlength : ds.length ≤ digitLimit) :
    Spells (ds.take (ds.length - k) ++ '.' :: ds.drop (ds.length - k)) d := by
  have htext : ds.take (ds.length - k) ++ '.' :: ds.drop (ds.length - k) =
      ds.take (ds.length - k) ++ (Spelling.fractionText (some (ds.drop (ds.length - k))) ++
        Spelling.exponentText none) := congrArg _ (List.append_nil _).symm
  rw [htext]
  refine spells_of ⟨?_, ?_⟩ ?_ ?_ rfl ?_ ?_
  · rw [Ne, List.take_eq_nil_iff]
    rintro (hnone | hnil)
    · omega
    · exact hrun.1 hnil
  · exact fun c hc => hrun.2 c (List.mem_of_mem_take hc)
  · intro hfirst
    rw [List.head?_take, if_neg (by omega)] at hfirst
    have hsingle : ds.length = 1 := congrArg List.length (hhead hfirst)
    omega
  · rintro _ ⟨⟩
    refine ⟨?_, fun c hc => hrun.2 c (List.mem_of_mem_drop hc)⟩
    rw [Ne, List.drop_eq_nil_iff]
    omega
  · simp only [Option.getD_some, List.length_take, List.length_drop]
    omega
  · have hlast : (0 : Int) - ((ds.length - (ds.length - k) : Nat) : Int) = d.exponent := by omega
    simp only [Option.getD_some, Option.map_none, Option.getD_none, List.take_append_drop,
      List.length_drop]
    rw [hlast, hvalue]

theorem spells_zeros_append (hrun : IsRun ds) (hvalue : Decimal.ofDigits ds = d.significand)
    (hexponent : d.exponent = -(k + ds.length : Nat)) (hlength : 1 + k + ds.length ≤ digitLimit) :
    Spells ('0' :: '.' :: (List.replicate k '0' ++ ds)) d := by
  have htext : '0' :: '.' :: (List.replicate k '0' ++ ds) = ['0'] ++
      (Spelling.fractionText (some (List.replicate k '0' ++ ds)) ++ Spelling.exponentText none) :=
    congrArg (fun cs => '0' :: '.' :: cs) (List.append_nil _).symm
  rw [htext]
  refine spells_of ⟨by simp, by simp⟩ (fun _ => rfl) ?_ rfl ?_ ?_
  · rintro _ ⟨⟩
    refine ⟨by simp [hrun.1], ?_⟩
    intro c hc
    rcases List.mem_append.mp hc with hc | hc
    · rw [List.eq_of_mem_replicate hc]
      rfl
    · exact hrun.2 c hc
  · simp only [Option.getD_some, List.length_append, List.length_replicate, List.length_singleton]
    omega
  · have hzeros : Decimal.ofDigits (['0'] ++ (List.replicate k '0' ++ ds)) = Decimal.ofDigits ds := by
      have hone : ['0'] = List.replicate 1 '0' := rfl
      rw [hone, Decimal.ofDigits_zeros_append, Decimal.ofDigits_zeros_append]
    have hlast : (0 : Int) - ((k + ds.length : Nat) : Int) = d.exponent := by omega
    simp only [Option.getD_some, Option.map_none, Option.getD_none, List.length_append,
      List.length_replicate]
    rw [hzeros, hlast, hvalue]

/-- The sign an exponent is written with. -/
def exponentSign (x : Int) : Char := if x < 0 then '-' else '+'

/-- An exponent as it is written. -/
def writtenExponent (x : Int) : ExponentSpelling where
  mark := 'e'
  sign := some (exponentSign x)
  digits := Decimal.digits x.natAbs
  mark_eq := .inl rfl
  sign_eq := by
    rintro _ ⟨⟩
    unfold exponentSign
    split
    · exact .inr rfl
    · exact .inl rfl
  run := isRun_digits _

theorem value_writtenExponent (x : Int) : (writtenExponent x).value = x := by
  show (if some (exponentSign x) = some '-' then -(Decimal.ofDigits (Decimal.digits x.natAbs) : Int)
    else Decimal.ofDigits (Decimal.digits x.natAbs)) = x
  rw [Decimal.ofDigits_digits]
  by_cases hneg : x < 0
  · have hsign : exponentSign x = '-' := if_pos hneg
    rw [if_pos (congrArg some hsign)]
    omega
  · have hsign : exponentSign x = '+' := if_neg hneg
    rw [if_neg (by simp [hsign])]
    omega

theorem text_writtenExponent (x : Int) : (writtenExponent x).text =
    'e' :: (if x < 0 then ['-'] else if numberLayout.plusSign then ['+'] else []) ++
      Decimal.digits x.natAbs := by
  show 'e' :: ([exponentSign x] ++ _) = _
  by_cases hneg : x < 0
  · have hsign : exponentSign x = '-' := if_pos hneg
    rw [if_pos hneg, hsign]
    rfl
  · have hsign : exponentSign x = '+' := if_neg hneg
    rw [if_neg hneg, hsign]
    rfl

theorem spells_scientific (hrun : IsRun ds) (hvalue : Decimal.ofDigits ds = d.significand)
    (hlength : ds.length ≤ digitLimit) :
    Spells (numberLayout.scientific ds (d.exponent + ds.length - 1)) d := by
  generalize hx : d.exponent + ds.length - 1 = x
  obtain ⟨c, cs, rfl⟩ := List.exists_cons_of_ne_nil hrun.1
  have hc : c.isDigit = true := hrun.2 c List.mem_cons_self
  have hfirst : IsRun [c] := ⟨by simp, by simpa using hc⟩
  have hplain : [c].head? = some '0' → [c] = ['0'] := by simp
  cases cs with
  | nil =>
    have htext : numberLayout.scientific [c] x =
        [c] ++ (Spelling.fractionText none ++ Spelling.exponentText (some (writtenExponent x))) :=
      congrArg _ (text_writtenExponent x).symm
    rw [htext]
    refine spells_of hfirst hplain (by simp) rfl (by simpa using hlength) ?_
    have hlast : x - (0 : Nat) = d.exponent := by
      simp only [List.length_singleton] at hx
      omega
    simp only [Option.getD_none, Option.map_some, Option.getD_some, value_writtenExponent,
      List.append_nil, List.length_nil]
    rw [hlast, hvalue]
  | cons e cs =>
    have htext : numberLayout.scientific (c :: e :: cs) x = [c] ++
        (Spelling.fractionText (some (e :: cs)) ++
          Spelling.exponentText (some (writtenExponent x))) := by
      have hmantissa : numberLayout.scientific (c :: e :: cs) x = (c :: '.' :: e :: cs) ++
        'e' :: (if x < 0 then ['-'] else if numberLayout.plusSign then ['+'] else []) ++
          Decimal.digits x.natAbs := rfl
      rw [hmantissa, List.append_assoc, ← text_writtenExponent]
      rfl
    rw [htext]
    refine spells_of hfirst hplain ?_ rfl ?_ ?_
    · rintro _ ⟨⟩
      exact ⟨by simp, fun d hd => hrun.2 d (List.mem_cons_of_mem c hd)⟩
    · simp only [Option.getD_some, List.length_cons, List.length_nil] at hlength ⊢
      omega
    · have hlast : x - ((e :: cs).length : Int) = d.exponent := by
        simp only [List.length_cons] at hx ⊢
        omega
      simp only [Option.getD_some, Option.map_some, value_writtenExponent, List.singleton_append]
      rw [hlast, hvalue]

end Layouts

/-- **What is written for a decimal spells it**, wherever the layout puts the point. -/
theorem spells_writeDecimal {d : Decimal} (hsignificand : d.significand < Decimal.tenTo 18)
    (hzero : d.significand = 0 → d.exponent = 0) : Spells (numberLayout.writeDecimal d) d := by
  have hrun := isRun_digits d.significand
  have hhead := Decimal.digits_eq_of_head? (n := d.significand)
  have hvalue := Decimal.ofDigits_digits d.significand
  have hlength := Decimal.length_digits_le (by decide) hsignificand
  have hlimit : digitLimit = 768 := rfl
  simp only [Decimal.Layout.writeDecimal]
  generalize Decimal.digits d.significand = ds at hrun hhead hvalue hlength
  by_cases hpositional : numberLayout.leastPositional ≤ d.exponent + ds.length - 1 ∧
      d.exponent + ds.length - 1 ≤ numberLayout.greatestPositional
  · obtain ⟨hlo, hhi⟩ := hpositional
    have hleast : numberLayout.leastPositional = -5 := rfl
    have hgreatest : numberLayout.greatestPositional = 15 := rfl
    rw [if_pos ⟨hlo, hhi⟩]
    rw [hleast] at hlo
    rw [hgreatest] at hhi
    cases hx : d.exponent with
    | ofNat k =>
      have hk : d.exponent = k := hx
      exact spells_append_zeros hrun hhead hvalue hk hzero (by omega)
    | negSucc k =>
      have hk : d.exponent = -(k + 1 : Nat) := hx
      rw [Decimal.Layout.positional]
      by_cases hinside : k + 1 < ds.length
      · rw [if_pos hinside]
        exact spells_split hrun hhead hvalue hk (Nat.succ_pos k) hinside (by omega)
      · rw [if_neg hinside]
        exact spells_zeros_append hrun hvalue (by omega) (by omega)
  · rw [if_neg hpositional]
    exact spells_scientific hrun hvalue (by omega)

/-- A finite double is written by the decimal of its magnitude. -/
theorem exists_spelling_of_isFinite {x : Float} (hx : x.isFinite = true) :
    ∃ s : Spelling, s.text = Document.writeReal x ∧ s.number? = some (.real x) := by
  have hm : Binary64.magnitude x < Binary64.infinity := (Binary64.isFinite_iff x).mp hx
  obtain ⟨hreads, hsignificand⟩ := Decimal.shortest_spec numberLayout.half hm
  -- a significand of zero reads as zero, and zero has the exponent zero
  have hzero : (Decimal.shortest numberLayout.half (Binary64.magnitude x)).significand = 0 →
      (Decimal.shortest numberLayout.half (Binary64.magnitude x)).exponent = 0 := by
    intro h0
    have hnone : Binary64.magnitude x = 0 := by
      simpa [Decimal.magnitude?, h0, eq_comm] using hreads
    rw [hnone]
    rfl
  obtain ⟨s, htext, hnumber⟩ := spells_writeDecimal hsignificand hzero (Binary64.isNegative x)
  refine ⟨s, ?_, ?_⟩
  · rw [htext, Document.writeReal, if_pos hm, Decimal.Layout.write,
      if_neg (Nat.not_lt.mpr (Nat.le_of_lt hm)), Decimal.Layout.writeMagnitude,
      if_neg (Nat.ne_of_lt hm)]
    cases Binary64.isNegative x with
    | true => rfl
    | false => rfl
  · rw [hnumber, Decimal.toFloat?, hreads, Option.map_some, Option.map_some,
      Binary64.ofMagnitude_magnitude]

/-- **A double is read back bit by bit**, if it is finite; otherwise a null is found in its place. -/
theorem float_writeReal (x : Float) (hrest : EndsNumber rest) :
    float (Document.writeReal x ++ rest) =
      if x.isFinite then .ok (x, rest) else .error (.mismatch (.wrongType .null "f64")) := by
  by_cases hx : x.isFinite = true
  · obtain ⟨s, htext, hnumber⟩ := exists_spelling_of_isFinite hx
    obtain ⟨c, cs, hhead, hstarts, hblank⟩ := s.exists_head
    have hread : number (Document.writeReal x ++ rest) = .ok (.real x, rest) := by
      rw [← htext, s.number_append hrest, hnumber]
    have hpeek : peek (Document.writeReal x ++ rest) = .ok (c, Document.writeReal x ++ rest) := by
      rw [← htext, hhead]
      exact peek_cons hblank _
    rw [if_pos hx, float, bind_ok hpeek, if_pos hstarts]
    exact map_ok hread
  · have hm : ¬ Binary64.magnitude x < Binary64.infinity := fun h => hx ((Binary64.isFinite_iff x).mpr h)
    have hpeek : peek ("null".toList ++ rest) = .ok ('n', "null".toList ++ rest) :=
      peek_cons (by decide) _
    have hfound : found ("null".toList ++ rest) = .ok (.null, rest) := by
      rw [found, bind_ok hpeek]
      exact bind_ok (word_append _ _)
    rw [if_neg hx, Document.writeReal, if_neg hm, float, bind_ok hpeek, if_neg (by decide),
      unexpected, bind_ok hfound]
    rfl

/-- **A natural number is read back**, if it fits the word it is read as. -/
theorem natural_digits {n bound : Nat} (kind : String) (hn : n < bound)
    (hbound : bound ≤ UInt64.size) (hrest : EndsNumber rest) :
    natural bound kind (Decimal.digits n ++ rest) = .ok (n, rest) := by
  let s : Spelling :=
    ⟨false, Decimal.digits n, none, none, isRun_digits n, Decimal.digits_eq_of_head?, by simp⟩
  have htext : s.text = Decimal.digits n := List.append_nil _
  have hnumber : s.number? = some (.integer n) := by
    have hsize : n < UInt64.size := Nat.lt_of_lt_of_le hn hbound
    show Number.ofInteger? false (Decimal.digits n) = _
    simp only [Number.ofInteger?, Decimal.ofDigits_digits]
    rw [if_neg Bool.false_ne_true, if_pos hsize]
  obtain ⟨c, cs, hhead, hstarts, hblank⟩ := s.exists_head
  have hread : number (Decimal.digits n ++ rest) = .ok (.integer n, rest) := by
    rw [← htext, s.number_append hrest, hnumber]
  have hpeek : peek (Decimal.digits n ++ rest) = .ok (c, Decimal.digits n ++ rest) := by
    rw [← htext, hhead]
    exact peek_cons hblank _
  have hrange : (0 : Int) ≤ n ∧ (n : Int) < bound := by omega
  rw [natural, bind_ok hpeek, if_pos hstarts, bind_ok hread]
  show (if (0 : Int) ≤ n ∧ (n : Int) < bound then return (n : Int).toNat else _ : Reader Nat) rest = _
  rw [if_pos hrange]
  rfl

end Json
end LSystem
