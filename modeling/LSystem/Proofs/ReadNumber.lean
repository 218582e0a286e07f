/-
# Numbers are read as they are spelled

A number is spelled with a sign, digits before and after a point, and an exponent (`Json.Spelling`),
and `Json.Spelling.number_append` tells what reading any spelling gives, if the text behind it does
not go on with the number. The value of its digits does not depend on how they are split by the point,
nor on zeros at either end (`Json.magnitude?_literal`).

Key definitions: `Json.EndsNumber`, `Json.Spelling`, `Json.Spelling.number?`.
Key theorems: `Json.Spelling.parts_append`, `Json.Spelling.number_append`,
`Decimal.ofDigits_append`, `Json.magnitude?_literal`.
-/
import LSystem.Proofs.NearestDouble
import LSystem.Proofs.ReadSteps

namespace LSystem

namespace Json

/-! ### Spellings -/

/-- Digits, one or more. -/
def IsRun (ds : List Char) : Prop := ds ≠ [] ∧ ∀ c ∈ ds, c.isDigit = true

/-- How an exponent is spelled. -/
structure ExponentSpelling where
  mark : Char
  sign : Option Char
  digits : List Char
  mark_eq : mark = 'e' ∨ mark = 'E'
  sign_eq : ∀ c ∈ sign, c = '+' ∨ c = '-'
  run : IsRun digits

/-- The exponent that is spelled. -/
def ExponentSpelling.value (e : ExponentSpelling) : Int :=
  if e.sign = some '-' then -(Decimal.ofDigits e.digits : Int) else Decimal.ofDigits e.digits

def ExponentSpelling.text (e : ExponentSpelling) : List Char :=
  e.mark :: (e.sign.toList ++ e.digits)

/-- How a number is spelled. -/
structure Spelling where
  negative : Bool
  whole : List Char
  fraction : Option (List Char)
  exponent : Option ExponentSpelling
  whole_run : IsRun whole
  /-- The first digit is a zero only if it is alone. -/
  whole_eq : whole.head? = some '0' → whole = ['0']
  fraction_run : ∀ ds ∈ fraction, IsRun ds

namespace Spelling

/-- The sign of a number. -/
def signText (negative : Bool) : List Char := if negative then ['-'] else []

/-- The fraction of a number behind its point. -/
def fractionText (fraction : Option (List Char)) : List Char := fraction.elim [] ('.' :: ·)

/-- The exponent of a number. -/
def exponentText (exponent : Option ExponentSpelling) : List Char :=
  exponent.elim [] ExponentSpelling.text

/-- The spelling as a text. -/
def text (s : Spelling) : List Char :=
  signText s.negative ++ (s.whole ++ (fractionText s.fraction ++ exponentText s.exponent))

/-- The number that is spelled, if there is one. -/
def number? (s : Spelling) : Option Number :=
  if s.fraction.isNone && s.exponent.isNone then Number.ofInteger? s.negative s.whole
  else Number.ofLiteral? s.negative s.whole (s.fraction.getD [])
    ((s.exponent.map ExponentSpelling.value).getD 0)

end Spelling

/-- A character that goes on with a number. -/
def continuesNumber (c : Char) : Bool := c.isDigit || c = '.' || c = 'e' || c = 'E'

/-- A text that does not go on with a number. -/
def EndsNumber (cs : List Char) : Prop := ∀ c ∈ cs.head?, continuesNumber c = false

theorem endsNumber_nil : EndsNumber [] := by simp [EndsNumber]

theorem endsNumber_cons {c : Char} (h : continuesNumber c = false) (cs : List Char) :
    EndsNumber (c :: cs) := by simp [EndsNumber, h]

/-! ### Reading a spelling -/

variable {ds rest : List Char}

theorem takeDigits_append (h : ∀ c ∈ ds, c.isDigit = true) (hrest : ∀ c ∈ rest.head?, c.isDigit = false) :
    takeDigits (ds ++ rest) = .ok (ds, rest) := by
  have hstop : rest.takeWhile Char.isDigit = [] ∧ rest.dropWhile Char.isDigit = rest := by
    cases rest with
    | nil => exact ⟨rfl, rfl⟩
    | cons c cs =>
      have hc : ¬ c.isDigit = true := by simp [hrest c rfl]
      exact ⟨List.takeWhile_cons_of_neg hc, List.dropWhile_cons_of_neg hc⟩
  have hread : takeDigits (ds ++ rest) =
      .ok ((ds ++ rest).takeWhile Char.isDigit, (ds ++ rest).dropWhile Char.isDigit) := rfl
  rw [hread, List.takeWhile_append_of_pos h, List.dropWhile_append_of_pos h, hstop.1, hstop.2,
    List.append_nil]

theorem someDigits_append (h : IsRun ds) (hrest : ∀ c ∈ rest.head?, c.isDigit = false) :
    someDigits (ds ++ rest) = .ok (ds, rest) := by
  obtain ⟨hne, hdigits⟩ := h
  obtain ⟨c, cs, rfl⟩ := List.exists_cons_of_ne_nil hne
  have hc : c.isDigit = true := hdigits c List.mem_cons_self
  rw [someDigits, bind_ok (get_apply _)]
  show (if c.isDigit then takeDigits else malformed) (c :: cs ++ rest) = _
  rw [if_pos hc, takeDigits_append hdigits hrest]

theorem wholeDigits_append (h : IsRun ds) (hzero : ds.head? = some '0' → ds = ['0'])
    (hrest : ∀ c ∈ rest.head?, c.isDigit = false) : wholeDigits (ds ++ rest) = .ok (ds, rest) := by
  rw [wholeDigits, bind_ok (someDigits_append h hrest)]
  split
  · next c cs =>
    have hsingle := hzero rfl
    simp at hsingle
  · rfl

theorem minus_append (negative : Bool) (h : ∀ c ∈ rest.head?, c ≠ '-') :
    minus (Spelling.signText negative ++ rest) = .ok (negative, rest) := by
  cases negative with
  | true => rfl
  | false =>
    have hnone : takeIf (· = '-') rest = .ok (none, rest) := takeIf_of_neg (by simpa using h)
    exact map_ok hnone

theorem fractionDigits?_append {fraction : Option (List Char)} (h : ∀ ds ∈ fraction, IsRun ds)
    (hrest : ∀ c ∈ rest.head?, c.isDigit = false ∧ c ≠ '.') :
    fractionDigits? (Spelling.fractionText fraction ++ rest) = .ok (fraction, rest) := by
  cases fraction with
  | none =>
    have hnone : takeIf (· = '.') rest = .ok (none, rest) :=
      takeIf_of_neg fun c hc => by simp [(hrest c hc).2]
    rw [fractionDigits?]
    exact bind_ok hnone
  | some ds =>
    have hpoint : takeIf (· = '.') ('.' :: ds ++ rest) = .ok (some '.', ds ++ rest) :=
      takeIf_of_pos (by decide) _
    have hdigits := someDigits_append (h ds rfl) fun c hc => (hrest c hc).1
    show fractionDigits? ('.' :: ds ++ rest) = _
    rw [fractionDigits?, bind_ok hpoint]
    exact map_ok hdigits

theorem exponent?_append {exponent : Option ExponentSpelling} (hrest : EndsNumber rest) :
    exponent? (Spelling.exponentText exponent ++ rest) =
      .ok (exponent.map ExponentSpelling.value, rest) := by
  cases exponent with
  | none =>
    have hnone : takeIf (fun c => c = 'e' || c = 'E') rest = .ok (none, rest) :=
      takeIf_of_neg fun c hc => by
        have hends := hrest c hc
        simp only [continuesNumber, Bool.or_eq_false_iff] at hends
        simp [hends.1.2, hends.2]
    rw [exponent?]
    exact bind_ok hnone
  | some e =>
    obtain ⟨mark, sign, digits, hmark, hsign, hrun⟩ := e
    have hhead : takeIf (fun c => c = 'e' || c = 'E') (mark :: (sign.toList ++ digits) ++ rest) =
        .ok (some mark, sign.toList ++ (digits ++ rest)) := by
      rw [List.cons_append, List.append_assoc]
      exact takeIf_of_pos (by simpa using hmark) _
    have hsigned : takeIf (fun c => c = '+' || c = '-') (sign.toList ++ (digits ++ rest)) =
        .ok (sign, digits ++ rest) := by
      cases sign with
      | some c => exact takeIf_of_pos (by simpa using hsign c rfl) _
      | none =>
        apply takeIf_of_neg
        obtain ⟨d, ds, rfl⟩ := List.exists_cons_of_ne_nil hrun.1
        have hd : d.isDigit = true := hrun.2 d List.mem_cons_self
        intro c hc
        obtain rfl : d = c := by simpa using hc
        have hplus : d ≠ '+' := by
          rintro rfl
          exact absurd hd (by decide)
        have hminus : d ≠ '-' := by
          rintro rfl
          exact absurd hd (by decide)
        simp [hplus, hminus]
    have hdigits : someDigits (digits ++ rest) = .ok (digits, rest) :=
      someDigits_append hrun fun c hc => by
        have hends := hrest c hc
        simp only [continuesNumber, Bool.or_eq_false_iff] at hends
        exact hends.1.1.1
    show exponent? (mark :: (sign.toList ++ digits) ++ rest) = _
    rw [exponent?, bind_ok hhead]
    show (takeIf _ >>= _) _ = _
    rw [bind_ok hsigned, bind_ok hdigits]
    rfl

theorem Spelling.exists_head (s : Spelling) :
    ∃ c cs, s.text = c :: cs ∧ startsNumber c = true ∧ isBlank c = false := by
  have hhead : ∃ c cs, s.text = c :: cs ∧ startsNumber c = true := by
    cases hsign : s.negative with
    | true => exact ⟨'-', _, by rw [text, hsign]; rfl, rfl⟩
    | false =>
      obtain ⟨c, cs, hwhole⟩ := List.exists_cons_of_ne_nil s.whole_run.1
      have hc : c.isDigit = true := s.whole_run.2 c (by simp [hwhole])
      refine ⟨c, cs ++ (fractionText s.fraction ++ exponentText s.exponent), ?_, ?_⟩
      · rw [text, hsign, hwhole]
        rfl
      · simp [startsNumber, hc]
  obtain ⟨c, cs, htext, hc⟩ := hhead
  refine ⟨c, cs, htext, hc, ?_⟩
  rw [Bool.eq_false_iff]
  intro hblank
  have hcases : c = ' ' ∨ c = '\n' ∨ c = '\t' ∨ c = '\r' := by
    simpa [isBlank, or_assoc] using hblank
  rcases hcases with rfl | rfl | rfl | rfl <;> exact absurd hc (by decide)

/-- The parts of a number are read one after the other, each up to where the next one starts. -/
theorem Spelling.parts_append (s : Spelling) (hrest : EndsNumber rest) :
    let behindFraction := exponentText s.exponent ++ rest
    let behindWhole := fractionText s.fraction ++ behindFraction
    minus (s.text ++ rest) = .ok (s.negative, s.whole ++ behindWhole) ∧
      wholeDigits (s.whole ++ behindWhole) = .ok (s.whole, behindWhole) ∧
      fractionDigits? behindWhole = .ok (s.fraction, behindFraction) ∧
      exponent? behindFraction = .ok (s.exponent.map ExponentSpelling.value, rest) := by
  -- no part starts with a character that goes on with the one before
  have hends : ∀ c ∈ rest.head?, c.isDigit = false ∧ c ≠ '.' := by
    intro c hc
    have hends := hrest c hc
    simp only [continuesNumber, Bool.or_eq_false_iff] at hends
    exact ⟨hends.1.1.1, by simpa using hends.1.1.2⟩
  have hexponent : ∀ c ∈ (exponentText s.exponent ++ rest).head?, c.isDigit = false ∧ c ≠ '.' := by
    cases he : s.exponent with
    | none => exact hends
    | some e =>
      intro c hc
      obtain rfl : e.mark = c := by simpa [exponentText, ExponentSpelling.text] using hc
      rcases e.mark_eq with hmark | hmark <;> rw [hmark] <;> decide
  have hfraction : ∀ c ∈ (fractionText s.fraction ++ (exponentText s.exponent ++ rest)).head?,
      c.isDigit = false := by
    cases hf : s.fraction with
    | none => exact fun c hc => (hexponent c hc).1
    | some ds =>
      intro c hc
      obtain rfl : '.' = c := by simpa [fractionText] using hc
      decide
  have hwhole : ∀ c ∈ (s.whole ++
      (fractionText s.fraction ++ (exponentText s.exponent ++ rest))).head?, c ≠ '-' := by
    obtain ⟨d, ds, hds⟩ := List.exists_cons_of_ne_nil s.whole_run.1
    have hd : d.isDigit = true := s.whole_run.2 d (by simp [hds])
    rw [hds]
    intro c hc
    obtain rfl : d = c := by simpa using hc
    rintro rfl
    exact absurd hd (by decide)
  have htext : s.text ++ rest = signText s.negative ++
      (s.whole ++ (fractionText s.fraction ++ (exponentText s.exponent ++ rest))) := by
    simp only [text, List.append_assoc]
  rw [htext]
  exact ⟨minus_append _ hwhole, wholeDigits_append s.whole_run s.whole_eq hfraction,
    fractionDigits?_append s.fraction_run hexponent, exponent?_append hrest⟩

/-- **A number is read as it is spelled.** -/
theorem Spelling.number_append (s : Spelling) (hrest : EndsNumber rest) :
    number (s.text ++ rest) =
      match s.number? with
      | some n => .ok (n, rest)
      | none => .error .malformed := by
  obtain ⟨hminus, hwhole, hfraction, hexponent⟩ := s.parts_append hrest
  rw [number, bind_ok hminus, bind_ok hwhole, bind_ok hfraction, bind_ok hexponent, Option.isNone_map]
  show (match s.number? with | some n => pure n | none => malformed : Reader Number) rest = _
  cases s.number? with
  | some n => rfl
  | none => rfl

/-- A number is skipped as it is spelled, in range or not. -/
theorem Spelling.skipNumber_append (s : Spelling) (hrest : EndsNumber rest) :
    skipNumber (s.text ++ rest) = .ok (⟨⟩, rest) := by
  obtain ⟨hminus, hwhole, hfraction, hexponent⟩ := s.parts_append hrest
  have hshape : (do
      discard minus
      discard wholeDigits
      discard fractionDigits?
      discard exponent? : Reader Unit) (s.text ++ rest) = .ok (⟨⟩, rest) := by
    rw [bind_ok (discard_ok hminus), bind_ok (discard_ok hwhole), bind_ok (discard_ok hfraction)]
    exact discard_ok hexponent
  rw [skipNumber, bind_ok (get_apply _)]
  simp only [StateT.run]
  rw [hshape]
  rfl

end Json

/-! ### The value of digits -/

namespace Decimal

theorem extend_eq (start : Nat) (cs : List Char) :
    extend start cs = start * tenTo cs.length + ofDigits cs := by
  induction cs generalizing start with
  | nil => exact (Nat.mul_one start).symm
  | cons c cs ih =>
    have hcons (n : Nat) : extend n (c :: cs) = extend (10 * n + digitValue c) cs := rfl
    have hten : tenTo (cs.length + 1) = tenTo cs.length * 10 := tenTo_add cs.length 1
    rw [ofDigits, hcons, hcons, ih, ih (10 * 0 + digitValue c), List.length_cons, hten]
    rw [Nat.add_mul, Nat.mul_zero, Nat.zero_add, Nat.add_assoc, Nat.mul_comm 10, Nat.mul_assoc,
      Nat.mul_comm 10]

theorem ofDigits_append (cs ds : List Char) :
    ofDigits (cs ++ ds) = ofDigits cs * tenTo ds.length + ofDigits ds := by
  rw [ofDigits, extend_append, extend_eq]
  rfl

theorem ofDigits_zeros (k : Nat) : ofDigits (List.replicate k '0') = 0 := by
  induction k with
  | zero => rfl
  | succ k ih =>
    rw [List.replicate_succ, ← List.singleton_append, ofDigits_append, ih]
    exact Nat.zero_mul _

theorem ofDigits_zeros_append (k : Nat) (ds : List Char) :
    ofDigits (List.replicate k '0' ++ ds) = ofDigits ds := by
  rw [ofDigits_append, ofDigits_zeros, Nat.zero_mul, Nat.zero_add]

theorem ofDigits_append_zeros (ds : List Char) (k : Nat) :
    ofDigits (ds ++ List.replicate k '0') = ofDigits ds * tenTo k := by
  rw [ofDigits_append, ofDigits_zeros, List.length_replicate, Nat.add_zero]

end Decimal

namespace Json

theorem eq_zeros_append (ds : List Char) : ∃ k, ds = List.replicate k '0' ++ dropLeadingZeros ds := by
  refine ⟨(ds.takeWhile (· = '0')).length, ?_⟩
  have hzeros : ds.takeWhile (· = '0') = List.replicate (ds.takeWhile (· = '0')).length '0' :=
    List.eq_replicate_of_mem fun c hc => by
      simpa using List.all_eq_true.mp List.all_takeWhile c hc
  rw [← hzeros]
  exact List.takeWhile_append_dropWhile.symm

theorem eq_append_zeros (ds : List Char) :
    ∃ k, ds = dropTrailingZeros ds ++ List.replicate k '0' := by
  obtain ⟨k, hk⟩ := eq_zeros_append ds.reverse
  refine ⟨k, ?_⟩
  have hreverse := congrArg List.reverse hk
  rwa [List.reverse_append, List.reverse_reverse, List.reverse_replicate] at hreverse

/-- **The value of a literal is that of all its digits**, as long as they are told apart. -/
theorem magnitude?_literal {whole fraction : List Char} (exponent : Int)
    (h : whole.length + fraction.length ≤ digitLimit) :
    (literal whole fraction exponent).magnitude? =
      Decimal.magnitude? ⟨Decimal.ofDigits (whole ++ fraction), exponent - fraction.length⟩ := by
  obtain ⟨k, hk⟩ := eq_append_zeros fraction
  obtain ⟨j, hj⟩ := eq_zeros_append (whole ++ dropTrailingZeros fraction)
  have hlength : fraction.length = (dropTrailingZeros fraction).length + k := by
    have hlength := congrArg List.length hk
    rwa [List.length_append, List.length_replicate] at hlength
  have hshort : (dropLeadingZeros (whole ++ dropTrailingZeros fraction)).length ≤ digitLimit := by
    have hlength' := congrArg List.length hj
    simp only [List.length_append, List.length_replicate] at hlength'
    omega
  have hvalue : Decimal.ofDigits (whole ++ fraction) =
      Decimal.ofDigits (dropLeadingZeros (whole ++ dropTrailingZeros fraction)) *
        Decimal.tenTo k := by
    conv_lhs => rw [hk, ← List.append_assoc, Decimal.ofDigits_append_zeros, hj]
    rw [Decimal.ofDigits_zeros_append]
  have hexponent : exponent - (dropTrailingZeros fraction).length =
      exponent - fraction.length + k := by omega
  rw [hvalue, Decimal.magnitude?_shift, ← hexponent]
  simp only [literal]
  rw [if_pos hshort]

end Json
end LSystem
