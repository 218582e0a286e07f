/-
# The double nearest to a decimal

Magnitudes are as far apart as the unit of their exponent (`Binary64.units_succ`), so there is exactly
one that covers a count of units (`Binary64.floor_eq`). A quotient between a magnitude and the middle
to the next one is nearest to it (`Binary64.nearest_of_between`), a quotient of less than half a unit
to zero, and one of the units of infinity or more to infinity or beyond. All this depends on the value
of the quotient alone (`Binary64.nearest_congr`).

For a decimal it follows that the shortcuts by the size of its exponent change nothing: the magnitude
it reads as is the nearest one, if that is finite (`Decimal.magnitude?_eq`). And zeros can be moved
between significand and exponent (`Decimal.magnitude?_shift`).

Key definitions: `Binary64.gap`.
Key theorems: `Binary64.units_succ`, `Binary64.floor_eq`, `Binary64.nearest_of_between`,
`Binary64.nearest_congr`, `Binary64.infinity_le_nearest`, `Decimal.magnitude?_eq`,
`Decimal.magnitude?_shift`.
-/
import Mathlib.Data.Nat.Log
import LSystem.Decimal

namespace LSystem

namespace Binary64

/-! ### Neighbours -/

/-- How many units the next magnitude is away. -/
def gap (m : Nat) : Nat := 1 <<< (m / binade - 1)

theorem gap_pos (m : Nat) : 0 < gap m := by
  rw [gap, Nat.shiftLeft_eq, Nat.one_mul]
  exact Nat.two_pow_pos _

/-- A magnitude that is not among the least, by the significand it has with its implicit bit. -/
theorem units_eq {m : Nat} (h : binade ≤ m) : units m = (m % binade + binade) * gap m := by
  rw [units_of_le h, gap, Nat.shiftLeft_eq, Nat.shiftLeft_eq, Nat.one_mul]

theorem gap_of_lt {m : Nat} (h : m < binade) : gap m = 1 := by
  rw [gap, Nat.div_eq_of_lt h]
  rfl

/-- **The next magnitude is one gap away.** -/
theorem units_succ (m : Nat) : units (m + 1) = units m + gap m := by
  by_cases hleast : m + 1 < binade
  · rw [units_of_lt hleast, units_of_lt (by omega), gap_of_lt (by omega)]
  · rw [units_eq (Nat.not_lt.mp hleast)]
    by_cases hm : m < binade
    · have hfirst : m + 1 = binade := by omega
      rw [units_of_lt hm, gap_of_lt hm, hfirst]
      decide
    · rw [units_eq (Nat.not_lt.mp hm)]
      by_cases hcarry : (m + 1) % binade = 0
      · -- the significand is used up, and the exponent grows
        have hlast : m % binade = binade - 1 := by
          simp only [binade] at hcarry ⊢
          omega
        have hexponent : gap (m + 1) = 2 * gap m := by
          have hdiv : (m + 1) / binade - 1 = (m / binade - 1) + 1 := by
            simp only [binade] at hm hcarry ⊢
            omega
          rw [gap, gap, hdiv, Nat.shiftLeft_succ]
        have hsum : binade - 1 + binade + 1 = binade * 2 := by decide
        have hsucc : (binade - 1 + binade) * gap m + gap m = binade * 2 * gap m := by
          rw [← hsum, Nat.succ_mul]
        rw [hcarry, hlast, hexponent, hsucc, Nat.zero_add, Nat.mul_assoc]
      · have hexponent : gap (m + 1) = gap m := by
          have hdiv : (m + 1) / binade = m / binade := by
            simp only [binade] at hcarry ⊢
            omega
          rw [gap, gap, hdiv]
        have hmod : (m + 1) % binade + binade = m % binade + binade + 1 := by
          simp only [binade] at hcarry ⊢
          omega
        rw [hexponent, hmod, Nat.succ_mul]

theorem units_lt_units_succ (m : Nat) : units m < units (m + 1) := by
  rw [units_succ]
  exact Nat.lt_add_of_pos_right (gap_pos m)

theorem units_lt_gap (m : Nat) : units m < 2 * binade * gap m := by
  by_cases hm : m < binade
  · rw [units_of_lt hm, gap_of_lt hm]
    omega
  · rw [units_eq (Nat.not_lt.mp hm)]
    have hmod : m % binade < binade := Nat.mod_lt m (by decide)
    exact Nat.mul_lt_mul_of_pos_right (by omega) (gap_pos m)

theorem gap_le_units {m : Nat} (h : 0 < m) : gap m ≤ units m := by
  by_cases hm : m < binade
  · rw [units_of_lt hm, gap_of_lt hm]
    omega
  · rw [units_eq (Nat.not_lt.mp hm)]
    have hpos : 0 < binade := by decide
    exact Nat.le_mul_of_pos_left _ (by omega)

theorem units_strictMono : StrictMono units := strictMono_nat_of_lt_succ units_lt_units_succ

/-! ### The magnitude that covers a count of units -/

/-- A count of units is covered by its greatest magnitude. -/
theorem floor_covers (n : Nat) : units (floor n) ≤ n ∧ n < units (floor n + 1) := by
  rw [units_succ, floor]
  by_cases hsmall : n < 2 * binade
  · have hshift : n.log2 - 52 = 0 := by
      by_cases h0 : n = 0
      · simp [h0]
      · have hlog : n.log2 < 53 := (Nat.log2_lt h0).mpr hsmall
        omega
    have hfloor : n >>> (n.log2 - 52) + (n.log2 - 52) * binade = n := by simp [hshift]
    rw [hfloor]
    by_cases hn : n < binade
    · rw [units_of_lt hn]
      exact ⟨Nat.le_refl n, Nat.lt_add_of_pos_right (gap_pos n)⟩
    · have hgap : gap n = 1 := by
        have hdiv : n / binade - 1 = 0 := by
          simp only [binade] at hsmall ⊢
          omega
        rw [gap, hdiv]
        rfl
      have hunits : units n = n := by
        rw [units_eq (Nat.not_lt.mp hn), hgap]
        simp only [binade] at hsmall hn ⊢
        omega
      omega
  · -- beyond that, the leading bits of `n` are the significand of its magnitude
    have hn0 : n ≠ 0 := by
      rintro rfl
      exact hsmall (by decide)
    have hlog : 53 ≤ n.log2 := (Nat.le_log2 hn0).mpr (Nat.not_lt.mp hsmall)
    obtain ⟨shift, hshift⟩ : ∃ k, n.log2 = 52 + (k + 1) := ⟨n.log2 - 53, by omega⟩
    have hsub : n.log2 - 52 = shift + 1 := by omega
    rw [hsub, Nat.shiftRight_eq_div_pow]
    have hlo : 2 ^ (52 + (shift + 1)) ≤ n := hshift ▸ Nat.log2_self_le hn0
    have hhi : n < 2 ^ (52 + (shift + 1) + 1) := hshift ▸ Nat.lt_log2_self
    have hpow : 0 < 2 ^ (shift + 1) := Nat.two_pow_pos _
    generalize hq : n / 2 ^ (shift + 1) = q
    have hqlo : binade ≤ q := by
      rw [← hq, Nat.le_div_iff_mul_le hpow]
      rwa [Nat.pow_add] at hlo
    have hqhi : q < 2 * binade := by
      rw [← hq, Nat.div_lt_iff_lt_mul hpow]
      rwa [show 52 + (shift + 1) + 1 = 53 + (shift + 1) by omega, Nat.pow_add] at hhi
    have hmod : (q + (shift + 1) * binade) % binade = q - binade := by
      rw [Nat.add_mul_mod_self_right, Nat.mod_eq_sub_mod hqlo, Nat.mod_eq_of_lt (by omega)]
    have hgap : gap (q + (shift + 1) * binade) = 2 ^ (shift + 1) := by
      have hdiv : q / binade = 1 := by
        simp only [binade] at hqlo hqhi ⊢
        omega
      rw [gap, Nat.add_mul_div_right _ _ (by decide), hdiv, Nat.add_sub_cancel_left,
        Nat.shiftLeft_eq, Nat.one_mul]
    have hunits : units (q + (shift + 1) * binade) = q * 2 ^ (shift + 1) := by
      rw [units_eq (Nat.le_trans hqlo (Nat.le_add_right _ _)), hmod, hgap, Nat.sub_add_cancel hqlo]
    rw [hunits, hgap, ← Nat.succ_mul, ← hq]
    exact ⟨Nat.div_mul_le_self n _, Nat.lt_mul_of_div_lt (Nat.lt_succ_self _) hpow⟩

/-- **One magnitude covers a count of units.** -/
theorem floor_eq {m n : Nat} (hlo : units m ≤ n) (hhi : n < units (m + 1)) : floor n = m := by
  obtain ⟨hle, hlt⟩ := floor_covers n
  have hm : m < floor n + 1 := units_strictMono.lt_iff_lt.mp (Nat.lt_of_le_of_lt hlo hlt)
  have hfloor : floor n < m + 1 := units_strictMono.lt_iff_lt.mp (Nat.lt_of_le_of_lt hle hhi)
  omega

/-! ### The nearest magnitude of a quotient -/

/-- A quotient from a magnitude on, but before the middle to the next one, is nearest to it. -/
theorem nearest_of_between {m num den : Nat} (hlo : units m * den ≤ num <<< 1074)
    (hhi : 2 * (num <<< 1074) < (units m + units (m + 1)) * den) : nearest num den = m := by
  have hden : 0 < den := by
    rcases Nat.eq_zero_or_pos den with rfl | hpos
    · simp at hhi
    · exact hpos
  have hfloor : floor ((num <<< 1074) / den) = m := by
    apply floor_eq
    · exact (Nat.le_div_iff_mul_le hden).mpr hlo
    · rw [Nat.div_lt_iff_lt_mul hden]
      have hlt : units m * den < units (m + 1) * den :=
        Nat.mul_lt_mul_of_pos_right (units_lt_units_succ m) hden
      rw [Nat.add_mul] at hhi
      omega
  rw [nearest, hfloor, nearer, if_pos hhi]

/-- The nearest magnitude depends on the value of a quotient alone. -/
theorem nearest_congr {num den num' den' : Nat} (hden : 0 < den) (hden' : 0 < den')
    (h : num * den' = num' * den) : nearest num den = nearest num' den' := by
  -- a factor of both numbers changes neither the floor nor the comparison with the middle
  have hscale (num den k : Nat) (hk : 0 < k) : nearest (num * k) (den * k) = nearest num den := by
    have hshift : (num * k) <<< 1074 = (num <<< 1074) * k := by
      rw [Nat.shiftLeft_eq, Nat.shiftLeft_eq, Nat.mul_right_comm]
    rw [nearest, nearest, hshift, Nat.mul_div_mul_right _ _ hk]
    unfold nearer
    simp only [← Nat.mul_assoc, Nat.mul_lt_mul_right hk]
  calc nearest num den
    _ = nearest (num * den') (den * den') := (hscale num den den' hden').symm
    _ = nearest (num' * den) (den' * den) := by rw [h, Nat.mul_comm den den']
    _ = nearest num' den' := hscale num' den' den hden

theorem infinity_le_nearest {num den : Nat} (hden : 0 < den)
    (h : units infinity * den ≤ num <<< 1074) : infinity ≤ nearest num den := by
  have hquotient : units infinity ≤ (num <<< 1074) / den := (Nat.le_div_iff_mul_le hden).mpr h
  obtain ⟨-, hlt⟩ := floor_covers ((num <<< 1074) / den)
  have hfloor : infinity < floor ((num <<< 1074) / den) + 1 :=
    units_strictMono.lt_iff_lt.mp (Nat.lt_of_le_of_lt hquotient hlt)
  rw [nearest]
  unfold nearer
  split
  · omega
  · split <;> omega

end Binary64

namespace Decimal

/-! ### Decimals -/

theorem tenTo_add (a b : Nat) : tenTo (a + b) = tenTo a * tenTo b := Nat.pow_add 10 a b

theorem tenTo_pos (k : Nat) : 0 < tenTo k := Nat.pow_pos (by decide)

theorem two_pow_le_tenTo (k : Nat) : Nat.pow 2 (3 * k) ≤ tenTo k := by
  have h8 : Nat.pow 2 (3 * k) = 8 ^ k := Nat.pow_mul 2 3 k
  rw [h8]
  exact Nat.pow_le_pow_left (by decide) k

theorem nearest_eq (d : Decimal) : d.nearest =
    Binary64.nearest (d.significand * tenTo d.exponent.toNat) (tenTo (-d.exponent).toNat) := by
  obtain ⟨s, e⟩ := d
  cases e with
  | ofNat e =>
    have hneg : (-(Int.ofNat e)).toNat = 0 := by
      show (-(e : Int)).toNat = 0
      omega
    show Binary64.nearest (s * tenTo e) 1 = Binary64.nearest (s * tenTo e) (tenTo (-(Int.ofNat e)).toNat)
    rw [hneg]
    rfl
  | negSucc e =>
    show Binary64.nearest s (tenTo (e + 1)) = Binary64.nearest (s * 1) (tenTo (e + 1))
    rw [Nat.mul_one]

theorem nearest_zero (e : Int) : nearest ⟨0, e⟩ = 0 := by
  have hzero : Binary64.units 0 = 0 := by decide
  have hone : Binary64.units (0 + 1) = 1 := by decide
  rw [nearest_eq]
  apply Binary64.nearest_of_between
  · simp [hzero]
  · have hpos := tenTo_pos (-e).toNat
    simpa [hzero, hone] using hpos

theorem nearest_of_isTiny {d : Decimal} (h : d.isTiny = true) : d.nearest = 0 := by
  have htiny : 3 * d.exponent + d.significand.log2 + 1080 < 0 := of_decide_eq_true h
  obtain ⟨k, hk⟩ : ∃ k : Nat, d.exponent = -k := ⟨(-d.exponent).toNat, by omega⟩
  have hup : d.exponent.toNat = 0 := by omega
  have hdown : (-d.exponent).toNat = k := by omega
  have hzero : Binary64.units 0 = 0 := by decide
  have hone : Binary64.units (0 + 1) = 1 := by decide
  rw [nearest_eq, hup, hdown]
  apply Binary64.nearest_of_between
  · simp [hzero]
  · have hscale : tenTo 0 = 1 := rfl
    have hlog : d.significand < 2 ^ (d.significand.log2 + 1) := Nat.lt_log2_self
    -- the number of bits must not be evaluated
    generalize hbits : 1074 = bits
    calc 2 * ((d.significand * tenTo 0) <<< bits)
      _ = 2 ^ 1 * (d.significand * 2 ^ bits) := by
        rw [hscale, Nat.mul_one, Nat.shiftLeft_eq, Nat.pow_one]
      _ = d.significand * 2 ^ (1 + bits) := by rw [Nat.pow_add, Nat.mul_left_comm]
      _ < 2 ^ (d.significand.log2 + 1) * 2 ^ (1 + bits) :=
        Nat.mul_lt_mul_of_pos_right hlog (Nat.two_pow_pos _)
      _ = 2 ^ (d.significand.log2 + 1 + (1 + bits)) := (Nat.pow_add _ _ _).symm
      _ ≤ 2 ^ (3 * k) := Nat.pow_le_pow_right (by decide) (by omega)
      _ ≤ tenTo k := two_pow_le_tenTo k
      _ = (Binary64.units 0 + Binary64.units (0 + 1)) * tenTo k := by
        rw [hzero, hone, Nat.zero_add, Nat.one_mul]

theorem infinity_le_nearest_of_isHuge {d : Decimal} (h : d.isHuge = true) (h0 : d.significand ≠ 0) :
    Binary64.infinity ≤ d.nearest := by
  have hhuge : 1024 ≤ 3 * d.exponent := of_decide_eq_true h
  have hdown : (-d.exponent).toNat = 0 := by omega
  rw [nearest_eq, hdown]
  apply Binary64.infinity_le_nearest (tenTo_pos 0)
  have hunits : Binary64.units Binary64.infinity = 2 ^ (1024 + 1074) := by
    have hgap : Binary64.gap Binary64.infinity = 2 ^ 2046 := by
      have hdiv : Binary64.infinity / Binary64.binade - 1 = 2046 := by decide
      rw [Binary64.gap, hdiv, Nat.shiftLeft_eq, Nat.one_mul]
    have hmod : Binary64.infinity % Binary64.binade + Binary64.binade = 2 ^ 52 := by decide
    have hsum : 1024 + 1074 = 52 + 2046 := rfl
    rw [Binary64.units_eq (by decide), hgap, hmod, hsum, Nat.pow_add 2 52 2046]
  have hone : tenTo 0 = 1 := rfl
  rw [hunits, hone, Nat.mul_one, Nat.pow_add 2 1024, Nat.shiftLeft_eq]
  apply Nat.mul_le_mul_right
  generalize hbits : 1024 = bits at hhuge
  calc 2 ^ bits
    _ ≤ 2 ^ (3 * d.exponent.toNat) := Nat.pow_le_pow_right (by decide) (by omega)
    _ ≤ tenTo d.exponent.toNat := two_pow_le_tenTo _
    _ ≤ d.significand * tenTo d.exponent.toNat :=
      Nat.le_mul_of_pos_left _ (Nat.pos_of_ne_zero h0)

/-- **A decimal reads as its nearest magnitude, if that is finite.** -/
theorem magnitude?_eq (d : Decimal) :
    d.magnitude? = if d.nearest < Binary64.infinity then some d.nearest else none := by
  unfold magnitude?
  have hinfinity : 0 < Binary64.infinity := by decide
  by_cases h0 : d.significand = 0
  · have hnearest : d.nearest = 0 := by
      obtain ⟨s, e⟩ := d
      obtain rfl : s = 0 := h0
      exact nearest_zero e
    simp [h0, hnearest, hinfinity]
  · by_cases htiny : d.isTiny = true
    · simp [htiny, nearest_of_isTiny htiny, hinfinity]
    · by_cases hhuge : d.isHuge = true
      · have hle := infinity_le_nearest_of_isHuge hhuge h0
        simp [h0, htiny, hhuge, Nat.not_lt.mpr hle]
      · simp [h0, htiny, hhuge]

/-- **Zeros can be moved from the significand into the exponent.** -/
theorem magnitude?_shift (s k : Nat) (e : Int) :
    magnitude? ⟨s * tenTo k, e⟩ = magnitude? ⟨s, e + k⟩ := by
  have hnearest : nearest ⟨s * tenTo k, e⟩ = nearest ⟨s, e + k⟩ := by
    rw [nearest_eq, nearest_eq]
    apply Binary64.nearest_congr (tenTo_pos _) (tenTo_pos _)
    have hexponent : k + e.toNat + (-(e + k)).toNat = (e + k).toNat + (-e).toNat := by omega
    calc s * tenTo k * tenTo e.toNat * tenTo (-(e + k)).toNat
      _ = s * tenTo (k + e.toNat + (-(e + k)).toNat) := by simp only [tenTo_add, Nat.mul_assoc]
      _ = s * tenTo ((e + k).toNat + (-e).toNat) := by rw [hexponent]
      _ = s * tenTo (e + k).toNat * tenTo (-e).toNat := by rw [tenTo_add, Nat.mul_assoc]
  rw [magnitude?_eq, magnitude?_eq, hnearest]

end Decimal
end LSystem
