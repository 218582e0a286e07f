/-
# Doubles and their words

A double is settled by its word, and a word by its sign bit and the rest: so a double is the one of its
sign and its magnitude (`Binary64.ofMagnitude_magnitude`). The exponent of ones is that of the
infinities and of what is not a number, so that a double is finite if and only if its magnitude is
below that of infinity (`Binary64.isFinite_iff`).

The sign bit is all that tells the word of a number from that of its negative
(`Binary64.exists_packComponents`), and rounding does not look at the sign. So a sign can be moved out
of a product, and two signs cancel, without any rounding error: doubles are an instance of
`HasDistribNeg`.

That packing undoes unpacking (`pack_unpack_of_valid`, `Float.ofBits_toBits`) is proved in Batteries,
in a module that no single module of Mathlib imports: only the whole of Mathlib brings it in.

Key theorems: `Binary64.ofMagnitude_magnitude`, `Binary64.isFinite_iff`, `Binary64.unpack_pack_neg`,
`Binary64.neg_pack`.
-/
import Mathlib
import LSystem.Decimal.Binary64

namespace LSystem.Binary64

open Float.Model (Format UnpackedFloat)
open Float.Model.UnpackedFloat

/-- **A double is the one of its sign and its magnitude.** -/
theorem ofMagnitude_magnitude (x : Float) : ofMagnitude (isNegative x) (magnitude x) = x := by
  have hlt : x.toBits.toNat < 2 * signWord := x.toBits.toNat_lt
  have hword : (if isNegative x then magnitude x + signWord else magnitude x) = x.toBits.toNat := by
    unfold isNegative magnitude
    by_cases hsign : signWord ≤ x.toBits.toNat
    · rw [if_pos (decide_eq_true hsign), Nat.mod_eq_sub_mod hsign, Nat.mod_eq_of_lt (by omega)]
      omega
    · rw [if_neg (by simpa using hsign), Nat.mod_eq_of_lt (Nat.not_le.mp hsign)]
  rw [ofMagnitude, hword, UInt64.ofNat_toNat, Float.ofBits_toBits]

theorem isFinite_unpack (b : BitVec Format.binary64.numBits) :
    (unpack .binary64 b).isFinite = true ↔ unpackExponent b ≠ -1#_ := by
  unfold unpack
  by_cases hones : unpackExponent b = -1#_
  · rw [if_pos hones]
    by_cases hzero : unpackMantissa b = 0#_
    · rw [if_pos hzero]
      exact ⟨nofun, fun h => absurd hones h⟩
    · rw [if_neg hzero]
      exact ⟨nofun, fun h => absurd hones h⟩
  · rw [if_neg hones]
    by_cases hleast : unpackExponent b = 0#_
    · rw [if_pos hleast]
      by_cases hzero : unpackMantissa b = 0#_
      · rw [dif_pos hzero]
        exact ⟨fun _ => hones, fun _ => rfl⟩
      · rw [dif_neg hzero]
        exact ⟨fun _ => hones, fun _ => rfl⟩
    · rw [if_neg hleast]
      exact ⟨fun _ => hones, fun _ => rfl⟩

/-- **A double is finite if and only if its magnitude is below that of infinity.** -/
theorem isFinite_iff (x : Float) : x.isFinite = true ↔ magnitude x < infinity := by
  have hexponent : (@unpackExponent .binary64 x.toBits.toBitVec).toNat =
      x.toBits.toNat / binade % 2048 := by
    simp only [unpackExponent, BitVec.toNat_cast, BitVec.extractLsb_toNat, Nat.shiftRight_eq_div_pow]
    rfl
  have hones : @unpackExponent .binary64 x.toBits.toBitVec = -1#_ ↔
      x.toBits.toNat / binade % 2048 = 2047 := by
    rw [← hexponent, ← BitVec.toNat_inj]
    exact Iff.rfl
  have hfinite : x.isFinite = true ↔ @unpackExponent .binary64 x.toBits.toBitVec ≠ -1#_ :=
    isFinite_unpack x.toBits.toBitVec
  rw [hfinite, Ne, hones]
  have hlt : x.toBits.toNat < 18446744073709551616 := x.toBits.toNat_lt
  simp only [magnitude, infinity, signWord, binade, UInt64.size]
  omega

/-! ### Signs -/

/-- A word with its sign bit turned over is unpacked to the negative. -/
theorem unpack_packComponents_neg (s : Sign) (e : BitVec Format.binary64.exponentBits)
    (m : BitVec Format.binary64.mantissaBitsWithoutImplicit) :
    unpack .binary64 (packComponents .binary64 (-s) e m) =
      (unpack .binary64 (packComponents .binary64 s e m)).neg := by
  simp only [unpack, unpackMantissa_packComponents, unpackExponent_packComponents,
    unpackSign_packComponents, Sign.ofBitVec_toBitVec]
  split
  · split <;> rfl
  · split
    · split <;> rfl
    · rfl

/-- What is a number is packed to a word whose sign bit alone tells it from its negative. -/
theorem exists_packComponents {u : UnpackedFloat} (h : u.isNaN = false) :
    ∃ s e m, pack .binary64 u = packComponents .binary64 s e m ∧
      pack .binary64 u.neg = packComponents .binary64 (-s) e m := by
  cases u with
  | notANumber => cases h
  | infinity s => exact ⟨s, -1#_, 0, rfl, rfl⟩
  | zero s => exact ⟨s, 0, 0, rfl, rfl⟩
  | finite s m e hm =>
    simp only [neg, pack]
    split
    · exact ⟨s, _, _, rfl, rfl⟩
    · split <;> exact ⟨s, _, _, rfl, rfl⟩

theorem unpack_pack_neg (u : UnpackedFloat) :
    unpack .binary64 (pack .binary64 u.neg) = (unpack .binary64 (pack .binary64 u)).neg := by
  cases hu : u.isNaN with
  | true =>
    rw [isNaN_iff] at hu
    rw [hu]
    show unpack _ (packedNaN _) = (unpack _ (packedNaN _)).neg
    rw [unpack_packedNaN]
    rfl
  | false =>
    obtain ⟨s, e, m, hpos, hneg⟩ := exists_packComponents hu
    rw [hpos, hneg, unpack_packComponents_neg]

theorem neg_neg_sign (s : Sign) : - -s = s := by cases s <;> rfl

theorem neg_mul_sign (s t : Sign) : -s * t = -(s * t) := by cases s <;> cases t <;> rfl

theorem mul_neg_sign (s t : Sign) : s * -t = -(s * t) := by cases s <;> cases t <;> rfl

theorem roundWithAccuracy_neg (s : Sign) (m : Nat) (e : Int) (a : Accuracy) :
    roundWithAccuracy .binary64 (-s) m e a = (roundWithAccuracy .binary64 s m e a).neg := by
  simp only [roundWithAccuracy]
  split <;> rfl

theorem mul_neg_unpacked (u v : UnpackedFloat) :
    mul .binary64 u.neg v = (mul .binary64 u v).neg ∧
      mul .binary64 u v.neg = (mul .binary64 u v).neg := by
  cases u <;> cases v <;>
    simp [neg, mul, neg_mul_sign, mul_neg_sign, roundWithAccuracy_neg]

theorem neg_pack (u : UnpackedFloat) :
    -Float.ofModel (.pack u) = .ofModel (.pack u.neg) := by
  apply Float.toBits_inj.mp
  apply UInt64.toBitVec_inj.mp
  show pack .binary64 (unpack .binary64 (pack .binary64 u)).neg = pack .binary64 u.neg
  rw [← unpack_pack_neg, pack_unpack_of_valid valid_pack]

theorem unpack_neg (x : Float) : (-x).toModel.unpack = x.toModel.unpack.neg := by
  have hword : pack .binary64 x.toModel.unpack = x.toModel.toBits.toBitVec :=
    pack_unpack_of_valid x.toModel.valid
  show unpack .binary64 (pack .binary64 x.toModel.unpack.neg) = _
  rw [unpack_pack_neg, hword]
  rfl

/-- **Two signs cancel, and a sign can be moved out of a product.** -/
instance hasDistribNeg : HasDistribNeg Float where
  neg_neg x := by
    have hsign (u : UnpackedFloat) : u.neg.neg = u := by
      cases u <;> simp [neg, neg_neg_sign]
    show Float.ofModel (.pack (-x).toModel.unpack.neg) = x
    rw [unpack_neg, hsign]
    exact Float.ofBits_toBits x
  neg_mul x y := by
    show Float.ofModel (.pack (mul .binary64 (-x).toModel.unpack y.toModel.unpack)) =
      -Float.ofModel (.pack (mul .binary64 x.toModel.unpack y.toModel.unpack))
    rw [unpack_neg, (mul_neg_unpacked _ _).1, neg_pack]
  mul_neg x y := by
    show Float.ofModel (.pack (mul .binary64 x.toModel.unpack (-y).toModel.unpack)) =
      -Float.ofModel (.pack (mul .binary64 x.toModel.unpack y.toModel.unpack))
    rw [unpack_neg, (mul_neg_unpacked _ _).2, neg_pack]

end LSystem.Binary64
