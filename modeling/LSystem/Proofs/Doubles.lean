/-
# The order of doubles

Doubles that are numbers are ordered totally, up to the two zeros, and a double that is not a number
is neither less nor greater than any. A comparison of doubles looks at the class, then at the
exponent, then at the mantissa (`Place.compare_ofUnpacked`), so the order of the numbers is that of
their places (`lt_iff_place`, `le_iff_place`). All that a fold by `<` or by `>` relies on is said by
`Ranks`, which both satisfy.

Key definitions: `Place`, `place`, `Ranks`.
Key theorems: `Place.compare_ofUnpacked`, `lt_iff_place`, `le_iff_place`, `le_iff_not_lt`,
`double_le_trans`, `ranks_lt`, `ranks_gt`.
-/
import LSystem.Geometry.Point

namespace LSystem

open Float.Model (UnpackedFloat)

/-- Where a number stands among the doubles: its class, then its exponent, then its mantissa, the
last two negated below zero. -/
structure Place where
  rank : Int
  exponent : Int := 0
  mantissa : Int := 0

namespace Place

/-- The place of a double that is a number. -/
def ofUnpacked : UnpackedFloat → Place
  | .infinity .negative => { rank := -2 }
  | .finite .negative m e _ => { rank := -1, exponent := -e, mantissa := -m }
  | .zero _ | .notANumber => { rank := 0 }
  | .finite .positive m e _ => { rank := 1, exponent := e, mantissa := m }
  | .infinity .positive => { rank := 2 }

instance : Ord Place where
  compare := compareLex (compareOn rank) (compareLex (compareOn exponent) (compareOn mantissa))

instance : Std.TransOrd Place :=
  inferInstanceAs (Std.TransCmp
    (compareLex (compareOn rank) (compareLex (compareOn exponent) (compareOn mantissa))))

theorem compare_neg (x y : Int) : compare (-x) (-y) = compare y x := by
  simp only [Int.compare_eq_ite_lt, Int.neg_lt_neg_iff]

theorem compare_natCast (m n : Nat) : compare (m : Int) n = compare m n := by
  simp only [Int.compare_eq_ite_lt, Nat.compare_eq_ite_lt, Int.ofNat_lt]

theorem compare_mk (r e e' m m' : Int) :
    compare (mk r e m) (mk r e' m') = (compare e e').then (compare m m') := by
  have hrank : compare r r = .eq := Std.ReflOrd.compare_self
  show (compare r r).then ((compare e e').then (compare m m')) = _
  rw [hrank]
  rfl

/-- **Numbers compare as their places do.** -/
theorem compare_ofUnpacked {a b : UnpackedFloat} (ha : a.isNaN = false) (hb : b.isNaN = false) :
    a.compare b = some (compare (ofUnpacked a) (ofUnpacked b)) := by
  cases a with
  | notANumber => cases ha
  | infinity s =>
    cases s <;> cases b with
    | notANumber => cases hb
    | infinity t | finite t => cases t <;> rfl
    | zero => rfl
  | zero s =>
    cases b with
    | notANumber => cases hb
    | infinity t | finite t => cases t <;> rfl
    | zero => rfl
  | finite s m e =>
    cases b with
    | notANumber => cases hb
    | infinity t => cases s <;> cases t <;> rfl
    | zero => cases s <;> rfl
    | finite t n f =>
      cases s with
      | negative =>
        cases t with
        | positive => rfl
        | negative =>
          calc some ((compare e f).then (compare m n)).swap
            _ = some ((compare f e).then (compare n m)) := by
              rw [Ordering.swap_then, ← Std.OrientedOrd.eq_swap, ← Std.OrientedOrd.eq_swap]
            _ = some (compare (mk (-1) (-e) (-m)) (mk (-1) (-f) (-n))) := by
              rw [compare_mk, compare_neg, compare_neg, compare_natCast]
      | positive =>
        cases t with
        | negative => rfl
        | positive =>
          calc some ((compare e f).then (compare m n))
            _ = some (compare (mk 1 e m) (mk 1 f n)) := by rw [compare_mk, compare_natCast]

theorem compare_of_isNaN {a b : UnpackedFloat} (h : a.isNaN = true ∨ b.isNaN = true) :
    a.compare b = none := by
  rcases h with h | h
  · cases a with
    | notANumber => rfl
    | _ => cases h
  · cases b with
    | notANumber => cases a <;> rfl
    | _ => cases h

end Place

/-- The place of a double. -/
def place (x : Float) : Place := .ofUnpacked x.toModel.unpack

section

variable {a b c : Float}

/-- A comparison of doubles finds nothing if one is not a number, and else how their places lie. -/
theorem compare_unpack (a b : Float) : a.toModel.unpack.compare b.toModel.unpack =
    if a.isNaN || b.isNaN then none else some (compare (place a) (place b)) := by
  cases ha : a.isNaN with
  | true => exact Place.compare_of_isNaN (.inl ha)
  | false =>
    cases hb : b.isNaN with
    | true => exact Place.compare_of_isNaN (.inr hb)
    | false => exact Place.compare_ofUnpacked ha hb

theorem lt_iff_place : a < b ↔
    a.isNaN = false ∧ b.isNaN = false ∧ compare (place a) (place b) = .lt := by
  have hcompare : a < b ↔ a.toModel.unpack.compare b.toModel.unpack = some .lt := by
    show decide (a.toModel < b.toModel) = true ↔ _
    rw [decide_eq_true_iff]
    exact beq_iff_eq
  rw [hcompare, compare_unpack]
  cases a.isNaN <;> cases b.isNaN <;> simp

theorem le_iff_place : a ≤ b ↔
    a.isNaN = false ∧ b.isNaN = false ∧ (compare (place a) (place b)).isLE := by
  have hcompare : a ≤ b ↔ (a.toModel.unpack.compare b.toModel.unpack).any (·.isLE) := by
    show decide (a.toModel ≤ b.toModel) = true ↔ _
    rw [decide_eq_true_iff]
    rfl
  rw [hcompare, compare_unpack]
  cases a.isNaN <;> cases b.isNaN <;> simp

theorem le_iff_not_lt : a ≤ b ↔ a.isNaN = false ∧ b.isNaN = false ∧ ¬ b < a := by
  rw [le_iff_place, lt_iff_place, Std.OrientedOrd.eq_swap (a := place b)]
  cases a.isNaN <;> cases b.isNaN <;> cases compare (place a) (place b) <;> simp

theorem double_le_trans (h : a ≤ b) (h' : b ≤ c) : a ≤ c := by
  obtain ⟨ha, -, hab⟩ := le_iff_place.mp h
  obtain ⟨-, hc, hbc⟩ := le_iff_place.mp h'
  exact le_iff_place.mpr ⟨ha, hc, Std.TransOrd.isLE_trans hab hbc⟩

end

/-- A strict order of the doubles that are numbers, total up to equal ones. -/
structure Ranks (r : Float → Float → Prop) : Prop where
  left : ∀ {a b}, r a b → a.isNaN = false
  right : ∀ {a b}, r a b → b.isNaN = false
  asymm : ∀ {a b}, r a b → ¬ r b a
  /-- A number lies behind the first or before the second of two that are ranked. -/
  split : ∀ {a c} (b), b.isNaN = false → r a c → r a b ∨ r b c

theorem ranks_lt : Ranks (· < ·) where
  left h := (lt_iff_place.mp h).1
  right h := (lt_iff_place.mp h).2.1
  asymm h h' := by
    obtain ⟨-, -, hlt⟩ := lt_iff_place.mp h
    obtain ⟨-, -, hgt⟩ := lt_iff_place.mp h'
    exact Std.OrientedCmp.not_lt_of_lt hlt hgt
  split {a c} b hb h := by
    by_cases hlt : a < b
    · exact .inl hlt
    · obtain ⟨ha, hc, hac⟩ := lt_iff_place.mp h
      have hba : b ≤ a := le_iff_not_lt.mpr ⟨hb, ha, hlt⟩
      obtain ⟨-, -, hle⟩ := le_iff_place.mp hba
      exact .inr (lt_iff_place.mpr ⟨hb, hc, Std.TransCmp.lt_of_isLE_of_lt hle hac⟩)

theorem ranks_gt : Ranks (· > ·) where
  left h := ranks_lt.right h
  right h := ranks_lt.left h
  asymm h := ranks_lt.asymm h
  split b hb h := (ranks_lt.split b hb h).symm

end LSystem
