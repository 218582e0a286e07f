/-
# The shortest decimal reads back

All a decimal has to do to read as a magnitude is to lie between it and the middle to the next one
(`Decimal.magnitude?_of_between`). On a grid with a step of less than half a gap, the grid point
right above a magnitude lies there, and so does every double itself on the finest grid. The search
for a shortest decimal, which goes from coarse grids to fine ones, thus ends before it leaves such a
grid behind (`Decimal.shortestFrom_spec`). The coarsest one of them still has fewer than `10 ^ 18`
steps up to the magnitude, because a gap has no more than twenty steps there (`Decimal.exists_grid`).

Key definitions: `Decimal.gridGap`.
Key theorems: `Decimal.gridGap_spec`, `Decimal.magnitude?_of_between`, `Decimal.exists_grid`, `Decimal.shortestFrom_spec`,
`Decimal.shortest_spec`.
-/
import Mathlib.Data.Nat.Log
import LSystem.Decimal.Shortest
import LSystem.Proofs.NearestDouble

namespace LSystem.Decimal

/-! ### Reading on the finest grid -/

/-- A unit of `2 ^ -1074` is a multiple of `10 ^ -1074`, and not a small one. The factor is kept
abstract, so that nothing evaluates the power. -/
theorem exists_factor :
    ∃ u, 22 ≤ u ∧ tenTo 1074 = u <<< 1074 ∧ ∀ m, exact m = u * Binary64.units m := by
  have hpower (k : Nat) (hk : 2 ≤ k) : ∃ u, Nat.pow 5 k = u ∧ 22 ≤ u ∧ tenTo k = u <<< k := by
    have hle : 22 ≤ 5 ^ k :=
      Nat.le_trans (by decide : 22 ≤ 5 ^ 2) (Nat.pow_le_pow_right (by decide) hk)
    have hten : tenTo k = 5 ^ k * 2 ^ k := Nat.mul_pow 5 2 k
    exact ⟨5 ^ k, rfl, hle, by rw [hten, Nat.shiftLeft_eq]⟩
  obtain ⟨u, hu, hle, hten⟩ := hpower 1074 (by decide)
  exact ⟨u, hle, hten, fun m => by rw [exact, hu]⟩

/-- How many times `10 ^ -1074` the next magnitude is away. -/
def gridGap (m : Nat) : Nat := exact (m + 1) - exact m

/-- A gap on the finest grid: it is not small, no more than the magnitude before it, and no less
than the share of it that two binades of gaps make up. -/
theorem gridGap_spec (m : Nat) : exact (m + 1) = exact m + gridGap m ∧ 22 ≤ gridGap m ∧
    (0 < m → gridGap m ≤ exact m) ∧ exact m < 2 * Binary64.binade * gridGap m := by
  obtain ⟨u, hle, -, hexact⟩ := exists_factor
  have hu : 0 < u := by omega
  have hsucc : exact (m + 1) = exact m + u * Binary64.gap m := by
    rw [hexact, hexact, Binary64.units_succ, Nat.mul_add]
  have hgap : gridGap m = u * Binary64.gap m := by rw [gridGap, hsucc, Nat.add_sub_cancel_left]
  rw [hsucc, hgap, hexact, Nat.mul_left_comm]
  refine ⟨rfl, ?_, fun hm => ?_, ?_⟩
  · exact Nat.le_trans hle (Nat.le_mul_of_pos_right _ (Binary64.gap_pos m))
  · exact Nat.mul_le_mul_left _ (Binary64.gap_le_units hm)
  · exact Nat.mul_lt_mul_of_pos_left (Binary64.units_lt_gap m) hu

/-- **A decimal between a finite magnitude and the middle to the next one reads as it.** -/
theorem magnitude?_of_between {m a : Nat} (hm : m < Binary64.infinity) (hlo : exact m ≤ a)
    (hhi : 2 * a < exact m + exact (m + 1)) : magnitude? ⟨a, -1074⟩ = some m := by
  obtain ⟨u, -, hten, hexact⟩ := exists_factor
  have hnearest : nearest ⟨a, -1074⟩ = Binary64.nearest a (tenTo 1074) := rfl
  have hm' : nearest ⟨a, -1074⟩ = m := by
    rw [hexact] at hlo
    rw [hexact, hexact, ← Nat.mul_add] at hhi
    rw [hnearest, hten]
    apply Binary64.nearest_of_between
    · rw [Nat.shiftLeft_eq, Nat.shiftLeft_eq, ← Nat.mul_assoc, Nat.mul_comm (Binary64.units m)]
      exact Nat.mul_le_mul_right _ hlo
    · rw [Nat.shiftLeft_eq, Nat.shiftLeft_eq, ← Nat.mul_assoc, ← Nat.mul_assoc,
        Nat.mul_comm (_ + _)]
      exact Nat.mul_lt_mul_of_pos_right hhi (Nat.two_pow_pos _)
  rw [magnitude?_eq, hm', if_pos hm]

theorem magnitude?_gridPoint (steps k : Nat) :
    (gridPoint steps k).magnitude? = magnitude? ⟨steps * tenTo k, -1074⟩ := by
  have hexponent : (k : Int) - 1074 = -1074 + k := by omega
  rw [magnitude?_shift, gridPoint, hexponent]

theorem readsAs_iff {d : Decimal} {m : Nat} : d.readsAs m = true ↔ d.magnitude? = some m :=
  beq_iff_eq

/-- **The grid point above a magnitude reads as it**, if the grid is fine enough. -/
theorem readsAs_above {m k : Nat} (hm : m < Binary64.infinity) (hk : 2 * tenTo k < gridGap m) :
    (gridPoint (exact m / tenTo k + 1) k).readsAs m = true := by
  have hpos := tenTo_pos k
  have hdiv : exact m / tenTo k * tenTo k ≤ exact m := Nat.div_mul_le_self _ _
  have hlt : exact m < (exact m / tenTo k + 1) * tenTo k :=
    Nat.lt_mul_of_div_lt (Nat.lt_succ_self _) hpos
  rw [readsAs_iff, magnitude?_gridPoint]
  apply magnitude?_of_between hm (Nat.le_of_lt hlt)
  have hstep : (exact m / tenTo k + 1) * tenTo k = exact m / tenTo k * tenTo k + tenTo k :=
    Nat.succ_mul _ _
  obtain ⟨hsucc, -⟩ := gridGap_spec m
  omega

theorem readsAs_exact {m : Nat} (hm : m < Binary64.infinity) :
    (gridPoint (exact m) 0).readsAs m = true := by
  obtain ⟨hsucc, hgap, -⟩ := gridGap_spec m
  have hone : tenTo 0 = 1 := rfl
  rw [readsAs_iff, magnitude?_gridPoint, hone, Nat.mul_one]
  apply magnitude?_of_between hm (Nat.le_refl _)
  omega

/-! ### The search for the shortest one -/

/-- There is a grid that is fine enough for a magnitude, but not finer than it must be. -/
theorem exists_grid (m : Nat) : ∃ k, 2 * tenTo k < gridGap m ∧ gridGap m ≤ 20 * tenTo k := by
  obtain ⟨-, hgap, -⟩ := gridGap_spec m
  have hhalf : (gridGap m - 1) / 2 ≠ 0 := by omega
  -- the greatest power of ten that is less than half a gap
  refine ⟨Nat.log 10 ((gridGap m - 1) / 2), ?_, ?_⟩
  · have hle : tenTo (Nat.log 10 ((gridGap m - 1) / 2)) ≤ (gridGap m - 1) / 2 :=
      Nat.pow_log_le_self 10 hhalf
    omega
  · have hlt : (gridGap m - 1) / 2 < tenTo (Nat.log 10 ((gridGap m - 1) / 2) + 1) :=
      Nat.lt_pow_succ_log_self (by decide) _
    have hten : tenTo 1 = 10 := rfl
    rw [tenTo_add, hten] at hlt
    omega

theorem nearerStep_le (half : Half) (n k : Nat) : nearerStep half n k ≤ n / tenTo k + 1 := by
  unfold nearerStep
  grind

theorem nearerStep_eq (half : Half) (n k : Nat) :
    nearerStep half n k = n / tenTo k ∨ nearerStep half n k = n / tenTo k + 1 := by
  unfold nearerStep
  grind

/-- **The search finds a decimal that reads back**, on a grid not finer than one that is known to
be fine enough. -/
theorem shortestFrom_spec (half : Half) {m fine : Nat} (hm : m < Binary64.infinity)
    (hfine : (gridPoint (exact m / tenTo fine + 1) fine).readsAs m = true) :
    ∀ k, fine ≤ k → ∃ steps grid, shortestFrom half m (exact m) k = gridPoint steps grid ∧
      fine ≤ grid ∧ steps ≤ exact m / tenTo grid + 1 ∧ (gridPoint steps grid).readsAs m = true
  | 0, hk => by
    have hone : tenTo 0 = 1 := rfl
    refine ⟨exact m, 0, rfl, hk, ?_, readsAs_exact hm⟩
    rw [hone, Nat.div_one]
    exact Nat.le_succ _
  | k + 1, hk => by
    rw [shortestFrom]
    cases hbelow : (gridPoint (exact m / tenTo (k + 1)) (k + 1)).readsAs m with
    | true =>
      cases habove : (gridPoint (exact m / tenTo (k + 1) + 1) (k + 1)).readsAs m with
      | true =>
        refine ⟨nearerStep half (exact m) (k + 1), k + 1, rfl, hk, nearerStep_le _ _ _, ?_⟩
        rcases nearerStep_eq half (exact m) (k + 1) with h | h
        · rwa [h]
        · rwa [h]
      | false => exact ⟨_, k + 1, rfl, hk, Nat.le_succ _, hbelow⟩
    | false =>
      cases habove : (gridPoint (exact m / tenTo (k + 1) + 1) (k + 1)).readsAs m with
      | true => exact ⟨_, k + 1, rfl, hk, Nat.le_refl _, habove⟩
      | false =>
        -- this grid is not the one known to be fine enough, so that one is still to come
        have hne : fine ≠ k + 1 := by
          rintro rfl
          rw [hfine] at habove
          contradiction
        exact shortestFrom_spec half hm hfine k (by omega)

/-- The search starts on a grid that is coarser than a magnitude. -/
theorem exact_lt_tenTo {m : Nat} (h : 0 < m) : exact m < tenTo ((exact m).log2 / 3 + 1) := by
  have hpos : exact m ≠ 0 := by
    obtain ⟨-, hgap, hle, -⟩ := gridGap_spec m
    have hle := hle h
    omega
  calc exact m
    _ < 2 ^ ((exact m).log2 + 1) := Nat.lt_log2_self
    _ ≤ 2 ^ (3 * ((exact m).log2 / 3 + 1)) := Nat.pow_le_pow_right (by decide) (by omega)
    _ ≤ tenTo ((exact m).log2 / 3 + 1) := two_pow_le_tenTo _

/-- **The shortest decimal of a finite magnitude reads as it**, and has at most eighteen digits. -/
theorem shortest_spec (half : Half) {m : Nat} (hm : m < Binary64.infinity) :
    (shortest half m).magnitude? = some m ∧ (shortest half m).significand < tenTo 18 := by
  by_cases h0 : m = 0
  · rw [shortest, if_pos h0, h0]
    exact ⟨rfl, by decide⟩
  · have hpos : 0 < m := Nat.pos_of_ne_zero h0
    obtain ⟨fine, hlo, hhi⟩ := exists_grid m
    have hfine : fine ≤ (exact m).log2 / 3 + 1 := by
      have hlt : tenTo fine < tenTo ((exact m).log2 / 3 + 1) := by
        obtain ⟨-, -, hgap, -⟩ := gridGap_spec m
        have hgap := hgap hpos
        have hstart := exact_lt_tenTo hpos
        omega
      exact Nat.le_of_lt ((Nat.pow_lt_pow_iff_right (by decide)).mp hlt)
    obtain ⟨steps, grid, heq, hgrid, hsteps, hreads⟩ :=
      shortestFrom_spec half hm (readsAs_above hm hlo) _ hfine
    have hshortest : shortest half m = gridPoint steps grid := by rw [shortest, if_neg h0, heq]
    refine ⟨hshortest ▸ readsAs_iff.mp hreads, ?_⟩
    have hcoarse : tenTo fine ≤ tenTo grid := Nat.pow_le_pow_right (by decide) hgrid
    obtain ⟨-, -, -, hshare⟩ := gridGap_spec m
    have hbelow : exact m / tenTo grid < 2 * Binary64.binade * 20 := by
      rw [Nat.div_lt_iff_lt_mul (tenTo_pos grid)]
      calc exact m
        _ < 2 * Binary64.binade * gridGap m := hshare
        _ ≤ 2 * Binary64.binade * (20 * tenTo grid) := Nat.mul_le_mul_left _ (by omega)
        _ = 2 * Binary64.binade * 20 * tenTo grid := (Nat.mul_assoc _ _ _).symm
    have hdigits : 2 * Binary64.binade * 20 + 1 < tenTo 18 := by decide
    rw [hshortest]
    show steps < tenTo 18
    omega

end LSystem.Decimal
