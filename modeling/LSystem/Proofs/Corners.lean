/-
# The corners of a history

A corner of a recorder is found call by call, and neither choice between two coordinates is
associative: one that is not a number wipes out what was chosen before it, and of the two zeros the
later one is taken. All the same the corner after any history has a description that does not go
through the calls (`IsCorner`): only the coordinates after the last one that is not a number count, of
these the first ones by the order, and of equal ones the last. This is what leads them
(`Leads.isCorner`), and coordinates have one corner only, bit by bit (`IsCorner.unique`).

Key definitions: `IsCorner`.
Key theorems: `Leads.isCorner`, `IsCorner.unique`, `bounds_of_history`.
-/
import LSystem.Proofs.Bounds
import LSystem.Proofs.DoubleWords

namespace LSystem

open LineSink (takeAll)

/-! ### The corner of coordinates -/

/-- The corner of coordinates by an order: of those after the last one that is not a number, the first
one by the order, and of equal ones the last. If the last coordinate of all is not a number, then
neither is the corner. -/
def IsCorner (le lt : Float → Float → Prop) (xs : List Float) (v : Float) : Prop :=
  if xs.getLast?.any (·.isNaN) then v.isNaN = true
  else ∃ pre post, sinceNaN xs = pre ++ v :: post ∧ (∀ x ∈ pre, le v x) ∧ ∀ x ∈ post, lt v x

theorem sinceNaN_eq_nil_iff {xs : List Float} (hxs : xs ≠ []) :
    sinceNaN xs = [] ↔ xs.getLast?.any (·.isNaN) = true := by
  obtain ⟨init, x, rfl⟩ := List.eq_nil_or_concat xs |>.resolve_left hxs
  rw [List.concat_eq_append, sinceNaN_concat, List.getLast?_concat, Option.any_some]
  cases x.isNaN <;> simp

section

variable {le lt : Float → Float → Prop} {xs : List Float} {v w : Float}

theorem Leads.isCorner (hle : ∀ {a b}, le a b ↔ a.isNaN = false ∧ b.isNaN = false ∧ ¬ lt b a)
    (h : Leads lt (sinceNaN xs) v) (hxs : xs ≠ []) : IsCorner le lt xs v := by
  unfold IsCorner
  have hnil := sinceNaN_eq_nil_iff hxs
  by_cases hlast : xs.getLast?.any (·.isNaN) = true
  · rw [if_pos hlast]
    by_contra hv
    exact h.ne_nil (Bool.eq_false_iff.mpr hv) (hnil.mpr hlast)
  · rw [if_neg hlast]
    have hmem : v ∈ sinceNaN xs := h.mem fun h => hlast (hnil.mp h)
    have hnum : ∀ x ∈ sinceNaN xs, x.isNaN = false := fun _ => isNaN_of_mem_sinceNaN
    generalize sinceNaN xs = since at h hmem hnum
    cases h with
    | none => cases hmem
    | last pre post hpre hpost =>
      refine ⟨pre, post, rfl, fun x hx => hle.mpr ⟨hnum v hmem, hnum x ?_, hpre x hx⟩, hpost⟩
      exact List.mem_append_left _ hx

/-- Two corners, of which the second stands at the place of the first or later, are the same. -/
theorem eq_of_corners (hle : ∀ a b, le a b → ¬ lt b a) {post between post' : List Float}
    (heq : v :: post = between ++ w :: post') (hpost : ∀ x ∈ post, lt v x)
    (hbetween : ∀ x ∈ between, le w x) : v = w := by
  cases between with
  | nil => exact (List.cons.inj heq).1
  | cons x between =>
    obtain ⟨rfl, rfl⟩ := List.cons.inj heq
    -- `w` stands later, so `v` comes before it, and `v` stands earlier, so it does not
    have hbefore : lt v w := hpost w (by simp)
    exact absurd hbefore (hle w v (hbetween v List.mem_cons_self))

/-- **Coordinates have one corner**, bit by bit. -/
theorem IsCorner.unique (hle : ∀ a b, le a b → ¬ lt b a) (hv : IsCorner le lt xs v)
    (hw : IsCorner le lt xs w) : v = w := by
  unfold IsCorner at hv hw
  by_cases hlast : xs.getLast?.any (·.isNaN) = true
  · rw [if_pos hlast, Float.isNaN_eq_decide_eq_nan, decide_eq_true_iff] at hv hw
    rw [hv, hw]
  · rw [if_neg hlast] at hv hw
    obtain ⟨pre, post, heq, hpre, hpost⟩ := hv
    obtain ⟨pre', post', heq', hpre', hpost'⟩ := hw
    rcases List.append_eq_append_iff.mp (heq.symm.trans heq') with
      ⟨between, rfl, hsplit⟩ | ⟨between, rfl, hsplit⟩
    · exact eq_of_corners hle hsplit hpost fun x hx => hpre' x (List.mem_append_right pre hx)
    · exact (eq_of_corners hle hsplit hpost' fun x hx => hpre x (List.mem_append_right pre' hx)).symm

end

/-- **The corners of any history.** A recorder that has got a call has corners, and on each axis they
are settled by the coordinates it has got on that axis. Neither is a number if the last coordinate is
not. Otherwise the lesser one is the least and the greater one the greatest of the coordinates after
the last one that is not a number, and of equal ones, such as the two zeros, the one that came last.
No other doubles are the corners, not even equal ones. -/
theorem bounds_of_history (c : PathCommand) (calls : List PathCommand) :
    ∃ lo hi, (takeAll ({} : PathRecorder) (c :: calls)).bounds = some (lo, hi) ∧
      ∀ (axis : Axis) (v : Float),
        (v = lo.coord axis ↔ IsCorner (· ≤ ·) (· < ·) (coords axis (c :: calls)) v) ∧
        (v = hi.coord axis ↔ IsCorner (· ≥ ·) (· > ·) (coords axis (c :: calls)) v) := by
  obtain ⟨lo, hi, hframed⟩ := PathRecorder.framed_takeAll c calls
  refine ⟨lo, hi, hframed.bounds, fun axis v => ?_⟩
  have hcoords : coords axis (c :: calls) ≠ [] := List.cons_ne_nil _ _
  have hge {a b : Float} : a ≥ b ↔ a.isNaN = false ∧ b.isNaN = false ∧ ¬ a < b := by
    rw [ge_iff_le, le_iff_not_lt, and_left_comm]
  have hlo := (hframed.lesser axis).isCorner le_iff_not_lt hcoords
  have hhi := (hframed.greater axis).isCorner hge hcoords
  refine ⟨⟨fun h => h ▸ hlo, fun h => ?_⟩, ⟨fun h => h ▸ hhi, fun h => ?_⟩⟩
  · exact h.unique (fun _ _ hle => (le_iff_not_lt.mp hle).2.2) hlo
  · exact h.unique (fun _ _ hle => (hge.mp hle).2.2) hhi

/-- Behind a coordinate that is not a number the box starts afresh on that axis alone, and of the two
zeros the later one is both corners. -/
example :
    let calls : List PathCommand :=
      [.moveTo ⟨-3, 0⟩, .lineTo ⟨0 / 0, 7⟩, .lineTo ⟨0, 7⟩, .moveTo ⟨-0.0, 2⟩]
    (takeAll ({} : PathRecorder) calls).bounds = some (⟨-0.0, 0⟩, ⟨-0.0, 7⟩) := by
  decide +kernel

end LSystem
