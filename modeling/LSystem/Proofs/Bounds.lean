/-
# What the corners of a recorder enclose

A recorder extends its box call by call, each coordinate apart: the lesser corner stays where it is
as long as it is less than the new coordinate, and takes the new one if not, also when one of the
two is not a number. So a coordinate that is not a number wipes out the corner, and the next one
starts it afresh. What a corner knows is the coordinates after the last one that is not a number:
of the first ones among these it is the last, and without any it is not a number itself (`Leads`).
One call keeps this (`PathRecorder.Framed.take`), hence every history has it
(`PathRecorder.framed_takeAll`).

It follows that the corners enclose every number received on an axis if and only if those after the
last coordinate that is not a number reach as far to both sides as all of them
(`bounds_enclose_iff`). They do if every coordinate is a number; a path that goes through a point
with one that is not can leave its own box (`bounds_miss_origin`).

Key definitions: `Axis`, `Point.coord`, `sinceNaN`, `pick`, `Leads`, `PathRecorder.Framed`.
Key theorems: `sinceNaN_concat`, `Leads.pick`, `PathRecorder.Framed.take`,
`PathRecorder.framed_takeAll`, `bounds_enclose_iff`.
-/
import LSystem.Path.Recorder
import LSystem.Proofs.Doubles
import LSystem.Proofs.Sink

namespace LSystem

open LineSink (take takeAll)

/-! ### Axes -/

/-- The two axes of the plane. -/
inductive Axis where
  | x
  | y
  deriving DecidableEq

/-- The coordinate of a point on an axis. -/
def Point.coord (p : Point) : Axis → Float
  | .x => p.x
  | .y => p.y

/-! ### The coordinates that count -/

/-- The coordinates after the last one that is not a number. -/
def sinceNaN (xs : List Float) : List Float := (xs.reverse.takeWhile (!·.isNaN)).reverse

theorem sinceNaN_concat (xs : List Float) (x : Float) :
    sinceNaN (xs ++ [x]) = if x.isNaN then [] else sinceNaN xs ++ [x] := by
  unfold sinceNaN
  rw [List.reverse_concat, List.takeWhile_cons]
  cases x.isNaN <;> simp

theorem isNaN_of_mem_sinceNaN {xs : List Float} {x : Float} (h : x ∈ sinceNaN xs) :
    x.isNaN = false := by
  unfold sinceNaN at h
  have hnot : (!x.isNaN) = true := List.all_eq_true.mp List.all_takeWhile x (List.mem_reverse.mp h)
  simpa using hnot

theorem sinceNaN_eq_self {xs : List Float} (h : ∀ x ∈ xs, x.isNaN = false) : sinceNaN xs = xs := by
  unfold sinceNaN
  have hall : ∀ x ∈ xs.reverse, (!x.isNaN) = true := by
    intro x hx
    rw [h x (List.mem_reverse.mp hx)]
    rfl
  have htake : (xs.reverse ++ []).takeWhile (!·.isNaN) = xs.reverse ++ [].takeWhile (!·.isNaN) :=
    List.takeWhile_append_of_pos hall
  rw [List.append_nil, List.takeWhile_nil, List.append_nil] at htake
  rw [htake, List.reverse_reverse]

/-! ### The choice between two coordinates -/

/-- The first of two coordinates by an order; the second one if they are equal or not both
numbers. -/
def pick (r : Float → Float → Prop) [DecidableRel r] (a b : Float) : Float := if r a b then a else b

theorem Point.coord_minCorner (p q : Point) : ∀ axis : Axis,
    (p.minCorner q).coord axis = pick (· < ·) (p.coord axis) (q.coord axis)
  | .x | .y => rfl

theorem Point.coord_maxCorner (p q : Point) : ∀ axis : Axis,
    (p.maxCorner q).coord axis = pick (· > ·) (p.coord axis) (q.coord axis)
  | .x | .y => rfl

/-- Of the coordinates that no other comes before, `v` is the last one. Without coordinates, `v` is
not a number. -/
inductive Leads (r : Float → Float → Prop) : List Float → Float → Prop where
  | none {v : Float} : v.isNaN = true → Leads r [] v
  | last (pre post : List Float) {v : Float} : (∀ x ∈ pre, ¬ r x v) → (∀ x ∈ post, r v x) →
      Leads r (pre ++ v :: post) v

namespace Leads

variable {r : Float → Float → Prop} {xs : List Float} {v x : Float}

theorem singleton (r : Float → Float → Prop) (x : Float) : Leads r (sinceNaN [x]) x := by
  have hconcat := sinceNaN_concat [] x
  cases hx : x.isNaN with
  | true =>
    rw [hx] at hconcat
    exact hconcat ▸ .none hx
  | false =>
    rw [hx] at hconcat
    exact hconcat ▸ .last [] [] nofun nofun

theorem ne_nil (h : Leads r xs v) (hv : v.isNaN = false) : xs ≠ [] := by
  cases h with
  | none hnan =>
    rw [hnan] at hv
    cases hv
  | last => simp

theorem mem (h : Leads r xs v) (hxs : xs ≠ []) : v ∈ xs := by
  cases h with
  | none => exact absurd rfl hxs
  | last => simp

theorem not_before (hr : Ranks r) (h : Leads r xs v) (hx : x ∈ xs) : ¬ r x v := by
  cases h with
  | none => cases hx
  | last pre post hpre hpost =>
    rcases List.mem_append.mp hx with hx | hx
    · exact hpre x hx
    · rcases List.mem_cons.mp hx with rfl | hx
      · exact fun h => hr.asymm h h
      · exact hr.asymm (hpost x hx)

/-- A new coordinate that comes behind the one that leads leaves it there. -/
theorem concat_behind (hr : Ranks r) (h : Leads r xs v) (hvx : r v x) : Leads r (xs ++ [x]) v := by
  cases h with
  | none hnan =>
    rw [hr.left hvx] at hnan
    cases hnan
  | last pre post hpre hpost =>
    have hpost' : ∀ y ∈ post ++ [x], r v y := by
      intro y hy
      rcases List.mem_append.mp hy with hy | hy
      · exact hpost y hy
      · exact List.mem_singleton.mp hy ▸ hvx
    rw [List.append_assoc]
    exact .last pre _ hpre hpost'

/-- A new coordinate that does not come behind the one that leads takes its place. -/
theorem concat_before (hr : Ranks r) (hnum : ∀ y ∈ xs, y.isNaN = false) (h : Leads r xs v)
    (hvx : ¬ r v x) : Leads r (xs ++ [x]) x := by
  refine .last xs [] (fun y hy hyx => ?_) nofun
  have hv : v.isNaN = false := hnum v (h.mem (List.ne_nil_of_mem hy))
  -- the old leader would lie behind a coordinate that leads with it, or before the new one
  rcases hr.split v hv hyx with hyv | hvx'
  · exact h.not_before hr hy hyv
  · exact hvx hvx'

/-- **The choice between the corner and a new coordinate leads.** -/
theorem pick [DecidableRel r] (hr : Ranks r) (h : Leads r (sinceNaN xs) v) (x : Float) :
    Leads r (sinceNaN (xs ++ [x])) (pick r v x) := by
  rw [sinceNaN_concat]
  unfold LSystem.pick
  by_cases hvx : r v x
  · rw [if_pos hvx, if_neg (Bool.eq_false_iff.mp (hr.right hvx))]
    exact h.concat_behind hr hvx
  · rw [if_neg hvx]
    cases hx : x.isNaN with
    | true => exact .none hx
    | false => exact h.concat_before hr (fun _ => isNaN_of_mem_sinceNaN) hvx

end Leads

/-! ### The corners of a recorder -/

/-- The coordinates of calls on an axis. -/
def coords (axis : Axis) (calls : List PathCommand) : List Float := calls.map (·.point.coord axis)

namespace PathRecorder

/-- The corners of a recorder that has taken in calls: on each axis, those that lead the coordinates
that count, by `<` and by `>`. -/
structure Framed (r : PathRecorder) (calls : List PathCommand) (lo hi : Point) : Prop where
  min : r.min = some lo
  max : r.max = some hi
  lesser : ∀ axis, Leads (· < ·) (sinceNaN (coords axis calls)) (lo.coord axis)
  greater : ∀ axis, Leads (· > ·) (sinceNaN (coords axis calls)) (hi.coord axis)

variable {r : PathRecorder} {calls : List PathCommand} {lo hi : Point}

theorem Framed.bounds (h : r.Framed calls lo hi) : r.bounds = some (lo, hi) := by
  unfold PathRecorder.bounds
  rw [h.min, h.max]
  rfl

theorem min_take (r : PathRecorder) : ∀ c : PathCommand,
    (take r c).min = some (r.min.elim c.point (·.minCorner c.point))
  | .moveTo _ | .lineTo _ => rfl

theorem max_take (r : PathRecorder) : ∀ c : PathCommand,
    (take r c).max = some (r.max.elim c.point (·.maxCorner c.point))
  | .moveTo _ | .lineTo _ => rfl

theorem framed_first (c : PathCommand) : Framed (take {} c) [c] c.point c.point where
  min := min_take {} c
  max := max_take {} c
  lesser _ := Leads.singleton _ _
  greater _ := Leads.singleton _ _

/-- **A call keeps the frame.** -/
theorem Framed.take (h : r.Framed calls lo hi) (c : PathCommand) :
    (take r c).Framed (calls ++ [c]) (lo.minCorner c.point) (hi.maxCorner c.point) where
  min := by
    rw [min_take, h.min]
    rfl
  max := by
    rw [max_take, h.max]
    rfl
  lesser axis := by
    rw [Point.coord_minCorner, coords, List.map_append]
    exact (h.lesser axis).pick ranks_lt _
  greater axis := by
    rw [Point.coord_maxCorner, coords, List.map_append]
    exact (h.greater axis).pick ranks_gt _

/-- **Calls keep the frame.** -/
theorem Framed.takeAll : ∀ (more : List PathCommand) {r : PathRecorder} {calls : List PathCommand}
    {lo hi : Point}, r.Framed calls lo hi →
      ∃ lo hi, (takeAll r more).Framed (calls ++ more) lo hi
  | [], _, calls, lo, hi, h => ⟨lo, hi, by rwa [List.append_nil]⟩
  | c :: more, _, calls, _, _, h => by
    rw [List.append_cons]
    exact Framed.takeAll more (h.take c)

/-- **The corners of a recorder frame its history.** -/
theorem framed_takeAll (c : PathCommand) (calls : List PathCommand) :
    ∃ lo hi, (LineSink.takeAll ({} : PathRecorder) (c :: calls)).Framed (c :: calls) lo hi :=
  Framed.takeAll calls (framed_first c)

/-- A recorder has corners, and a number on an axis lies between them. -/
def Encloses (r : PathRecorder) (axis : Axis) (x : Float) : Prop :=
  ∃ lo hi, r.bounds = some (lo, hi) ∧ lo.coord axis ≤ x ∧ x ≤ hi.coord axis

theorem Framed.within (h : r.Framed calls lo hi) (axis : Axis) {x : Float}
    (hx : x ∈ sinceNaN (coords axis calls)) : lo.coord axis ≤ x ∧ x ≤ hi.coord axis := by
  have hnum : x.isNaN = false := isNaN_of_mem_sinceNaN hx
  have hne : sinceNaN (coords axis calls) ≠ [] := List.ne_nil_of_mem hx
  have hlo : (lo.coord axis).isNaN = false := isNaN_of_mem_sinceNaN ((h.lesser axis).mem hne)
  have hhi : (hi.coord axis).isNaN = false := isNaN_of_mem_sinceNaN ((h.greater axis).mem hne)
  have hnot_lt : ¬ x < lo.coord axis := (h.lesser axis).not_before ranks_lt hx
  have hnot_gt : ¬ x > hi.coord axis := (h.greater axis).not_before ranks_gt hx
  exact ⟨le_iff_not_lt.mpr ⟨hlo, hnum, hnot_lt⟩, le_iff_not_lt.mpr ⟨hnum, hhi, hnot_gt⟩⟩

/-- The corners enclose what lies between two of the coordinates that count, and nothing else. -/
theorem Framed.encloses_iff (h : r.Framed calls lo hi) (axis : Axis) (x : Float) :
    r.Encloses axis x ↔
      ∃ y ∈ sinceNaN (coords axis calls), ∃ z ∈ sinceNaN (coords axis calls), y ≤ x ∧ x ≤ z := by
  constructor
  · rintro ⟨lo', hi', hbounds, hlo, hhi⟩
    obtain ⟨rfl, rfl⟩ : lo = lo' ∧ hi = hi' := by simpa [h.bounds] using hbounds
    have hnum : (lo.coord axis).isNaN = false := (le_iff_not_lt.mp hlo).1
    have hne : sinceNaN (coords axis calls) ≠ [] := (h.lesser axis).ne_nil hnum
    exact ⟨_, (h.lesser axis).mem hne, _, (h.greater axis).mem hne, hlo, hhi⟩
  · rintro ⟨y, hy, z, hz, hyx, hxz⟩
    have hlo : lo.coord axis ≤ x := double_le_trans (h.within axis hy).1 hyx
    have hhi : x ≤ hi.coord axis := double_le_trans hxz (h.within axis hz).2
    exact ⟨lo, hi, h.bounds, hlo, hhi⟩

end PathRecorder

/-- **What the corners enclose.** A recorder has corners as soon as it has got a call. On each axis,
they enclose the coordinates after the last one that is not a number, and so all coordinates if
each is a number. They enclose every number among the coordinates if and only if each of them lies
between two that came after the last one that is not a number. -/
theorem bounds_enclose_iff (calls : List PathCommand) :
    let r := takeAll ({} : PathRecorder) calls
    (r.bounds = none ↔ calls = []) ∧
    ∀ axis,
      let all := coords axis calls
      (∀ x ∈ sinceNaN all, r.Encloses axis x) ∧
      ((∀ x ∈ all, x.isNaN = false) → ∀ x ∈ all, r.Encloses axis x) ∧
      ((∀ x ∈ all, x.isNaN = false → r.Encloses axis x) ↔
        ∀ x ∈ all, x.isNaN = false → ∃ y ∈ sinceNaN all, ∃ z ∈ sinceNaN all, y ≤ x ∧ x ≤ z) := by
  intro r
  cases calls with
  | nil => exact ⟨⟨fun _ => rfl, fun _ => rfl⟩, fun axis => ⟨nofun, nofun, ⟨nofun, nofun⟩⟩⟩
  | cons c calls =>
    obtain ⟨lo, hi, hframed⟩ := PathRecorder.framed_takeAll c calls
    have hbounds : r.bounds = some (lo, hi) := hframed.bounds
    refine ⟨⟨fun h => ?_, nofun⟩, fun axis => ?_⟩
    · rw [hbounds] at h
      cases h
    · have hcounts (x : Float) (hx : x ∈ sinceNaN (coords axis (c :: calls))) :
          r.Encloses axis x := ⟨lo, hi, hbounds, hframed.within axis hx⟩
      refine ⟨hcounts, fun hnum x hx => hcounts x ?_, ?_⟩
      · rwa [sinceNaN_eq_self hnum]
      · simp only [r, hframed.encloses_iff axis]

/-- A coordinate in between that is not a number: the corners enclose what comes after it, and all
coordinates on the other axis. -/
theorem bounds_enclose_beside :
    let calls : List PathCommand := [.moveTo .origin, .moveTo ⟨0 / 0, 2⟩, .lineTo ⟨5, -1⟩]
    let r := takeAll ({} : PathRecorder) calls
    (5 ∈ sinceNaN (coords .x calls) ∧ r.Encloses .x 5) ∧
      (∀ y ∈ coords .y calls, y.isNaN = false) ∧ ∀ y ∈ coords .y calls, r.Encloses .y y := by
  intro calls r
  have hsince : sinceNaN (coords .x calls) = [5] := by decide
  have hcounts : 5 ∈ sinceNaN (coords .x calls) := by
    rw [hsince]
    exact List.mem_cons_self
  have hnum : ∀ y ∈ coords .y calls, y.isNaN = false := by decide
  obtain ⟨-, hbounds⟩ := bounds_enclose_iff calls
  exact ⟨⟨hcounts, (hbounds .x).1 5 hcounts⟩, hnum, (hbounds .y).2.1 hnum⟩

/-- A coordinate in between that is not a number makes the corners lose the origin. -/
theorem bounds_miss_origin :
    let calls : List PathCommand := [.moveTo .origin, .moveTo ⟨0 / 0, 0⟩, .lineTo ⟨5, 0⟩]
    ¬ ∀ axis, ∀ x ∈ coords axis calls, x.isNaN = false →
      (takeAll ({} : PathRecorder) calls).Encloses axis x := by
  intro calls h
  have hbounds : (takeAll ({} : PathRecorder) calls).bounds = some (⟨5, 0⟩, ⟨5, 0⟩) := by decide
  obtain ⟨lo, hi, hsome, hlo, -⟩ := h .x 0 List.mem_cons_self (by decide)
  obtain ⟨rfl, -⟩ : (⟨5, 0⟩ : Point) = lo ∧ (⟨5, 0⟩ : Point) = hi := by simpa [hbounds] using hsome
  exact absurd hlo (by decide)

end LSystem
