/-
# A turtle and its sink stand at the same point

A sink is told where to go and never where the turtle is, so a line that it draws begins at the
point of the call before. `Turtle.Op` lists what can be asked of a turtle. Of these operations a
move, a step and a restore that finds a saved state change the position, and each of them calls
the sink with the new one; nothing else does (`Turtle.Op.apply_cases`). So after any operations
the turtle stands where the last call went, and the positions on its stack are the origin or
points of earlier calls (`Turtle.Anchored`). It follows that the lines of the record are the
steps that the turtle has taken with the pen down, each from the turtle's own position before the
step (`Turtle.segments_after`).

A rendering asks a turtle for a list of such operations, a token being none, one or two of
them, and where it stops in an error the list is cut short. So the lines that any rendering draws
are steps of its turtle as well (`turtle_sink_agree`).

Key definitions: `Turtle.Op`, `Turtle.after`, `Turtle.recorded`, `standing`, `segments`,
`Turtle.strides`, `Turtle.Anchored`, `Token.ops`, `Grammar.setup`.
Key theorems: `Turtle.Op.apply_cases`, `Turtle.Anchored.apply`, `Turtle.Anchored.after`,
`Turtle.segments_after`, `Turtle.after_map`, `perform_follow`, `turtle_sink_agree`.
-/
import LSystem.Proofs.Figure

namespace LSystem

open LineSink (takeAll)

/-! ### Where a sink stands and what it draws -/

/-- The point a sink stands at after calls, when it stood at `p` before them. -/
def standing (p : Point) (calls : List PathCommand) : Point :=
  (calls.getLast?.map PathCommand.point).getD p

/-- The lines that calls draw from `p`, each from the point of the call before it. -/
def segments (p : Point) : List PathCommand → List (Point × Point)
  | [] => []
  | .moveTo q :: calls => segments q calls
  | .lineTo q :: calls => (p, q) :: segments q calls

theorem standing_cons (p : Point) (c : PathCommand) (calls : List PathCommand) :
    standing p (c :: calls) = standing c.point calls := by
  unfold standing
  rw [List.getLast?_cons]
  cases calls.getLast? <;> rfl

theorem standing_concat (p : Point) (calls : List PathCommand) (c : PathCommand) :
    standing p (calls ++ [c]) = c.point := by
  unfold standing
  rw [List.getLast?_concat]
  rfl

/-- One more call draws its line from where the sink stands. -/
theorem segments_concat (c : PathCommand) : ∀ (p : Point) (calls : List PathCommand),
    segments p (calls ++ [c]) = segments p calls ++ segments (standing p calls) [c]
  | _, [] => rfl
  | p, .moveTo q :: calls => by
    rw [standing_cons]
    exact segments_concat c q calls
  | p, .lineTo q :: calls => by
    rw [standing_cons]
    exact congrArg ((p, q) :: ·) (segments_concat c q calls)

/-! ### Operations -/

namespace Turtle

/-- What can be asked of a turtle. -/
inductive Op where
  | setHeading (heading : Angle)
  | setDepthScale (scale : Float)
  | moveTo (p : Point)
  | forward (distance : Float)
  | turn (angle : Angle)
  | penUp
  | penDown
  | save
  | restore
  | enterScale
  | exitScale
  deriving DecidableEq

section

variable {σ τ : Type} [LineSink σ] [LineSink τ]

/-- What an operation makes of a turtle. -/
def Op.apply (t : Turtle σ) : Op → Turtle σ
  | setHeading heading => t.setHeading heading
  | setDepthScale scale => t.setDepthScale scale
  | moveTo p => t.moveTo p
  | forward distance => t.forward distance
  | turn angle => t.turn angle
  | penUp => t.penUp
  | penDown => t.penDown
  | save => t.save
  | restore => t.restore
  | enterScale => t.enterScale
  | exitScale => t.exitScale

/-- The turtle after operations in order. -/
def after (t : Turtle σ) (ops : List Op) : Turtle σ := ops.foldl Op.apply t

/-- Where a turtle goes from and to when an operation makes it step with the pen down. -/
def Op.stride? (t : Turtle σ) : Op → Option (Point × Point)
  | forward distance =>
    match t.pen with
    | .up => none
    | .down => some (t.state.position, (t.forward distance).state.position)
  | _ => none

/-- The steps that operations make a turtle take with the pen down. -/
def strides (t : Turtle σ) : List Op → List (Point × Point)
  | [] => []
  | op :: ops => (op.stride? t).toList ++ strides (op.apply t) ops

theorem after_append (t : Turtle σ) (ops more : List Op) :
    t.after (ops ++ more) = (t.after ops).after more := List.foldl_append

theorem Op.map_apply (f : SinkMap σ τ) (t : Turtle σ) (op : Op) :
    (op.apply t).map f = op.apply (t.map f) := by
  cases op with
  | moveTo p =>
    unfold apply Turtle.moveTo map
    rw [f.map_moveTo]
  | forward distance => exact map_forward f t distance
  | restore => exact map_restore f t
  | _ => rfl

theorem after_map (f : SinkMap σ τ) : ∀ (ops : List Op) (t : Turtle σ),
    (t.after ops).map f = (t.map f).after ops
  | [], _ => rfl
  | op :: ops, t => by
    have ih := after_map f ops (op.apply t)
    rw [Op.map_apply] at ih
    exact ih

theorem Op.stride?_map (f : SinkMap σ τ) (t : Turtle σ) (op : Op) :
    op.stride? (t.map f) = op.stride? t := by
  obtain ⟨sink, state, pen, stack, scaleDepth, depthScale⟩ := t
  cases op with
  | forward distance => cases pen <;> rfl
  | _ => rfl

theorem strides_map (f : SinkMap σ τ) : ∀ (ops : List Op) (t : Turtle σ),
    (t.map f).strides ops = t.strides ops
  | [], _ => rfl
  | op :: ops, t => by
    unfold strides
    rw [Op.stride?_map, ← Op.map_apply, strides_map f ops]

end

/-! ### A turtle that draws into an array -/

/-- The calls that a new turtle makes in the course of operations. -/
def recorded (ops : List Op) : List PathCommand :=
  (({ sink := #[] } : Turtle (Array PathCommand)).after ops).sink.toList

/-- The turtle stands where its last call went, and every state on its stack has the position of
a call. Before the first call, that is the origin. -/
structure Anchored (t : Turtle (Array PathCommand)) : Prop where
  position : t.state.position = standing .origin t.sink.toList
  stack : t.stack.map (·.position) ⊆ .origin :: t.sink.toList.map PathCommand.point

theorem anchored_new : Anchored { sink := #[] } where
  position := rfl
  stack := List.nil_subset _

theorem Anchored.position_mem {t : Turtle (Array PathCommand)} (h : t.Anchored) :
    t.state.position ∈ .origin :: t.sink.toList.map PathCommand.point := by
  rw [h.position, standing]
  cases hlast : t.sink.toList.getLast? with
  | none => exact List.mem_cons_self
  | some c =>
    have hmem : c ∈ t.sink.toList := List.mem_of_getLast? hlast
    exact List.mem_cons_of_mem _ (List.mem_map_of_mem hmem)

/-- **What an operation can do.** It makes one call, which goes to the new position and draws if the
step does, and saves nothing; or it makes no call and no step, and saves the state at most. -/
theorem Op.apply_cases (t : Turtle (Array PathCommand)) (op : Op) :
    (∃ c, (op.apply t).sink.toList = t.sink.toList ++ [c] ∧
      (op.apply t).state.position = c.point ∧ (op.apply t).stack ⊆ t.stack ∧
      (op.stride? t).toList = segments t.state.position [c]) ∨
    ((op.apply t).sink = t.sink ∧ (op.apply t).state.position = t.state.position ∧
      (op.apply t).stack ⊆ t.state :: t.stack ∧ op.stride? t = none) := by
  obtain ⟨sink, state, pen, stack, scaleDepth, depthScale⟩ := t
  cases op with
  | moveTo p => exact .inl ⟨.moveTo p, Array.toList_push, rfl, List.Subset.refl _, rfl⟩
  | forward distance =>
    cases pen with
    | up => exact .inl ⟨.moveTo _, Array.toList_push, rfl, List.Subset.refl _, rfl⟩
    | down => exact .inl ⟨.lineTo _, Array.toList_push, rfl, List.Subset.refl _, rfl⟩
  | restore =>
    cases stack with
    | nil => exact .inr ⟨rfl, rfl, List.nil_subset _, rfl⟩
    | cons s rest =>
      exact .inl ⟨.moveTo s.position, Array.toList_push, rfl, List.subset_cons_self s rest, rfl⟩
  | save => exact .inr ⟨rfl, rfl, List.Subset.refl _, rfl⟩
  | setHeading | setDepthScale | turn | penUp | penDown | enterScale | exitScale =>
    exact .inr ⟨rfl, rfl, List.subset_cons_self state stack, rfl⟩

/-- **An operation keeps turtle and sink together.** -/
theorem Anchored.apply {t : Turtle (Array PathCommand)} (h : t.Anchored) (op : Op) :
    (op.apply t).Anchored := by
  rcases op.apply_cases t with ⟨c, hcalls, hposition, hstack, -⟩ | ⟨hsink, hposition, hstack, -⟩
  · constructor
    · rw [hposition, hcalls, standing_concat]
    · rw [hcalls, List.map_append]
      calc (op.apply t).stack.map (·.position)
        _ ⊆ t.stack.map (·.position) := List.map_subset _ hstack
        _ ⊆ .origin :: t.sink.toList.map PathCommand.point := h.stack
        _ ⊆ .origin :: (t.sink.toList.map PathCommand.point ++ [c].map PathCommand.point) :=
          List.cons_subset_cons _ (List.subset_append_left _ _)
  · constructor
    · rw [hposition, hsink]
      exact h.position
    · rw [hsink]
      calc (op.apply t).stack.map (·.position)
        _ ⊆ (t.state :: t.stack).map (·.position) := List.map_subset _ hstack
        _ ⊆ .origin :: t.sink.toList.map PathCommand.point :=
          List.cons_subset.mpr ⟨h.position_mem, h.stack⟩

/-- **Operations keep turtle and sink together.** -/
theorem Anchored.after {t : Turtle (Array PathCommand)} (h : t.Anchored) :
    ∀ ops : List Op, (t.after ops).Anchored := by
  intro ops
  induction ops generalizing t with
  | nil => exact h
  | cons op ops ih => exact ih (h.apply op)

theorem segments_apply {t : Turtle (Array PathCommand)} (h : t.Anchored) (op : Op) :
    segments .origin (op.apply t).sink.toList =
      segments .origin t.sink.toList ++ (op.stride? t).toList := by
  rcases op.apply_cases t with ⟨c, hcalls, -, -, hstride⟩ | ⟨hsink, -, -, hstride⟩
  · -- a call draws from where the sink stands, and that is where the turtle stands
    rw [hcalls, segments_concat, ← h.position, hstride]
  · rw [hsink, hstride]
    exact (List.append_nil _).symm

/-- **Every line begins where the turtle stood.** -/
theorem segments_after {t : Turtle (Array PathCommand)} (h : t.Anchored) (ops : List Op) :
    segments .origin (t.after ops).sink.toList =
      segments .origin t.sink.toList ++ t.strides ops := by
  induction ops generalizing t with
  | nil => exact (List.append_nil _).symm
  | cons op ops ih =>
    calc segments .origin (t.after (op :: ops)).sink.toList
      _ = segments .origin ((op.apply t).after ops).sink.toList := rfl
      _ = segments .origin (op.apply t).sink.toList ++ (op.apply t).strides ops := ih (h.apply op)
      _ = segments .origin t.sink.toList ++ (op.stride? t).toList ++ (op.apply t).strides ops := by
        rw [segments_apply h op]
      _ = segments .origin t.sink.toList ++ t.strides (op :: ops) := List.append_assoc _ _ _

/-! ### A turtle that draws into any sink -/

section

variable {σ : Type} [LineSink σ] (sink : σ)

/-- A turtle does to its sink what its record says. -/
theorem after_eq_map_recorded (ops : List Op) :
    ({ sink } : Turtle σ).after ops =
      (({ sink := #[] } : Turtle (Array PathCommand)).after ops).map (SinkMap.replay sink) :=
  (after_map (SinkMap.replay sink) ops { sink := #[] }).symm

theorem sink_after (ops : List Op) :
    (({ sink } : Turtle σ).after ops).sink = takeAll sink (recorded ops) := by
  rw [after_eq_map_recorded]
  rfl

theorem position_after (ops : List Op) :
    (({ sink } : Turtle σ).after ops).state.position = standing .origin (recorded ops) := by
  rw [after_eq_map_recorded]
  exact (anchored_new.after ops).position

theorem stack_after (ops : List Op) :
    (({ sink } : Turtle σ).after ops).stack.map (·.position) ⊆
      .origin :: (recorded ops).map PathCommand.point := by
  rw [after_eq_map_recorded]
  exact (anchored_new.after ops).stack

theorem segments_recorded (ops : List Op) :
    segments .origin (recorded ops) = ({ sink } : Turtle σ).strides ops := by
  have hstrides := strides_map (SinkMap.replay sink) ops { sink := #[] }
  exact (segments_after anchored_new ops).trans hstrides.symm

end

end Turtle

/-! ### The operations of a rendering -/

open Turtle (Op)

/-- What a token asks of a turtle when no rule replaces it. -/
def Token.ops (g : Grammar) : Token → List Op
  | .symbol c =>
    if isDraw c then [.penDown, .forward g.stepLength]
    else if isMove c then [.penUp, .forward g.stepLength]
    else []
  | .turn d multiplier => [.turn (g.turnAngle * d.factor multiplier)]
  | .push => [.save]
  | .pop => [.restore]
  | .enterScale => [.enterScale]
  | .exitScale => [.exitScale]
  | .forcedDraw => [.penDown, .forward g.stepLength]

/-- What a rendering asks of its turtle before the first token. -/
def Grammar.setup (g : Grammar) : List Op :=
  [.setHeading g.initialHeading, .setDepthScale g.depthScale, .moveTo .origin]

section

variable {σ : Type} [LineSink σ]

theorem Token.act_eq_after (g : Grammar) (t : Turtle σ) (k : Token) :
    k.act g t = t.after (k.ops g) := by
  cases k with
  | symbol c =>
    simp only [act, ops]
    cases isDraw c with
    | true => rfl
    | false => cases isMove c <;> rfl
  | _ => rfl

theorem Turtle.follow_eq_after (g : Grammar) : ∀ (ks : List Token) (t : Turtle σ),
    t.follow g ks = t.after (ks.flatMap (Token.ops g))
  | [], _ => rfl
  | k :: ks, t => by
    rw [List.flatMap_cons, after_append, ← Token.act_eq_after]
    exact follow_eq_after g ks (k.act g t)

/-- A rendering acts on the tokens of its events, and on the first ones only when it stops in an
error. -/
theorem perform_follow (config : RenderConfig σ) (g : Grammar) :
    ∀ (es : List Event) (s : RenderState σ), ∃ ks, ks <+: acted es ∧
      (endState (perform config g es s)).turtle = s.turtle.follow g ks ∧
      (ks = acted es ∨ ∃ e, (outcome (perform config g es s)).1 = .error e)
  | [], _ => ⟨[], List.prefix_rfl, rfl, .inl rfl⟩
  | .check :: es, s => by
    rw [perform_check]
    cases config.verdict (s.commands + 1) s.turtle.sink.sink with
    | some e => exact ⟨[], List.nil_prefix, rfl, .inr ⟨e, rfl⟩⟩
    | none => exact perform_follow config g es { s with commands := s.commands + 1 }
  | .act k :: es, s => by
    obtain ⟨ks, hks, hturtle, hend⟩ :=
      perform_follow config g es { s with turtle := k.act g s.turtle }
    refine ⟨k :: ks, List.cons_prefix_cons.mpr ⟨rfl, hks⟩, hturtle, ?_⟩
    rcases hend with rfl | herror
    · exact .inl rfl
    · exact .inr herror
  | .reach depth :: es, s =>
    perform_follow config g es { s with maxRecursion := max s.maxRecursion depth }
  | .fail e :: _, _ => ⟨[], List.nil_prefix, rfl, .inr ⟨e, rfl⟩⟩

/-- What a sink that counts its calls passes on. -/
def SinkMap.counted : SinkMap (CountingSink σ) σ where
  toFun := CountingSink.sink
  map_moveTo _ _ := rfl
  map_lineTo _ _ := rfl

/-- The turtle of a rendering has gone through the setup and the tokens that it has acted on. -/
theorem turtle_final (config : RenderConfig σ) (g : Grammar) (sink : σ) :
    ∃ ks, ks <+: acted (g.script config.strategy config.maxExpansion) ∧
      (config.final g sink).turtle =
        ({ sink := { sink } } : Turtle (CountingSink σ)).after
          (g.setup ++ ks.flatMap (Token.ops g)) ∧
      (ks = acted (g.script config.strategy config.maxExpansion) ∨
        ∃ e, (config.render g sink).1 = .error e) := by
  obtain ⟨ks, hks, hturtle, hend⟩ := perform_follow config g
    (g.script config.strategy config.maxExpansion) (.initial g sink)
  refine ⟨ks, hks, ?_, ?_⟩
  · unfold RenderConfig.final
    rw [walkGrammar_eq_perform, Turtle.after_append, ← Turtle.follow_eq_after]
    exact hturtle
  · rw [render_eq_outcome]
    exact hend

theorem sink_render_eq_final (config : RenderConfig σ) (g : Grammar) (sink : σ) :
    (config.render g sink).2 = (config.final g sink).turtle.sink.sink := by
  unfold RenderConfig.render RenderConfig.final
  cases (walkGrammar config g).run (.initial g sink) <;> rfl

/-- **Turtle and sink never drift apart.** After any operations a new turtle stands at the point
of the last call that its sink got, or at the origin if there was none, the positions on its
stack are the origin or points of earlier calls, and the lines drawn are the steps taken with the
pen down, from the turtle's own position. Every rendering is such a list of operations: the
setup, and the operations of the tokens it acts on, which are all of its script or, when it stops
in an error, the first ones. -/
theorem turtle_sink_agree (sink : σ) :
    (∀ ops : List Op,
      let t := ({ sink } : Turtle σ).after ops
      let calls := Turtle.recorded ops
      t.sink = takeAll sink calls ∧
      t.state.position = standing .origin calls ∧
      t.stack.map (·.position) ⊆ .origin :: calls.map PathCommand.point ∧
      segments .origin calls = ({ sink } : Turtle σ).strides ops) ∧
    ∀ (config : RenderConfig σ) (g : Grammar),
      ∃ ks, ks <+: acted (g.script config.strategy config.maxExpansion) ∧
        (ks = acted (g.script config.strategy config.maxExpansion) ∨
          ∃ e, (config.render g sink).1 = .error e) ∧
        let ops := g.setup ++ ks.flatMap (Token.ops g)
        (config.final g sink).turtle =
          ({ sink := { sink } } : Turtle (CountingSink σ)).after ops ∧
        (config.render g sink).2 = takeAll sink (Turtle.recorded ops) ∧
        segments .origin (Turtle.recorded ops) = ({ sink } : Turtle σ).strides ops := by
  constructor
  · intro ops t calls
    exact ⟨Turtle.sink_after sink ops, Turtle.position_after sink ops, Turtle.stack_after sink ops,
      Turtle.segments_recorded sink ops⟩
  · intro config g
    obtain ⟨ks, hks, hturtle, hend⟩ := turtle_final config g sink
    refine ⟨ks, hks, hend, hturtle, ?_, Turtle.segments_recorded sink _⟩
    -- the counts beside the sink change nothing of what it gets
    have hsink := congrArg Turtle.sink
      (Turtle.after_map SinkMap.counted (g.setup ++ ks.flatMap (Token.ops g))
        ({ sink := { sink } } : Turtle (CountingSink σ)))
    rw [sink_render_eq_final, hturtle]
    exact hsink.trans (Turtle.sink_after sink _)

end

end LSystem
