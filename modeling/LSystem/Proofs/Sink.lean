/-
# Rendering into one sink and into another

A rendering hands calls to its sink and never reads it, but for the host's wish to stop. So a
map between sinks that goes along with the calls takes every rendering into the first sink to
the same rendering into the second one (`render_map`). The calls recorded in an array can be
handed to any sink afterwards, which makes rendering into a sink the same as recording first
and replaying the record then (`render_eq_replay`).

Key definitions: `LineSink.takeAll`, `SinkMap`, `SinkMap.replay`, `RenderConfig.comap`,
`RenderConfig.final`.
Key theorems: `perform_map`, `render_map`, `render_eq_replay`.
-/
import LSystem.Proofs.Script

namespace LSystem

/-! ### Sinks -/

namespace LineSink

variable {σ : Type} [LineSink σ]

/-- Takes in one call. -/
def take (s : σ) : PathCommand → σ
  | .moveTo p => moveTo s p
  | .lineTo p => lineTo s p

/-- Takes in calls in order. -/
def takeAll (s : σ) (calls : List PathCommand) : σ := calls.foldl take s

@[simp] theorem takeAll_nil (s : σ) : takeAll s [] = s := rfl

@[simp] theorem takeAll_cons (s : σ) (c : PathCommand) (calls : List PathCommand) :
    takeAll s (c :: calls) = takeAll (take s c) calls := rfl

theorem takeAll_append (s : σ) (calls more : List PathCommand) :
    takeAll s (calls ++ more) = takeAll (takeAll s calls) more := by simp [takeAll]

end LineSink

/-- A map between sinks that goes along with the calls they take in. -/
structure SinkMap (σ τ : Type) [LineSink σ] [LineSink τ] where
  toFun : σ → τ
  map_moveTo : ∀ s p, toFun (LineSink.moveTo s p) = LineSink.moveTo (toFun s) p
  map_lineTo : ∀ s p, toFun (LineSink.lineTo s p) = LineSink.lineTo (toFun s) p

namespace SinkMap

variable {σ τ : Type} [LineSink σ] [LineSink τ]

instance : CoeFun (SinkMap σ τ) fun _ => σ → τ := ⟨toFun⟩

theorem map_take (f : SinkMap σ τ) (s : σ) : ∀ c, f (LineSink.take s c) = LineSink.take (f s) c
  | .moveTo p => f.map_moveTo s p
  | .lineTo p => f.map_lineTo s p

theorem map_takeAll (f : SinkMap σ τ) : ∀ (calls : List PathCommand) (s : σ),
    f (LineSink.takeAll s calls) = LineSink.takeAll (f s) calls
  | [], _ => rfl
  | c :: calls, s => by
    rw [LineSink.takeAll_cons, map_takeAll f calls, map_take, LineSink.takeAll_cons]

/-- The map on sinks that count what they pass on. -/
def counting (f : SinkMap σ τ) : SinkMap (CountingSink σ) (CountingSink τ) where
  toFun c := { sink := f c.sink, segments := c.segments, moves := c.moves }
  map_moveTo c p := by simp [LineSink.moveTo, f.map_moveTo]
  map_lineTo c p := by simp [LineSink.lineTo, f.map_lineTo]

/-- Hands recorded calls to the sink `s`. -/
def replay (s : σ) : SinkMap (Array PathCommand) σ where
  toFun calls := LineSink.takeAll s calls.toList
  map_moveTo calls p := by
    simp [LineSink.moveTo, LineSink.takeAll, LineSink.take]
  map_lineTo calls p := by
    simp [LineSink.lineTo, LineSink.takeAll, LineSink.take]

end SinkMap

/-! ### Turtles and renderings -/

section

variable {σ τ : Type}

/-- The turtle with its sink replaced. -/
def Turtle.map (f : σ → τ) (t : Turtle σ) : Turtle τ := { t with sink := f t.sink }

variable [LineSink σ] [LineSink τ]

theorem Turtle.map_forward (f : SinkMap σ τ) (t : Turtle σ) (distance : Float) :
    (t.forward distance).map f = (t.map f).forward distance := by
  obtain ⟨sink, state, pen, stack, scaleDepth, depthScale⟩ := t
  cases pen with
  | up => simp [forward, moveTo, map, f.map_moveTo, ahead, Turtle.stepLength]
  | down => simp [forward, lineTo, map, f.map_lineTo, ahead, Turtle.stepLength]

theorem Turtle.map_restore (f : SinkMap σ τ) (t : Turtle σ) :
    t.restore.map f = (t.map f).restore := by
  obtain ⟨sink, state, pen, stack, scaleDepth, depthScale⟩ := t
  cases stack with
  | nil => rfl
  | cons s rest => simp [restore, map, f.map_moveTo]

/-- A token acts on a turtle whatever its sink is. -/
theorem Token.map_act (f : SinkMap σ τ) (g : Grammar) (t : Turtle σ) (k : Token) :
    (k.act g t).map f = k.act g (t.map f) := by
  cases k with
  | symbol c =>
    simp only [act]
    split
    · exact Turtle.map_forward f t.penDown _
    · split
      · exact Turtle.map_forward f t.penUp _
      · rfl
  | pop => exact Turtle.map_restore f t
  | forcedDraw => exact Turtle.map_forward f t.penDown _
  | _ => rfl

/-- The rendering with its sink mapped. -/
def RenderState.map (f : SinkMap σ τ) (s : RenderState σ) : RenderState τ :=
  { s with turtle := s.turtle.map f.counting }

/-- The configuration under which a rendering into `σ` stops where it does in `τ`. -/
def RenderConfig.comap (f : SinkMap σ τ) (config : RenderConfig τ) : RenderConfig σ where
  strategy := config.strategy
  maxCommands := config.maxCommands
  maxExpansion := config.maxExpansion
  cancel := config.cancel.map (· ∘ f)

/-! ### Renderings along a map of sinks -/

theorem RenderConfig.verdict_comap (f : SinkMap σ τ) (config : RenderConfig τ) (commands : Nat)
    (sink : σ) : (config.comap f).verdict commands sink = config.verdict commands (f sink) := by
  cases h : config.cancel <;> simp [verdict, overrun, comap, h]

/-- The end of a rendering with its sink mapped. -/
def mapEnd (f : SinkMap σ τ) :
    EStateM.Result RenderError (RenderState σ) Unit →
      EStateM.Result RenderError (RenderState τ) Unit
  | .ok _ s => .ok () (s.map f)
  | .error e s => .error e (s.map f)

theorem perform_map (f : SinkMap σ τ) (config : RenderConfig τ) (g : Grammar) :
    ∀ (es : List Event) (s : RenderState σ),
      perform config g es (s.map f) = mapEnd f (perform (config.comap f) g es s)
  | [], _ => rfl
  | .check :: es, s => by
    have hverdict : config.verdict ((s.map f).commands + 1) (s.map f).turtle.sink.sink =
        (config.comap f).verdict (s.commands + 1) s.turtle.sink.sink :=
      (RenderConfig.verdict_comap f config _ _).symm
    rw [perform_check, perform_check, hverdict]
    cases (config.comap f).verdict (s.commands + 1) s.turtle.sink.sink with
    | some e => rfl
    | none => exact perform_map f config g es { s with commands := s.commands + 1 }
  | .act k :: es, s => by
    have hact : k.act g (s.map f).turtle = (k.act g s.turtle).map f.counting :=
      (Token.map_act f.counting g s.turtle k).symm
    rw [perform_act, perform_act, hact]
    exact perform_map f config g es { s with turtle := k.act g s.turtle }
  | .reach depth :: es, s =>
    perform_map f config g es { s with maxRecursion := max s.maxRecursion depth }
  | .fail _ :: _, _ => rfl

/-- What a host gets from the end of a rendering. -/
def outcome : EStateM.Result RenderError (RenderState σ) Unit → Except RenderError RenderStats × σ
  | .ok _ s => (.ok s.stats, s.turtle.sink.sink)
  | .error e s => (.error e, s.turtle.sink.sink)

theorem outcome_mapEnd (f : SinkMap σ τ) :
    ∀ r, outcome (mapEnd f r) = ((outcome r).1, f (outcome r).2)
  | .ok _ _ | .error _ _ => rfl

/-- The state at the end of a rendering, in success or not. -/
def endState : EStateM.Result RenderError (RenderState σ) Unit → RenderState σ
  | .ok _ s | .error _ s => s

/-- The state a rendering of a grammar ends in. -/
def RenderConfig.final (config : RenderConfig σ) (g : Grammar) (sink : σ) : RenderState σ :=
  endState ((walkGrammar config g).run (.initial g sink))

theorem render_eq_outcome (config : RenderConfig σ) (g : Grammar) (sink : σ) :
    config.render g sink =
      outcome
        (perform config g (g.script config.strategy config.maxExpansion) (.initial g sink)) := by
  rw [RenderConfig.render, walkGrammar_eq_perform]
  rfl

theorem RenderState.map_initial (f : SinkMap σ τ) (g : Grammar) (sink : σ) :
    (initial g sink).map f = initial g (f sink) := by
  simp [initial, map, Turtle.map, Turtle.moveTo, Turtle.setHeading, Turtle.setDepthScale,
    SinkMap.counting, LineSink.moveTo, f.map_moveTo]

/-- **A rendering maps along its sink**: the outcome is the same and the sink is mapped. -/
theorem render_map (f : SinkMap σ τ) (config : RenderConfig τ) (g : Grammar) (sink : σ) :
    config.render g (f sink) =
      (((config.comap f).render g sink).1, f ((config.comap f).render g sink).2) := by
  rw [render_eq_outcome, render_eq_outcome, ← RenderState.map_initial, perform_map, outcome_mapEnd]
  rfl

/-- **Rendering is recording and replaying**: a sink gets the calls that an array records when
the host's test is made on what the sink would hold. -/
theorem render_eq_replay (config : RenderConfig σ) (g : Grammar) (sink : σ) :
    config.render g sink =
      (((config.comap (.replay sink)).render g #[]).1,
        LineSink.takeAll sink ((config.comap (.replay sink)).render g #[]).2.toList) :=
  render_map (.replay sink) config g #[]

end
end LSystem
