/-
# The trace of a rendering

Seen from outside, a rendering makes checks and calls. Its trace lists both in order, as they
come when no check fails. The calls are those of the script, each token making at most one,
and they do not depend on the sink. A configuration stops the rendering at the first check
of the trace whose verdict is an error: up to there it makes the calls of the trace, and
without such a check it is the rendering that no limit and no flag bounds
(`render_eq_stop`).

Key definitions: `Token.call?`, `Trace`, `Trace.calls`, `Trace.checks`, `Grammar.trace`,
`RenderConfig.unbounded`, `RenderConfig.stop?`.
Key theorems: `Token.sink_act`, `outcome_perform`, `render_eq_stop`, `render_unbounded`.
-/
import LSystem.Proofs.Sink

namespace LSystem

open LineSink (take takeAll)

/-! ### The call of a token -/

section

variable {σ τ : Type}

/-- The call that a token makes a turtle make, if any. -/
def Token.call? (g : Grammar) (t : Turtle σ) : Token → Option PathCommand
  | symbol c =>
    if isDraw c then some (.lineTo (t.ahead g.stepLength))
    else if isMove c then some (.moveTo (t.ahead g.stepLength))
    else none
  | pop => t.stack.head?.map fun s => .moveTo s.position
  | forcedDraw => some (.lineTo (t.ahead g.stepLength))
  | turn _ _ | push | enterScale | exitScale => none

theorem Token.call?_map (f : σ → τ) (g : Grammar) (t : Turtle σ) (k : Token) :
    k.call? g (t.map f) = k.call? g t := by
  cases k <;> rfl

variable [LineSink σ] [LineSink τ]

/-- **A token makes its call and no other.** -/
theorem Token.sink_act (g : Grammar) (t : Turtle σ) (k : Token) :
    (k.act g t).sink = takeAll t.sink (k.call? g t).toList := by
  cases k with
  | symbol c =>
    simp only [act, call?]
    cases isDraw c with
    | true => rfl
    | false => cases isMove c <;> rfl
  | pop =>
    obtain ⟨sink, state, pen, stack, scaleDepth, depthScale⟩ := t
    cases stack <;> rfl
  | _ => rfl

end

/-! ### Traces -/

/-- What a host can tell of a rendering: that it checks, or that it makes a call. -/
inductive Mark where
  | check
  | call (command : PathCommand)
  deriving DecidableEq

/-- The checks and calls of a rendering, in order. -/
abbrev Trace := List Mark

namespace Trace

/-- The calls of a trace. -/
def calls : Trace → List PathCommand
  | [] => []
  | .check :: tr => calls tr
  | .call c :: tr => c :: calls tr

/-- The number of checks of a trace. -/
def checks : Trace → Nat
  | [] => 0
  | .check :: tr => checks tr + 1
  | .call _ :: tr => checks tr

end Trace

section

variable {σ τ : Type} [LineSink σ] [LineSink τ]

/-- The trace of events that a turtle goes through. -/
def marks (g : Grammar) : List Event → Turtle σ → Trace
  | [], _ => []
  | .check :: es, t => .check :: marks g es t
  | .act k :: es, t =>
    match k.call? g t with
    | some c => .call c :: marks g es (k.act g t)
    | none => marks g es (k.act g t)
  | .reach _ :: es, t => marks g es t
  | .fail _ :: _, _ => []

theorem marks_map (f : SinkMap σ τ) (g : Grammar) : ∀ (es : List Event) (t : Turtle σ),
    marks g es (t.map f) = marks g es t
  | [], _ => rfl
  | .check :: es, t => congrArg _ (marks_map f g es t)
  | .act k :: es, t => by
    simp only [marks, Token.call?_map, ← Token.map_act, marks_map f g es]
  | .reach _ :: es, t => marks_map f g es t
  | .fail _ :: _, _ => rfl

end

/-- The trace of a rendering that nothing bounds but the length of its expansion. -/
def Grammar.trace (g : Grammar) (strategy : Strategy) (maxExpansion : Option Nat) : Trace :=
  .call (.moveTo .origin) ::
    marks g (g.script strategy maxExpansion)
      (RenderState.initial g (#[] : Array PathCommand)).turtle

/-! ### Where a rendering stops -/

section

variable {σ : Type}

/-- The configuration without a limit on commands and without a flag. -/
def RenderConfig.unbounded (config : RenderConfig σ) : RenderConfig σ :=
  { config with maxCommands := none, cancel := none }

theorem RenderConfig.verdict_unbounded (config : RenderConfig σ) (commands : Nat) (sink : σ) :
    config.unbounded.verdict commands sink = none := rfl

variable [LineSink σ]

/-- The error of the first check of a trace that fails, with the calls before it, when
`commands` checks were made before the trace and the sink is `sink`. -/
def RenderConfig.stop? (config : RenderConfig σ) :
    Nat → σ → Trace → Option (RenderError × List PathCommand)
  | _, _, [] => none
  | commands, sink, .check :: tr =>
    match config.verdict (commands + 1) sink with
    | some e => some (e, [])
    | none => config.stop? (commands + 1) sink tr
  | commands, sink, .call c :: tr =>
    (config.stop? commands (take sink c) tr).map fun (e, calls) => (e, c :: calls)

/-- What a host gets from a rendering that is stopped: the error, and the calls made before it.
A rendering that is not stopped gives `rest`. -/
def stopped (sink : σ) (rest : Except RenderError RenderStats × σ) :
    Option (RenderError × List PathCommand) → Except RenderError RenderStats × σ
  | some (e, calls) => (.error e, takeAll sink calls)
  | none => rest

theorem stopped_map (sink : σ) (rest : Except RenderError RenderStats × σ) (c : PathCommand) :
    ∀ stop : Option (RenderError × List PathCommand),
      stopped sink rest (stop.map fun (e, calls) => (e, c :: calls)) =
        stopped (take sink c) rest stop
  | some _ | none => rfl

theorem sink_sink_act (g : Grammar) (t : Turtle (CountingSink σ)) (k : Token) :
    (k.act g t).sink.sink = takeAll t.sink.sink (k.call? g t).toList := by
  rw [Token.sink_act]
  cases k.call? g t with
  | none => rfl
  | some c => cases c <;> rfl

/-- Events go on until the first check of their trace that fails. -/
theorem outcome_perform (config : RenderConfig σ) (g : Grammar) :
    ∀ (es : List Event) (s : RenderState σ),
      outcome (perform config g es s) =
        stopped s.turtle.sink.sink (outcome (perform config.unbounded g es s))
          (config.stop? s.commands s.turtle.sink.sink (marks g es s.turtle))
  | [], _ => rfl
  | .check :: es, s => by
    rw [perform_check, perform_check, marks, RenderConfig.stop?, RenderConfig.verdict_unbounded]
    cases config.verdict (s.commands + 1) s.turtle.sink.sink with
    | some e => rfl
    | none => exact outcome_perform config g es { s with commands := s.commands + 1 }
  | .act k :: es, s => by
    have ih := outcome_perform config g es { s with turtle := k.act g s.turtle }
    simp only [sink_sink_act] at ih
    rw [perform_act, perform_act, marks, ih]
    cases k.call? g s.turtle with
    | some c => exact (stopped_map _ _ c _).symm
    | none => rfl
  | .reach depth :: es, s =>
    outcome_perform config g es { s with maxRecursion := max s.maxRecursion depth }
  | .fail _ :: _, _ => rfl

theorem outcome_perform_unbounded (config : RenderConfig σ) (g : Grammar) :
    ∀ (es : List Event) (s : RenderState σ),
      (outcome (perform config.unbounded g es s)).2 =
        takeAll s.turtle.sink.sink (marks g es s.turtle).calls
  | [], _ => rfl
  | .check :: es, s => outcome_perform_unbounded config g es { s with commands := s.commands + 1 }
  | .act k :: es, s => by
    have ih := outcome_perform_unbounded config g es { s with turtle := k.act g s.turtle }
    rw [perform_act, ih, marks, sink_sink_act]
    cases k.call? g s.turtle <;> rfl
  | .reach depth :: es, s =>
    outcome_perform_unbounded config g es { s with maxRecursion := max s.maxRecursion depth }
  | .fail _ :: _, _ => rfl

/-! ### The trace of a grammar -/

theorem Grammar.trace_eq (g : Grammar) (strategy : Strategy) (maxExpansion : Option Nat)
    (sink : σ) : g.trace strategy maxExpansion =
      .call (.moveTo .origin) ::
        marks g (g.script strategy maxExpansion) (RenderState.initial g sink).turtle :=
  congrArg _ (marks_map (SinkMap.replay sink).counting g _ _).symm

/-- **A rendering stops at the first check of its trace that fails**, and holds the calls made
before it; without such a check it is the rendering that nothing bounds. -/
theorem render_eq_stop (config : RenderConfig σ) (g : Grammar) (sink : σ) :
    config.render g sink =
      stopped sink (config.unbounded.render g sink)
        (config.stop? 0 sink (g.trace config.strategy config.maxExpansion)) := by
  rw [render_eq_outcome, render_eq_outcome, outcome_perform, g.trace_eq _ _ sink,
    RenderConfig.stop?, stopped_map]
  rfl

theorem render_unbounded (config : RenderConfig σ) (g : Grammar) (sink : σ) :
    (config.unbounded.render g sink).2 =
      takeAll sink (g.trace config.strategy config.maxExpansion).calls := by
  rw [render_eq_outcome, outcome_perform_unbounded, g.trace_eq _ _ sink]
  rfl

end
end LSystem
