/-
# Rendering a grammar

A rendering drives a turtle through the tokens of a grammar. Before every token
a command is counted, and the check looks at the limit and at the host's wish to stop, in this
order. A symbol with a rule is replaced by the tokens of its body, one scale depth down,
as long as fewer bodies are open than the evaluation depth allows; every other token
acts on the turtle. What was drawn before an error stays in the sink.

Key definitions: `RenderState`, `RenderM`, `RenderConfig.check`, `Token.act`, `walk`,
`RenderConfig.render`, `render`.
-/
import LSystem.Grammar
import LSystem.Render.Config
import LSystem.Turtle

namespace LSystem

/-- A sink that counts the calls it passes on. -/
structure CountingSink (σ : Type) where
  sink : σ
  segments : Nat := 0
  moves : Nat := 0

instance {σ : Type} [LineSink σ] : LineSink (CountingSink σ) where
  moveTo c p := { c with sink := LineSink.moveTo c.sink p, moves := c.moves + 1 }
  lineTo c p := { c with sink := LineSink.lineTo c.sink p, segments := c.segments + 1 }

/-- A rendering under way. -/
structure RenderState (σ : Type) where
  turtle : Turtle (CountingSink σ)
  /-- How many checks were made. -/
  commands : Nat := 0
  /-- The most rule bodies open at once so far. -/
  maxRecursion : Nat := 0

/-- Steps of a rendering, which an error ends with the state it was met in. -/
abbrev RenderM (σ : Type) := EStateM RenderError (RenderState σ)

/-- What a token does to the turtle when no rule replaces it. -/
def Token.act {τ : Type} [LineSink τ] (g : Grammar) (t : Turtle τ) : Token → Turtle τ
  | .symbol c =>
    if isDraw c then t.penDown.forward g.stepLength
    else if isMove c then t.penUp.forward g.stepLength
    else t
  | .turn d multiplier => t.turn (g.turnAngle * d.factor multiplier)
  | .push => t.save
  | .pop => t.restore
  | .enterScale => t.enterScale
  | .exitScale => t.exitScale
  | .forcedDraw => t.penDown.forward g.stepLength

/-- The body that replaces a token, if it is a symbol with a rule. -/
def Token.body? (g : Grammar) : Token → Option String
  | .symbol c => g.body? c
  | _ => none

section

variable {σ : Type}

/-- Counts a command, then fails if it is one too many, then if the host wants to stop. -/
def RenderConfig.check (config : RenderConfig σ) : RenderM σ Unit := do
  modify fun s => { s with commands := s.commands + 1 }
  let s ← get
  match config.maxCommands with
  | some limit => if limit < s.commands then throw (.commandLimitExceeded limit)
  | none => pure ()
  match config.cancel with
  | some wantsStop => if wantsStop s.turtle.sink.sink then throw .cancelled
  | none => pure ()

/-- Changes the turtle. -/
def drive (f : Turtle (CountingSink σ) → Turtle (CountingSink σ)) : RenderM σ Unit :=
  modify fun s => { s with turtle := f s.turtle }

/-- Notes that `depth` rule bodies are open. -/
def reach (depth : Nat) : RenderM σ Unit :=
  modify fun s => { s with maxRecursion := max s.maxRecursion depth }

variable [LineSink σ]

/-- Dispatches tokens in order. A token that `body?` replaces is left to `expand`, every
other one acts on the turtle. -/
def dispatch (config : RenderConfig σ) (g : Grammar) (body? : Token → Option String)
    (expand : String → RenderM σ Unit) : List Token → RenderM σ Unit
  | [] => pure ()
  | t :: ts => do
    config.check
    match body? t with
    | some body => expand body
    | none => drive (t.act g ·)
    dispatch config g body? expand ts

/-- Walks a string with `depth` rule bodies open, of which `levels` more may be opened. -/
def walk (config : RenderConfig σ) (g : Grammar) : (levels depth : Nat) → String → RenderM σ Unit
  | 0, depth, s => do
    reach depth
    dispatch config g (fun _ => none) (fun _ => pure ()) (Token.scan s)
  | levels + 1, depth, s => do
    reach depth
    dispatch config g (Token.body? g)
      (fun body => do
        drive (·.enterScale)
        walk config g levels (depth + 1) body
        drive (·.exitScale))
      (Token.scan s)

/-- Walks a grammar from its start, by the strategy of the configuration. -/
def walkGrammar (config : RenderConfig σ) (g : Grammar) : RenderM σ Unit :=
  match config.strategy with
  | .recursive => walk config g g.evaluationDepth.toNat 0 g.start
  | .materialized => do
    let flat ← g.rules.deriveGuarded config.maxExpansion config.check g.evaluationDepth.toNat
      g.start
    walk config g 0 0 flat

/-- A rendering that has only gone to the origin. -/
def RenderState.initial (g : Grammar) (sink : σ) : RenderState σ :=
  { turtle :=
      ((({ sink := { sink } } : Turtle (CountingSink σ)).setHeading
        g.initialHeading).setDepthScale g.depthScale).moveTo .origin }

/-- The counts of a rendering. -/
def RenderState.stats (s : RenderState σ) : RenderStats where
  commands := s.commands
  segments := s.turtle.sink.segments
  moves := s.turtle.sink.moves
  maxRecursion := s.maxRecursion

/-- Draws a grammar into a sink. The sink holds what was drawn, also when an error stopped
the rendering. -/
def RenderConfig.render (config : RenderConfig σ) (g : Grammar) (sink : σ) :
    Except RenderError RenderStats × σ :=
  match (walkGrammar config g).run (.initial g sink) with
  | .ok _ s => (.ok s.stats, s.turtle.sink.sink)
  | .error e s => (.error e, s.turtle.sink.sink)

/-- Draws a grammar into a sink without any bound, following the rules while walking. -/
def render (g : Grammar) (sink : σ) : Except RenderError RenderStats × σ :=
  ({} : RenderConfig σ).render g sink

end
end LSystem
