/-
# Sessions

A session draws grammar after grammar into one recorder, with one configuration and one
cancel flag, which the host may raise and lower in between.

Key definitions: `Session`, `Session.render`, `Session.setFlag`.
-/
import LSystem.Path.Recorder
import LSystem.Render

namespace LSystem

/-- Renderings one after the other into one recorder. -/
structure Session where
  strategy : Strategy := .recursive
  maxCommands : Option Nat := none
  maxExpansion : Option Nat := none
  /-- Whether the flag can cancel a rendering. -/
  cancellable : Bool := false
  /-- Whether the host has raised the flag. -/
  flag : Bool := false
  recorder : PathRecorder := {}

namespace Session

/-- The configuration of the next rendering. -/
def config (s : Session) : RenderConfig PathRecorder where
  strategy := s.strategy
  maxCommands := s.maxCommands
  maxExpansion := s.maxExpansion
  cancel := if s.cancellable then some fun _ => s.flag else none

/-- Raises or lowers the flag. -/
def setFlag (s : Session) (flag : Bool) : Session := { s with flag }

/-- Draws a grammar behind what is drawn already. -/
def render (s : Session) (g : Grammar) : Except RenderError RenderStats × Session :=
  let (outcome, recorder) := s.config.render g s.recorder
  (outcome, { s with recorder })

end Session
end LSystem
