/-
# Why a rendering stops early

A command string is never wrong: letters without a rule do nothing, and a bracket that
closes nothing is passed over. What can stop an expansion or a rendering is a limit that
its configuration sets, or the host.

Key definitions: `RenderError`, `RenderError.message`.
-/
namespace LSystem

/-- What stopped an expansion or a rendering. -/
inductive RenderError where
  /-- More commands were dispatched than allowed. -/
  | commandLimitExceeded (limit : Nat)
  /-- An expanded string grew to `length` bytes, more than allowed. -/
  | expansionLimitExceeded (length limit : Nat)
  /-- The host asked to stop. -/
  | cancelled
  deriving DecidableEq

/-- What is told about the error. -/
def RenderError.message : RenderError → String
  | commandLimitExceeded limit =>
    s!"command limit exceeded: more than {limit} commands dispatched"
  | expansionLimitExceeded length limit =>
    s!"expansion limit exceeded: produced {length} characters, limit is {limit}"
  | cancelled => "render cancelled"

end LSystem
