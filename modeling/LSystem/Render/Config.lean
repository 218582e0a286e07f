/-
# Configuration and outcome of a rendering

A rendering either follows the rules as it walks, or expands the whole string first and
walks the result. It can be bounded in the commands it dispatches and in the length of
the expanded string, and it can be cancelled by a test on its sink, which is made before
every command.

Key definitions: `Strategy`, `RenderConfig`, `RenderStats`.
-/
namespace LSystem

/-- How the rules of a grammar are applied. -/
inductive Strategy where
  /-- The body of a rule is walked where its symbol stands. -/
  | recursive
  /-- All passes are made on the string, and the last one is walked. -/
  | materialized
  deriving DecidableEq

/-- What bounds a rendering into a sink of type `σ`. -/
structure RenderConfig (σ : Type) where
  strategy : Strategy := .recursive
  /-- The most commands that may be dispatched. -/
  maxCommands : Option Nat := none
  /-- The most bytes an expanded string may have. -/
  maxExpansion : Option Nat := none
  /-- Whether the host wants to stop, read off the sink. -/
  cancel : Option (σ → Bool) := none

/-- What a finished rendering has counted. -/
structure RenderStats where
  /-- Commands dispatched, those replaced by a rule and those of an expansion included. -/
  commands : Nat
  /-- Lines drawn. -/
  segments : Nat
  /-- Moves made, the one to the origin included. -/
  moves : Nat
  /-- The most rule bodies open at once. -/
  maxRecursion : Nat
  deriving DecidableEq

end LSystem
