/-
# Well-known figures

A catalog of classic grammars, each with its name.

Key definitions: `Preset`, `Preset.all`, `Preset.name`, `Preset.grammar`, `Preset.named?`.
-/
import LSystem.Grammar

namespace LSystem

/-- The figures of the catalog. -/
inductive Preset where
  | sierpinskiGasket
  | kochIsland
  | bentBigH
  | dragonCurve
  | sierpinskiMaze
  | sierpinskiSnowflake
  | penroseTiling
  | quadricKochIsland
  | tree2
  deriving DecidableEq

namespace Preset

/-- The catalog in its order. -/
def all : List Preset :=
  [sierpinskiGasket, kochIsland, bentBigH, dragonCurve, sierpinskiMaze, sierpinskiSnowflake,
    penroseTiling, quadricKochIsland, tree2]

/-- What a figure is called. -/
def name : Preset → String
  | sierpinskiGasket => "Sierpinski gasket"
  | kochIsland => "Koch island"
  | bentBigH => "Bent big H"
  | dragonCurve => "Dragon curve"
  | sierpinskiMaze => "Sierpinski maze"
  | sierpinskiSnowflake => "Sierpinski snowflake"
  | penroseTiling => "Penrose tiling"
  | quadricKochIsland => "Quadric Koch island"
  | tree2 => "Tree-2"

/-- The grammar that draws a figure. -/
def grammar : Preset → Grammar
  | sierpinskiGasket =>
    { start := "F--F--F"
      initialHeading := .ofDegrees 90
      turnAngle := .ofDegrees 60
      rules := .ofList [('F', "F--F--F--GG"), ('G', "GG")] }
  | kochIsland =>
    { start := "F++F++F"
      initialHeading := .ofDegrees 30
      turnAngle := .ofDegrees 60
      rules := .ofList [('F', "F-F++F-F")] }
  | bentBigH =>
    { start := "[F]--F"
      turnAngle := .ofDegrees 80
      depthScale := 0.65
      rules := .ofList [('F', "|[+F][-F]")] }
  | dragonCurve =>
    { start := "F"
      initialHeading := .ofDegrees 90
      turnAngle := .ofDegrees 45
      evaluationDepth := 12
      rules := .ofList [('F', "[+F][+G--G4-F]"), ('G', "-G++G-")] }
  | sierpinskiMaze =>
    { start := "F"
      initialHeading := .ofDegrees 30
      turnAngle := .ofDegrees 60
      rules := .ofList [('F', "[GF][+G3-F][G+G+F]"), ('G', "GG")] }
  | sierpinskiSnowflake =>
    { start := "F4-F4-F4-F4-F"
      initialHeading := .ofDegrees 18
      turnAngle := .ofDegrees 18
      rules := .ofList [('F', "F4-F4-F10-F++F4-F")] }
  | penroseTiling =>
    { start := "[X]++[X]++[X]++[X]++[X]"
      turnAngle := .ofDegrees 36
      rules := .ofList
        [('W', "YF++ZF4-XF[-YF4-WF]++"), ('X', "+YF--ZF[3-WF--XF]+"), ('Y', "-WF++XF[+++YF++ZF]-"),
          ('Z', "--YF++++WF[+ZF++++XF]--XF"), ('F', "")] }
  | quadricKochIsland =>
    { start := "F-F-F-F"
      turnAngle := .ofDegrees 90
      rules := .ofList [('F', "F-F+F+FF-F-F+F")] }
  | tree2 =>
    { start := "F"
      turnAngle := .ofDegrees 8
      depthScale := 0.4
      rules := .ofList [('F', "|[5+F][7-F]-|[4+F][6-F]-|[3+F][5-F]-|F")] }

/-- The figure of a name. -/
def named? (s : String) : Option Preset := all.find? (·.name = s)

end Preset
end LSystem
