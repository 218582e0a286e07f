import LSystem.Grammar.Json
import LSystem.Grammar.Preset
import LSystem.Path.Json
import LSystem.Proofs.BoundedDerivation
import LSystem.Proofs.Branches
import LSystem.Proofs.Cancellation
import LSystem.Proofs.Corners
import LSystem.Proofs.Costs
import LSystem.Proofs.DecodedGrammar
import LSystem.Proofs.Growth
import LSystem.Proofs.GuardedDerivation
import LSystem.Proofs.InertText
import LSystem.Proofs.Kinds
import LSystem.Proofs.Mirror
import LSystem.Proofs.Morphism
import LSystem.Proofs.Nesting
import LSystem.Proofs.NormalForm
import LSystem.Proofs.Numerals
import LSystem.Proofs.OpenBodies
import LSystem.Proofs.ParallelDerivation
import LSystem.Proofs.ReadSpellings
import LSystem.Proofs.RecorderState
import LSystem.Proofs.ScaleDepth
import LSystem.Proofs.ScanOrder
import LSystem.Proofs.Spellings
import LSystem.Proofs.Strokes
import LSystem.Turtle.Describe
