/-
# Values survive their text

Every value that can be written as JSON is given back by its text, bit by bit, if and only if all
doubles in it are finite: a double that is not finite is written as a null, and a null is not read as
a double (`values_survive`). Nothing else about a value matters: strings hold any characters, rules
stand for any characters, and since a table of rules is read as a table, their order in the text is
free.

Each type is restored by the reader of its parts: angles and points of doubles, calls and states of
points, recorders of calls and corners, and grammars of strings, rules and doubles.

Key definitions: `Json.Lossless`, `Grammar.doubles`, `PathRecorder.doubles`, `Grammar.toJsonWith`.
Key theorems: `Point.restores`, `PathRecorder.restores`, `Grammar.readsBack`, `values_survive`.
-/
import LSystem.Grammar.Json
import LSystem.Path.Json
import LSystem.Proofs.ReadDocument
import LSystem.Proofs.RuleTables
import LSystem.Turtle.Json

namespace LSystem

open Json

/-- The text of a document is read to a value if and only if the doubles in it are finite; if one is
not, a null is reported in the place of a double. -/
def Json.Lossless {α : Type} (read : Reader α) (d : Document) (doubles : List Float) (a : α) : Prop :=
  (read.read d.toText = .ok a ↔ ∀ x ∈ doubles, x.isFinite = true) ∧
    ((∃ x ∈ doubles, x.isFinite = false) →
      ∃ cause, read.read d.toText = .error (.mismatch cause) ∧
        cause.message = "invalid type: null, expected f64")

theorem Json.ReadsBack.lossless {α : Type} {read : Reader α} {d : Document} {doubles : List Float}
    {a : α} (h : ReadsBack read d doubles a) : Lossless read d doubles a := by
  have hread := h.read_toText
  unfold ifFinite at hread
  by_cases hall : doubles.all Float.isFinite = true
  · rw [if_pos hall] at hread
    have hfinite : ∀ x ∈ doubles, x.isFinite = true := List.all_eq_true.mp hall
    refine ⟨⟨fun _ => hfinite, fun _ => hread⟩, ?_⟩
    rintro ⟨x, hx, hinfinite⟩
    rw [hfinite x hx] at hinfinite
    contradiction
  · rw [if_neg hall] at hread
    refine ⟨⟨fun hok => ?_, fun hfinite => absurd (List.all_eq_true.mpr hfinite) hall⟩, fun _ => ?_⟩
    · rw [hread] at hok
      contradiction
    · exact ⟨_, hread, rfl⟩

/-! ### Angles and points -/

def Angle.doubles (a : Angle) : List Float := [a.radians]

theorem Angle.restores : Restores Angle.toJson Angle.json Angle.doubles :=
  fun a => (readsBack_float a.radians).map Angle.mk

namespace Point

def doubles (p : Point) : List Float := [p.x, p.y]

theorem restores : Restores toJson json doubles := by
  intro p rest hrest
  have htext : p.toJson.write ++ rest = '[' :: ((Document.real p.x).write ++
      (',' :: ((Document.real p.y).write ++ ']' :: rest))) := by
    simp [toJson, Document.write, Document.writeItems]
  have hx := (readsBack_float p.x).bind_pure fun x => ({ x := some x } : Slots)
  have hy := (readsBack_float p.y).bind_pure fun y => ({ x := some p.x, y := some y } : Slots)
  have hslots : positionsFrom {} 0 fields ((Document.real p.x).write ++
      (',' :: ((Document.real p.y).write ++ ']' :: rest))) =
        ifFinite ([p.x] ++ ([p.y] ++ [])) ((⟨some p.x, some p.y⟩, 2), ']' :: rest) := by
    have hcomma (cs : List Char) : EndsNumber (',' :: cs) := endsNumber_cons (by decide) cs
    have hclose : EndsNumber (']' :: rest) := endsNumber_cons (by decide) rest
    exact positionsFrom_item 0 (atItem_first _ _) hx (hcomma _)
      (positionsFrom_item 1 (atItem_next _ _) hy hclose rfl)
  rw [htext, json, bind_ok (peek_cons (by decide) _), if_pos rfl, bind_ok (discard_ok (next_cons _ _))]
  refine bind_ifFinite_ok hslots ?_
  exact bind_ok (punctuation_cons (by decide) rest)

theorem head?_toJson (p : Point) : p.toJson.write.head? ≠ some 'n' := by
  simp [toJson, Document.write]

end Point

/-! ### Pens, states and calls -/

theorem Pen.restores : Restores Pen.toJson Pen.json (fun _ => []) := by
  intro p
  cases p with
  | up => exact (findsVariant_first up.choice down.choice).readsBack_name rfl
  | down =>
    have hname : down.choice.name ≠ up.choice.name := by decide
    exact (findsVariant_second hname).readsBack_name rfl

namespace TurtleState

def doubles (s : TurtleState) : List Float := s.position.doubles ++ s.heading.doubles

theorem restores : Restores toJson json doubles := by
  intro s
  have hposition := (Point.restores s.position).bind_pure
    fun p => ({ position := some p } : Slots)
  have hheading := (Angle.restores s.heading).bind_pure
    fun a => ({ position := some s.position, heading := some a } : Slots)
  have hslots : Fills fields {} [("position", s.position.toJson), ("heading", s.heading.toJson)]
      (s.position.doubles ++ (s.heading.doubles ++ []))
      { position := some s.position, heading := some s.heading } := by
    apply Fills.cons rfl rfl hposition
    apply Fills.cons rfl rfl hheading
    exact .nil _
  rw [List.append_nil] at hslots
  exact readsBack_record hslots rfl

end TurtleState

namespace PathCommand

def doubles (c : PathCommand) : List Float := c.point.doubles

theorem restores : Restores toJson json doubles := by
  intro c
  cases c with
  | moveTo p => exact (findsVariant_first _ _).readsBack ((Point.restores p).map moveTo)
  | lineTo p => exact (findsVariant_second (by decide)).readsBack ((Point.restores p).map lineTo)

end PathCommand

/-! ### Recorders -/

namespace PathRecorder

def doubles (r : PathRecorder) : List Float :=
  r.commands.toList.flatMap PathCommand.doubles ++
    (r.min.elim [] Point.doubles ++ r.max.elim [] Point.doubles)

/-- **Recorders are restored as they are**, whether or not count and corners fit the calls. -/
theorem restores : Restores toJson json doubles := by
  intro r
  have hcommands := (PathCommand.restores.sequence r.commands).bind_pure
    fun commands => ({ commands := some commands } : Slots)
  have hsegments := (readsBack_natural "usize" r.segments.toNat_lt (Nat.le_refl _)).bind_pure
    fun n => ({ commands := some r.commands, segments := some n.toUInt64 } : Slots)
  have hmin := (Point.restores.nullable Point.head?_toJson r.min).bind_pure fun min =>
    ({ commands := some r.commands, segments := some r.segments.toNat.toUInt64,
       min := some min } : Slots)
  have hmax := (Point.restores.nullable Point.head?_toJson r.max).bind_pure fun max =>
    ({ commands := some r.commands, segments := some r.segments.toNat.toUInt64,
       min := some r.min, max := some max } : Slots)
  have hslots : Fills fields {} [("commands", .sequence (r.commands.toList.map PathCommand.toJson)),
      ("segments", .natural r.segments.toNat), ("min", .ofOption Point.toJson r.min),
      ("max", .ofOption Point.toJson r.max)]
      (r.commands.toList.flatMap PathCommand.doubles ++
        ([] ++ (r.min.elim [] Point.doubles ++ (r.max.elim [] Point.doubles ++ []))))
      { commands := some r.commands, segments := some r.segments.toNat.toUInt64,
        min := some r.min, max := some r.max } := by
    apply Fills.cons rfl rfl hcommands
    apply Fills.cons rfl rfl hsegments
    apply Fills.cons rfl rfl hmin
    apply Fills.cons rfl rfl hmax
    exact .nil _
  rw [List.append_nil, List.nil_append] at hslots
  have hword : r.segments.toNat.toUInt64 = r.segments := UInt64.ofNat_toNat
  rw [hword] at hslots
  exact readsBack_record hslots rfl

end PathRecorder

/-! ### Grammars -/

namespace Rules

/-- A list of rules in its own order. -/
def listJson (es : List (Char × String)) : Document :=
  .map (es.map fun e => (.singleton e.1, .text e.2))

theorem keyJson_singleton (c : Char) (rest : List Char) :
    keyJson (writeText (.singleton c) ++ rest) = .ok (c, rest) := by
  rw [keyJson, bind_ok (text_writeText _ _), String.toList_singleton]
  rfl

/-- **Rules are read in any order.** -/
theorem readsBack {rules : Rules} {es : List (Char × String)} (h : es.Perm rules.entries) :
    ReadsBack json (listJson es) [] rules := by
  have hbody : Restores Document.text (string "a string") (fun _ => []) :=
    readsBack_string "a string"
  have hread : ReadsBack json (listJson es) (es.flatMap fun _ => []) (ofList es) :=
    readsBack_map insert keyJson_singleton hbody es empty
  rwa [ofList_eq_of_perm h, List.flatMap_eq_nil_iff.mpr fun _ _ => rfl] at hread

end Rules

namespace Grammar

def doubles (g : Grammar) : List Float :=
  [g.initialHeading.radians, g.stepLength, g.turnAngle.radians, g.depthScale]

/-- The record of a grammar with its rules written in an order of their own. -/
def toJsonWith (g : Grammar) (es : List (Char × String)) : Document :=
  .map [("axiom", .text g.start), ("rules", Rules.listJson es),
    ("initialHeading", g.initialHeading.toJson), ("stepLength", .real g.stepLength),
    ("turnAngle", g.turnAngle.toJson), ("depthScale", .real g.depthScale),
    ("evaluationDepth", .natural g.evaluationDepth.toNat)]

theorem toJson_eq (g : Grammar) : g.toJson = g.toJsonWith g.rules.entries := rfl

/-- **A grammar is restored from any order of its rules.** -/
theorem readsBack (g : Grammar) {es : List (Char × String)} (h : es.Perm g.rules.entries) :
    ReadsBack json (g.toJsonWith es) g.doubles g := by
  have hstart := (readsBack_string "a string" g.start).bind_pure
    fun start => ({ start := some start } : Slots)
  have hrules := (Rules.readsBack h).bind_pure
    fun rules => ({ start := some g.start, rules := some rules } : Slots)
  have hheading := (Angle.restores g.initialHeading).bind_pure fun heading =>
    ({ start := some g.start, rules := some g.rules, initialHeading := some heading } : Slots)
  have hstep := (readsBack_float g.stepLength).bind_pure fun step =>
    ({ start := some g.start, rules := some g.rules, initialHeading := some g.initialHeading,
       stepLength := some step } : Slots)
  have hturn := (Angle.restores g.turnAngle).bind_pure fun turn =>
    ({ start := some g.start, rules := some g.rules, initialHeading := some g.initialHeading,
       stepLength := some g.stepLength, turnAngle := some turn } : Slots)
  have hscale := (readsBack_float g.depthScale).bind_pure fun scale =>
    ({ start := some g.start, rules := some g.rules, initialHeading := some g.initialHeading,
       stepLength := some g.stepLength, turnAngle := some g.turnAngle,
       depthScale := some scale } : Slots)
  have hdepth := (readsBack_natural "u32" g.evaluationDepth.toNat_lt (by decide)).bind_pure fun n =>
    ({ start := some g.start, rules := some g.rules, initialHeading := some g.initialHeading,
       stepLength := some g.stepLength, turnAngle := some g.turnAngle,
       depthScale := some g.depthScale, evaluationDepth := some n.toUInt32 } : Slots)
  have hslots : Fills fields {} [("axiom", .text g.start), ("rules", Rules.listJson es),
      ("initialHeading", g.initialHeading.toJson), ("stepLength", .real g.stepLength),
      ("turnAngle", g.turnAngle.toJson), ("depthScale", .real g.depthScale),
      ("evaluationDepth", .natural g.evaluationDepth.toNat)]
      ([] ++ ([] ++ (g.initialHeading.doubles ++ ([g.stepLength] ++ (g.turnAngle.doubles ++
        ([g.depthScale] ++ ([] ++ [])))))))
      { start := some g.start, rules := some g.rules, initialHeading := some g.initialHeading,
        stepLength := some g.stepLength, turnAngle := some g.turnAngle,
        depthScale := some g.depthScale,
        evaluationDepth := some g.evaluationDepth.toNat.toUInt32 } := by
    apply Fills.cons rfl rfl hstart
    apply Fills.cons rfl rfl hrules
    apply Fills.cons rfl rfl hheading
    apply Fills.cons rfl rfl hstep
    apply Fills.cons rfl rfl hturn
    apply Fills.cons rfl rfl hscale
    apply Fills.cons rfl rfl hdepth
    exact .nil _
  have hword : g.evaluationDepth.toNat.toUInt32 = g.evaluationDepth := UInt32.ofNat_toNat
  rw [hword] at hslots
  exact readsBack_record hslots rfl

end Grammar

/-! ### All values -/

/-- **Values are given back by their text if and only if their doubles are finite**, and the rules of
a grammar may stand in any order. Otherwise the text is refused, with the words for a null that was
found where a double was expected. -/
theorem values_survive :
    (∀ a : Angle, Lossless Angle.json a.toJson a.doubles a) ∧
    (∀ p : Pen, Lossless Pen.json p.toJson [] p) ∧
    (∀ s : TurtleState, Lossless TurtleState.json s.toJson s.doubles s) ∧
    (∀ c : PathCommand, Lossless PathCommand.json c.toJson c.doubles c) ∧
    (∀ r : PathRecorder, Lossless PathRecorder.json r.toJson r.doubles r) ∧
    (∀ g : Grammar, Lossless Grammar.json g.toJson g.doubles g) ∧
    ∀ (g : Grammar) (es : List (Char × String)), es.Perm g.rules.entries →
      Lossless Grammar.json (g.toJsonWith es) g.doubles g := by
  refine ⟨?_, ?_, ?_, ?_, ?_, ?_, ?_⟩
  · exact fun a => (Angle.restores a).lossless
  · exact fun p => (Pen.restores p).lossless
  · exact fun s => (TurtleState.restores s).lossless
  · exact fun c => (PathCommand.restores c).lossless
  · exact fun r => (PathRecorder.restores r).lossless
  · intro g
    rw [g.toJson_eq]
    exact (g.readsBack (List.Perm.refl _)).lossless
  · exact fun g _ h => (g.readsBack h).lossless

/-- A grammar with two rules comes back from both orders of them, and a line to no point does not. -/
theorem values_survive_swapped :
    let g := ((Grammar.ofStart "F").withRule 'F' "F+G").withRule 'G' "\"\n"
    let c := PathCommand.lineTo ⟨0 / 0, -0.0⟩
    [('G', "\"\n"), ('F', "F+G")].Perm g.rules.entries ∧
      Grammar.json.read (g.toJsonWith [('G', "\"\n"), ('F', "F+G")]).toText = .ok g ∧
      ∃ cause, PathCommand.json.read c.toJson.toText = .error (.mismatch cause) ∧
        cause.message = "invalid type: null, expected f64" := by
  intro g c
  obtain ⟨-, -, -, hcommand, -, -, hgrammar⟩ := values_survive
  have hperm : [('G', "\"\n"), ('F', "F+G")].Perm g.rules.entries := .swap _ _ _
  refine ⟨hperm, (hgrammar g _ hperm).1.mpr ?_, (hcommand c).2 ⟨0 / 0, ?_, ?_⟩⟩
  · decide +kernel
  · exact List.mem_cons_self
  · decide +kernel

end LSystem
