/-
# What the measures of a grammar decide

The measures of a grammar (heading, step, turn and depth scale) decide where the calls of a
rendering go, and nothing else. Whether a token makes a call, and of which kind, is fixed by the
token and by how many states are saved before it (`Turtle.map_isLine_calls`). So the lines and moves
of a rendering can be counted on its figure, and two grammars with the same start, rules and depth
make calls of the same kinds, end with the same counts and meet the same errors, as long as the
host's wish to stop does not go by points (`render_by_structure`).

Key definitions: `Token.kind?`, `kinds`, `returns`, `Grammar.SameStructure`, `SameKinds`,
`RenderConfig.GoesByKinds`, `RenderState.SameShape`.
Key theorems: `Turtle.map_isLine_calls`, `countP_kinds`, `Grammar.SameStructure.script`,
`RenderState.SameShape.act`, `RenderState.SameShape.perform`, `Grammar.SameStructure.render`,
`render_by_structure`.
-/
import LSystem.Proofs.Calls

namespace LSystem

open LineSink (take takeAll)

/-! ### The kind of a call -/

namespace Token

/-- The kind of call that a token makes when `saved` states are saved before it: a line or, if
`false`, a move. -/
def kind? (saved : Nat) : Token → Option Bool
  | symbol c => if isDraw c then some true else if isMove c then some false else none
  | forcedDraw => some true
  | pop => if saved = 0 then none else some false
  | turn _ _ | push | enterScale | exitScale => none

/-- How many states are saved behind a token. -/
def savedAfter (saved : Nat) : Token → Nat
  | push => saved + 1
  | pop => saved - 1
  | symbol _ | turn _ _ | enterScale | exitScale | forcedDraw => saved

/-- A token that draws a line when no rule replaces it. -/
def draws : Token → Bool
  | symbol c => isDraw c
  | forcedDraw => true
  | turn _ _ | push | pop | enterScale | exitScale => false

/-- A token that steps without drawing when no rule replaces it. -/
def moves : Token → Bool
  | symbol c => isMove c
  | turn _ _ | push | pop | enterScale | exitScale | forcedDraw => false

end Token

/-- The kinds of the calls that tokens make behind `saved` saved states. -/
def kinds : Nat → List Token → List Bool
  | _, [] => []
  | saved, k :: ks => (k.kind? saved).toList ++ kinds (k.savedAfter saved) ks

/-- How many closing brackets find an opening one before them that none has closed yet, when
`saved` of these come before the tokens. -/
def returns : Nat → List Token → Nat
  | _, [] => 0
  | saved, k :: ks => (if k = .pop ∧ saved ≠ 0 then 1 else 0) + returns (k.savedAfter saved) ks

section

variable {σ : Type} (g : Grammar)

theorem Token.map_isLine_call? (t : Turtle σ) (k : Token) :
    (k.call? g t).map (·.isLine) = k.kind? t.stack.length := by
  cases k with
  | symbol c =>
    simp only [call?, kind?]
    cases isDraw c with
    | true => rfl
    | false => cases isMove c <;> rfl
  | pop =>
    obtain ⟨sink, state, pen, stack, scaleDepth, depthScale⟩ := t
    cases stack <;> rfl
  | _ => rfl

variable [LineSink σ]

theorem Token.length_stack_act (t : Turtle σ) (k : Token) :
    (k.act g t).stack.length = k.savedAfter t.stack.length := by
  rw [(act_frame g t k).1]
  cases k with
  | pop => exact List.length_tail
  | _ => rfl

/-- **The kinds of calls are fixed by the tokens.** -/
theorem Turtle.map_isLine_calls : ∀ (ks : List Token) (t : Turtle σ),
    (t.calls g ks).map (·.isLine) = kinds t.stack.length ks
  | [], _ => rfl
  | k :: ks, t => by
    rw [calls, List.map_append, map_isLine_calls ks, Token.length_stack_act, kinds,
      ← Token.map_isLine_call? g t k]
    cases k.call? g t <;> rfl

end

theorem Token.isMove_of_isDraw {c : Char} (h : isDraw c = true) : isMove c = false := by
  grind [isDraw, isMove]

theorem Token.countP_kind? (saved : Nat) (k : Token) :
    (k.kind? saved).toList.countP (·) = (if k.draws then 1 else 0) ∧
      (k.kind? saved).toList.countP (!·) =
        (if k.moves then 1 else 0) + if k = .pop ∧ saved ≠ 0 then 1 else 0 := by
  cases k with
  | symbol c =>
    by_cases hdraw : isDraw c = true
    · simp [kind?, draws, moves, hdraw, isMove_of_isDraw hdraw]
    · by_cases hmove : isMove c = true <;> simp [kind?, draws, moves, hdraw, hmove]
  | pop =>
    simp only [kind?, draws, moves]
    by_cases hsaved : saved = 0 <;> simp [hsaved]
  | _ => simp [kind?, draws, moves]

/-- The lines of tokens are their steps that draw, and the moves are the other steps and the
returns to a saved state. -/
theorem countP_kinds : ∀ (ks : List Token) (saved : Nat),
    (kinds saved ks).countP (·) = ks.countP Token.draws ∧
      (kinds saved ks).countP (!·) = ks.countP Token.moves + returns saved ks
  | [], _ => ⟨rfl, rfl⟩
  | k :: ks, saved => by
    obtain ⟨hlines, hmoves⟩ := Token.countP_kind? saved k
    obtain ⟨ihlines, ihmoves⟩ := countP_kinds ks (k.savedAfter saved)
    rw [kinds, List.countP_append, List.countP_append, hlines, hmoves, ihlines, ihmoves, returns,
      List.countP_cons, List.countP_cons]
    omega

/-! ### Grammars of one structure -/

/-- Grammars that differ in their measures only. -/
structure Grammar.SameStructure (g g' : Grammar) : Prop where
  start : g.start = g'.start
  rules : g.rules = g'.rules
  evaluationDepth : g.evaluationDepth = g'.evaluationDepth

namespace Grammar.SameStructure

variable {g g' : Grammar}

theorem walkScript (h : g.SameStructure g') : ∀ levels depth : Nat,
    g.walkScript levels depth = g'.walkScript levels depth
  | 0, _ => rfl
  | levels + 1, depth => by
    funext s
    simp only [Grammar.walkScript, Token.body?_eq_replacement?, h.rules, walkScript h levels]

theorem script (h : g.SameStructure g') (strategy : Strategy) (maxExpansion : Option Nat) :
    g.script strategy maxExpansion = g'.script strategy maxExpansion := by
  unfold Grammar.script
  rw [h.start, h.rules, h.evaluationDepth]
  cases strategy with
  | recursive => exact congrFun (h.walkScript _ 0) g'.start
  | materialized => simp only [h.walkScript 0 0]

end Grammar.SameStructure

/-! ### Lists of the same kinds -/

/-- Lists of calls with the same kinds in the same order. -/
def SameKinds (calls calls' : List PathCommand) : Prop :=
  calls.map (·.isLine) = calls'.map (·.isLine)

namespace SameKinds

variable {calls calls' more more' : List PathCommand}

theorem append (h : SameKinds calls calls') (hmore : SameKinds more more') :
    SameKinds (calls ++ more) (calls' ++ more') := by
  unfold SameKinds at *
  rw [List.map_append, List.map_append, h, hmore]

theorem countP (h : SameKinds calls calls') (p : Bool → Bool) :
    calls.countP (p ·.isLine) = calls'.countP (p ·.isLine) := by
  have hp (l : List PathCommand) : l.countP (p ·.isLine) = (l.map (·.isLine)).countP p :=
    List.countP_map.symm
  rw [hp, hp, h]

end SameKinds

/-- Two turtles with as many saved states make the same kind of call for a token. -/
theorem Token.sameKinds_call? {σ : Type} {g g' : Grammar} {t t' : Turtle σ}
    (h : t.stack.length = t'.stack.length) (k : Token) :
    SameKinds (k.call? g t).toList (k.call? g' t').toList := by
  unfold SameKinds
  rw [← Option.toList_map, ← Option.toList_map, map_isLine_call?, map_isLine_call?, h]

/-! ### Renderings of one shape -/

/-- The host's wish to stop goes by the kinds of the calls that the sink has got, whatever points
they go to. -/
def RenderConfig.GoesByKinds {σ : Type} [LineSink σ] (config : RenderConfig σ) (sink : σ) : Prop :=
  ∀ calls calls' : List PathCommand, SameKinds calls calls' →
    config.cancel.any (· (takeAll sink calls)) = config.cancel.any (· (takeAll sink calls'))

theorem takeAll_toList (a : Array PathCommand) : takeAll #[] a.toList = a := by
  rw [← Array.toList_inj, toList_takeAll]
  rfl

/-- The host's wish to stop a rendering into an array goes by the kinds in the array. -/
theorem RenderConfig.GoesByKinds.any_eq {config : RenderConfig (Array PathCommand)}
    (h : config.GoesByKinds #[]) {a a' : Array PathCommand}
    (hkinds : SameKinds a.toList a'.toList) :
    config.cancel.any (· a) = config.cancel.any (· a') := by
  simpa only [takeAll_toList] using h a.toList a'.toList hkinds

theorem RenderConfig.GoesByKinds.comap {σ : Type} [LineSink σ] {config : RenderConfig σ} {sink : σ}
    (h : config.GoesByKinds sink) : (config.comap (.replay sink)).GoesByKinds #[] := by
  have hany (calls : List PathCommand) :
      (config.comap (.replay sink)).cancel.any (· (takeAll #[] calls)) =
        config.cancel.any (· (takeAll sink calls)) := by
    have hcalls : SinkMap.replay sink (takeAll #[] calls) = takeAll sink calls :=
      (SinkMap.replay sink).map_takeAll calls #[]
    rw [← hcalls, RenderConfig.comap, Option.any_map]
    rfl
  intro calls calls' hkinds
  rw [hany, hany]
  exact h calls calls' hkinds

/-- Renderings that differ in points, headings and scales only. -/
structure RenderState.SameShape (s s' : RenderState (Array PathCommand)) : Prop where
  commands : s.commands = s'.commands
  maxRecursion : s.maxRecursion = s'.maxRecursion
  saved : s.turtle.stack.length = s'.turtle.stack.length
  segments : s.turtle.sink.segments = s'.turtle.sink.segments
  moves : s.turtle.sink.moves = s'.turtle.sink.moves
  kinds : SameKinds s.turtle.sink.sink.toList s'.turtle.sink.sink.toList

namespace RenderState.SameShape

variable {g g' : Grammar} {s s' : RenderState (Array PathCommand)}

theorem stats (h : s.SameShape s') : s.stats = s'.stats := by
  unfold RenderState.stats
  rw [h.commands, h.segments, h.moves, h.maxRecursion]

theorem initial (g g' : Grammar) : (RenderState.initial g #[]).SameShape (.initial g' #[]) :=
  ⟨rfl, rfl, rfl, rfl, rfl, rfl⟩

/-- **A token keeps the shape**, whatever the measures of the two grammars are. -/
theorem act (h : s.SameShape s') (k : Token) :
    ({ s with turtle := k.act g s.turtle } : RenderState _).SameShape
      { s' with turtle := k.act g' s'.turtle } := by
  have hcall : SameKinds (k.call? g s.turtle).toList (k.call? g' s'.turtle).toList :=
    Token.sameKinds_call? h.saved k
  have hlines := hcall.countP id
  have hmoves := hcall.countP not
  constructor
  case commands => exact h.commands
  case maxRecursion => exact h.maxRecursion
  case saved =>
    show (k.act g s.turtle).stack.length = (k.act g' s'.turtle).stack.length
    rw [Token.length_stack_act, Token.length_stack_act, h.saved]
  case segments =>
    show (k.act g s.turtle).sink.segments = (k.act g' s'.turtle).sink.segments
    rw [Token.sink_act, Token.sink_act, CountingSink.takeAll_eq, CountingSink.takeAll_eq]
    show s.turtle.sink.segments + _ = s'.turtle.sink.segments + _
    rw [h.segments]
    exact congrArg _ hlines
  case moves =>
    show (k.act g s.turtle).sink.moves = (k.act g' s'.turtle).sink.moves
    rw [Token.sink_act, Token.sink_act, CountingSink.takeAll_eq, CountingSink.takeAll_eq]
    show s.turtle.sink.moves + _ = s'.turtle.sink.moves + _
    rw [h.moves]
    exact congrArg _ hmoves
  case kinds =>
    show SameKinds (k.act g s.turtle).sink.sink.toList (k.act g' s'.turtle).sink.sink.toList
    rw [sink_sink_act, sink_sink_act, toList_takeAll, toList_takeAll]
    exact h.kinds.append hcall

/-- **Events keep the shape**: they end in the same way with calls of the same kinds. -/
theorem perform {config : RenderConfig (Array PathCommand)} (hcancel : config.GoesByKinds #[]) :
    ∀ (es : List Event) (s s' : RenderState (Array PathCommand)), s.SameShape s' →
      (outcome (perform config g es s)).1 = (outcome (perform config g' es s')).1 ∧
        SameKinds (outcome (perform config g es s)).2.toList
          (outcome (perform config g' es s')).2.toList
  | [], _, _, h => ⟨congrArg Except.ok h.stats, h.kinds⟩
  | .check :: es, s, s', h => by
    have hverdict : config.verdict (s.commands + 1) s.turtle.sink.sink =
        config.verdict (s'.commands + 1) s'.turtle.sink.sink := by
      unfold RenderConfig.verdict
      rw [h.commands, hcancel.any_eq h.kinds]
    rw [perform_check, perform_check, hverdict]
    cases config.verdict (s'.commands + 1) s'.turtle.sink.sink with
    | some e => exact ⟨rfl, h.kinds⟩
    | none =>
      exact perform hcancel es { s with commands := s.commands + 1 }
        { s' with commands := s'.commands + 1 }
        ⟨congrArg (· + 1) h.commands, h.maxRecursion, h.saved, h.segments, h.moves, h.kinds⟩
  | .act k :: es, s, s', h =>
    perform hcancel es { s with turtle := k.act g s.turtle }
      { s' with turtle := k.act g' s'.turtle } (h.act k)
  | .reach depth :: es, s, s', h =>
    perform hcancel es { s with maxRecursion := max s.maxRecursion depth }
      { s' with maxRecursion := max s'.maxRecursion depth }
      ⟨h.commands, congrArg (max · depth) h.maxRecursion, h.saved, h.segments, h.moves, h.kinds⟩
  | .fail e :: _, _, _, h => ⟨rfl, h.kinds⟩

end RenderState.SameShape

/-- Grammars of one structure make calls of the same kinds and end in the same way. -/
theorem Grammar.SameStructure.render {σ : Type} [LineSink σ] {g g' : Grammar}
    (h : g.SameStructure g') {config : RenderConfig σ} {sink : σ}
    (hcancel : config.GoesByKinds sink) :
    SameKinds (config.record g sink) (config.record g' sink) ∧
      (config.render g sink).1 = (config.render g' sink).1 := by
  obtain ⟨houtcome, hkinds⟩ := RenderState.SameShape.perform hcancel.comap
    (g.script config.strategy config.maxExpansion) _ _ (.initial g g')
  rw [render_eq_record config g, render_eq_record config g', RenderConfig.record,
    RenderConfig.record, render_eq_outcome, render_eq_outcome]
  refine ⟨hkinds.trans ?_, houtcome.trans ?_⟩ <;> rw [h.script] <;> rfl

theorem stats_of_ok {σ : Type} [LineSink σ] (config : RenderConfig σ) (g : Grammar) (sink : σ)
    {stats : RenderStats} (h : (config.render g sink).1 = .ok stats) :
    stats.segments = (config.record g sink).countP (·.isLine) ∧
      stats.moves = (config.record g sink).countP (!·.isLine) := by
  rw [record_of_ok config g sink h]
  rw [render_eq_record] at h
  obtain ⟨hturtle, rfl⟩ := turtle_final_of_ok (config.comap (.replay sink)) g #[] h
  unfold RenderState.stats
  rw [hturtle, Turtle.sink_follow, CountingSink.takeAll_eq, List.countP_cons_of_neg (by simp),
    List.countP_cons_of_pos (by simp)]
  exact ⟨Nat.zero_add _, Nat.add_comm _ _⟩

/-- **The structure of a grammar decides what is counted.** The sink takes in the record of the
rendering. When the rendering succeeds, the record is the move to the origin and the calls of the
tokens that the turtle has acted on, and the counts are its lines and moves. A line is drawn for
each of these tokens that draws, and a move is made at the start, for each token that steps without
drawing and for each closing bracket with an opening one to return to. Another grammar with the
same start, rules and depth makes calls of the same kinds and ends with the same counts or error,
whatever its measures are. -/
theorem render_by_structure {σ : Type} [LineSink σ] (config : RenderConfig σ) (g : Grammar)
    (sink : σ) :
    let figure := g.figure config.strategy
    (config.render g sink).2 = takeAll sink (config.record g sink) ∧
    (∀ stats, (config.render g sink).1 = .ok stats →
      config.record g sink =
        .moveTo .origin :: (RenderState.initial g (#[] : Array PathCommand)).turtle.calls g figure ∧
      stats.segments = (config.record g sink).countP (·.isLine) ∧
      stats.moves = (config.record g sink).countP (!·.isLine) ∧
      stats.segments = figure.countP Token.draws ∧
      stats.moves = 1 + figure.countP Token.moves + returns 0 figure) ∧
    ∀ g', g.SameStructure g' → config.GoesByKinds sink →
      SameKinds (config.record g sink) (config.record g' sink) ∧
      (config.render g sink).1 = (config.render g' sink).1 := by
  intro figure
  refine ⟨congrArg Prod.snd (render_eq_record config g sink), fun stats h => ?_,
    fun g' hstructure hcancel => hstructure.render hcancel⟩
  have hrecord := record_of_ok config g sink h
  obtain ⟨hsegments, hmoves⟩ := stats_of_ok config g sink h
  obtain ⟨hdraws, hsteps⟩ := countP_kinds figure 0
  have hkinds : (config.record g sink).map (·.isLine) = false :: kinds 0 figure := by
    rw [hrecord, List.map_cons, Turtle.map_isLine_calls]
    rfl
  have hcount (p : Bool → Bool) :
      (config.record g sink).countP (p ·.isLine) = (false :: kinds 0 figure).countP p := by
    rw [← hkinds, List.countP_map]
    rfl
  refine ⟨hrecord, hsegments, hmoves, ?_, ?_⟩
  · calc stats.segments
      _ = (config.record g sink).countP (·.isLine) := hsegments
      _ = (false :: kinds 0 figure).countP (·) := hcount (·)
      _ = (kinds 0 figure).countP (·) := List.countP_cons_of_neg nofun
      _ = figure.countP Token.draws := hdraws
  · calc stats.moves
      _ = (config.record g sink).countP (!·.isLine) := hmoves
      _ = (false :: kinds 0 figure).countP (!·) := hcount (!·)
      _ = (kinds 0 figure).countP (!·) + 1 := List.countP_cons_of_pos rfl
      _ = 1 + figure.countP Token.moves + returns 0 figure := by omega

/-- A closing bracket in the start that finds the one of a rule body, and a step that is not a
number. -/
theorem render_by_structure_bracket :
    let g := ((Grammar.ofStart "F]").withRule 'F' "[G|").withEvaluationDepth 1
    let g' : Grammar := { g with stepLength := 0 / 0 }
    let config : RenderConfig (Array PathCommand) :=
      { maxCommands := some 5, cancel := some fun a => decide (5 ≤ a.size) }
    (config.render g #[]).1 = .ok ⟨5, 1, 3, 1⟩ ∧ (config.record g #[]).countP (·.isLine) = 1 ∧
    g.SameStructure g' ∧ config.GoesByKinds #[] ∧
    SameKinds (config.record g #[]) (config.record g' #[]) ∧
    (config.render g' #[]).1 = .ok ⟨5, 1, 3, 1⟩ := by
  intro g g' config
  have hscript : g.script .recursive none =
      [.reach 0, .check, .act .enterScale, .reach 1, .check, .act .push, .check, .act (.symbol 'G'),
        .check, .act .forcedDraw, .act .exitScale, .check, .act .pop] := by decide
  have hrender : (config.render g #[]).1 = .ok ⟨5, 1, 3, 1⟩ := by
    rw [render_eq_outcome, hscript]
    rfl
  have hstructure : g.SameStructure g' := ⟨rfl, rfl, rfl⟩
  have hcancel : config.GoesByKinds #[] := by
    intro calls calls' h
    have hlength := congrArg List.length h
    simp only [List.length_map] at hlength
    simp [config, ← Array.length_toList, toList_takeAll, hlength]
  obtain ⟨-, hok, hother⟩ := render_by_structure config g #[]
  obtain ⟨-, hlines, -⟩ := hok _ hrender
  obtain ⟨hkinds, houtcome⟩ := hother g' hstructure hcancel
  exact ⟨hrender, hlines.symm, hstructure, hcancel, hkinds, houtcome.symm.trans hrender⟩

end LSystem
