/-
# The calls of a rendering

A turtle that acts on tokens makes their calls, in order, whatever sink takes them. The record of a
rendering is the list of calls that it hands to its sink, up to the check that stops it if one
does. A rendering that succeeds has acted on its whole figure, also under limits and a flag: none
of its checks has failed and no pass has written too much (`turtle_final_of_ok`). So its record is
the move to the origin and the calls of the figure (`record_of_ok`).

Key definitions: `Turtle.calls`, `RenderConfig.record`.
Key theorems: `Token.act_frame`, `Turtle.calls_append`, `Turtle.sink_follow`, `render_eq_record`,
`fail_notMem_of_ok`, `counts_of_render_ok`, `Rules.deriveScript_of_no_fail`,
`turtle_final_of_ok`, `record_of_ok`.
-/
import LSystem.Proofs.Strokes
import LSystem.Proofs.Trace

namespace LSystem

open LineSink (take takeAll)

/-! ### The calls of tokens -/

section

variable {σ τ : Type} [LineSink σ] [LineSink τ]

/-- The calls that tokens make a turtle make, in order. -/
def Turtle.calls (g : Grammar) : Turtle σ → List Token → List PathCommand
  | _, [] => []
  | t, k :: ks => (k.call? g t).toList ++ calls g (k.act g t) ks

theorem Token.act_frame (g : Grammar) (t : Turtle σ) (k : Token) :
    (k.act g t).stack =
        (match k with
        | push => t.state :: t.stack
        | pop => t.stack.tail
        | symbol _ | turn _ _ | enterScale | exitScale | forcedDraw => t.stack) ∧
      (k.act g t).scaleDepth =
        (match k with
        | enterScale => t.scaleDepth + 1
        | exitScale => t.scaleDepth - 1
        | symbol _ | turn _ _ | push | pop | forcedDraw => t.scaleDepth) ∧
      (k.act g t).depthScale = t.depthScale := by
  cases k with
  | symbol c =>
    simp only [act]
    cases isDraw c with
    | true => exact ⟨rfl, rfl, rfl⟩
    | false => cases isMove c <;> exact ⟨rfl, rfl, rfl⟩
  | pop =>
    obtain ⟨sink, state, pen, stack, scaleDepth, depthScale⟩ := t
    cases stack <;> exact ⟨rfl, rfl, rfl⟩
  | _ => exact ⟨rfl, rfl, rfl⟩

theorem Turtle.follow_append (g : Grammar) (ks ls : List Token) (t : Turtle σ) :
    t.follow g (ks ++ ls) = (t.follow g ks).follow g ls := List.foldl_append

theorem Turtle.calls_append (g : Grammar) (ls : List Token) : ∀ (ks : List Token) (t : Turtle σ),
    t.calls g (ks ++ ls) = t.calls g ks ++ (t.follow g ks).calls g ls
  | [], _ => rfl
  | k :: ks, t => by
    rw [List.cons_append, calls, calls, calls_append g ls ks, List.append_assoc]
    rfl

theorem Turtle.sink_follow (g : Grammar) : ∀ (ks : List Token) (t : Turtle σ),
    (t.follow g ks).sink = takeAll t.sink (t.calls g ks)
  | [], _ => rfl
  | k :: ks, t => by
    rw [calls, LineSink.takeAll_append, ← Token.sink_act]
    exact sink_follow g ks (k.act g t)

@[simp] theorem PathCommand.isLine_moveTo (p : Point) : (moveTo p).isLine = false := rfl

@[simp] theorem PathCommand.isLine_lineTo (p : Point) : (lineTo p).isLine = true := rfl

theorem CountingSink.takeAll_eq : ∀ (calls : List PathCommand) (c : CountingSink σ),
    takeAll c calls =
      { sink := takeAll c.sink calls
        segments := c.segments + calls.countP (·.isLine)
        moves := c.moves + calls.countP (!·.isLine) }
  | [], _ => rfl
  | .moveTo p :: calls, c => by
    rw [LineSink.takeAll_cons, takeAll_eq calls, List.countP_cons_of_neg (by simp),
      List.countP_cons_of_pos (by simp), Nat.add_comm (calls.countP _) 1, ← Nat.add_assoc]
    rfl
  | .lineTo p :: calls, c => by
    rw [LineSink.takeAll_cons, takeAll_eq calls, List.countP_cons_of_pos (by simp),
      List.countP_cons_of_neg (by simp), Nat.add_comm (calls.countP _) 1, ← Nat.add_assoc]
    rfl

theorem toList_takeAll : ∀ (calls : List PathCommand) (a : Array PathCommand),
    (takeAll a calls).toList = a.toList ++ calls
  | [], a => (List.append_nil _).symm
  | c :: calls, a => by
    have htake : take a c = a.push c := by cases c <;> rfl
    rw [LineSink.takeAll_cons, toList_takeAll calls, htake, Array.toList_push, List.append_assoc]
    rfl

end

/-! ### The record of a rendering -/

section

variable {σ : Type} [LineSink σ]

/-- The calls that a rendering hands to its sink, in order. -/
def RenderConfig.record (config : RenderConfig σ) (g : Grammar) (sink : σ) : List PathCommand :=
  ((config.comap (.replay sink)).render g #[]).2.toList

/-- A sink takes in the record of its rendering, and the outcome is the one of recording it. -/
theorem render_eq_record (config : RenderConfig σ) (g : Grammar) (sink : σ) :
    config.render g sink =
      (((config.comap (.replay sink)).render g #[]).1, takeAll sink (config.record g sink)) :=
  render_eq_replay config g sink

theorem record_array (config : RenderConfig (Array PathCommand)) (g : Grammar) :
    config.record g #[] = (config.render g #[]).2.toList := by
  have h := congrArg (·.2.toList) (render_eq_record config g #[])
  simpa [toList_takeAll] using h.symm

/-! ### Renderings that succeed -/

theorem fail_notMem_of_ok (config : RenderConfig σ) (g : Grammar) (e : RenderError)
    (stats : RenderStats) : ∀ (es : List Event) (s : RenderState σ),
      (outcome (perform config g es s)).1 = .ok stats → .fail e ∉ es
  | [], _, _ => List.not_mem_nil
  | .check :: es, s, h => by
    rw [perform_check] at h
    cases hverdict : config.verdict (s.commands + 1) s.turtle.sink.sink with
    | some e' =>
      rw [hverdict] at h
      cases h
    | none =>
      rw [hverdict] at h
      simpa using fail_notMem_of_ok config g e stats es { s with commands := s.commands + 1 } h
  | .act k :: es, s, h => by
    simpa using fail_notMem_of_ok config g e stats es { s with turtle := k.act g s.turtle } h
  | .reach depth :: es, s, h => by
    simpa using fail_notMem_of_ok config g e stats es
      { s with maxRecursion := max s.maxRecursion depth } h
  | .fail _ :: _, _, h => nomatch h

/-- Events that are performed to the end have made all their checks and opened all their bodies. -/
theorem counts_of_ok (config : RenderConfig σ) (g : Grammar) (stats : RenderStats) :
    ∀ (es : List Event) (s : RenderState σ), (outcome (perform config g es s)).1 = .ok stats →
      stats.commands = s.commands + es.count .check ∧
        stats.maxRecursion = max s.maxRecursion (deepest es)
  | [], s, h => by
    obtain rfl := Except.ok.inj h
    exact ⟨rfl, (Nat.max_zero _).symm⟩
  | .check :: es, s, h => by
    rw [perform_check] at h
    cases hverdict : config.verdict (s.commands + 1) s.turtle.sink.sink with
    | some e =>
      rw [hverdict] at h
      cases h
    | none =>
      rw [hverdict] at h
      obtain ⟨hcommands, hdeepest⟩ :=
        counts_of_ok config g stats es { s with commands := s.commands + 1 } h
      rw [List.count_cons_self, Nat.add_comm (es.count _), ← Nat.add_assoc]
      exact ⟨hcommands, hdeepest⟩
  | .act k :: es, s, h => by
    rw [List.count_cons_of_ne (by simp)]
    exact counts_of_ok config g stats es { s with turtle := k.act g s.turtle } h
  | .reach depth :: es, s, h => by
    obtain ⟨hcommands, hdeepest⟩ :=
      counts_of_ok config g stats es { s with maxRecursion := max s.maxRecursion depth } h
    rw [List.count_cons_of_ne (by simp), deepest, ← Nat.max_assoc]
    exact ⟨hcommands, hdeepest⟩
  | .fail _ :: _, _, h => nomatch h

theorem counts_of_render_ok (config : RenderConfig σ) (g : Grammar) (sink : σ) {stats : RenderStats}
    (h : (config.render g sink).1 = .ok stats) :
    stats.commands = (g.script config.strategy config.maxExpansion).count .check ∧
      stats.maxRecursion = deepest (g.script config.strategy config.maxExpansion) := by
  rw [render_eq_outcome] at h
  obtain ⟨hcommands, hdeepest⟩ := counts_of_ok config g stats _ _ h
  exact ⟨hcommands.trans (Nat.zero_add _), hdeepest.trans (Nat.zero_max _)⟩

namespace Rules

theorem passScript_of_no_fail (rules : Rules) (limit : Option Nat)
    {next next' : String → List Event}
    (hnext : ∀ s, (∀ e, .fail e ∉ next s) → next s = next' s) :
    ∀ (ts : List Token) (out : String), (∀ e, .fail e ∉ rules.passScript limit next ts out) →
      rules.passScript limit next ts out = rules.passScript none next' ts out
  | [], out, h => hnext out h
  | t :: ts, out, h => by
    have ih := passScript_of_no_fail rules limit hnext ts (out ++ rules.image t)
    cases limit with
    | none =>
      simp only [passScript] at h ⊢
      rw [ih fun e he => h e (List.mem_cons_of_mem _ he)]
    | some l =>
      simp only [passScript] at h ⊢
      split at h
      · exact absurd (List.mem_cons_of_mem _ (List.mem_singleton_self _)) (h _)
      · next hle => rw [if_neg hle, ih fun e he => h e (List.mem_cons_of_mem _ he)]

/-- An expansion that keeps to its limit is the one without a limit. -/
theorem deriveScript_of_no_fail (rules : Rules) (limit : Option Nat) (next : String → List Event) :
    ∀ (n : Nat) (s : String), (∀ e, .fail e ∉ rules.deriveScript limit next n s) →
      rules.deriveScript limit next n s = rules.deriveScript none next n s
  | 0, _, _ => rfl
  | n + 1, _, h =>
    rules.passScript_of_no_fail limit (rules.deriveScript_of_no_fail limit next n) _ _ h

end Rules

theorem Grammar.acted_script_of_no_fail (g : Grammar) (strategy : Strategy)
    (maxExpansion : Option Nat) (h : ∀ e, .fail e ∉ g.script strategy maxExpansion) :
    acted (g.script strategy maxExpansion) = g.figure strategy := by
  rw [← (g.script_none strategy).1]
  cases strategy with
  | recursive => rfl
  | materialized => exact congrArg acted (g.rules.deriveScript_of_no_fail maxExpansion _ _ _ h)

/-- **A rendering that succeeds has acted on its figure**, and its counts are those of the state
it has ended in. -/
theorem turtle_final_of_ok (config : RenderConfig σ) (g : Grammar) (sink : σ) {stats : RenderStats}
    (h : (config.render g sink).1 = .ok stats) :
    (config.final g sink).turtle =
        (RenderState.initial g sink).turtle.follow g (g.figure config.strategy) ∧
      stats = (config.final g sink).stats := by
  have hfinal : config.final g sink =
      endState (perform config g (g.script config.strategy config.maxExpansion)
        (.initial g sink)) := by
    unfold RenderConfig.final
    rw [walkGrammar_eq_perform]
    rfl
  rw [render_eq_outcome] at h
  constructor
  · obtain ⟨ks, -, hturtle, hend⟩ :=
      perform_follow config g (g.script config.strategy config.maxExpansion) (.initial g sink)
    rw [hfinal, hturtle]
    rcases hend with rfl | ⟨e, herror⟩
    · rw [g.acted_script_of_no_fail _ _ fun e => fail_notMem_of_ok config g e stats _ _ h]
    · rw [herror] at h
      cases h
  · rw [hfinal]
    cases hrun : perform config g (g.script config.strategy config.maxExpansion)
        (.initial g sink) with
    | ok _ s =>
      rw [hrun] at h
      exact (Except.ok.inj h).symm
    | error e s =>
      rw [hrun] at h
      cases h

/-- A rendering that succeeds hands the move to the origin and the calls of its figure to its
sink. -/
theorem record_of_ok (config : RenderConfig σ) (g : Grammar) (sink : σ) {stats : RenderStats}
    (h : (config.render g sink).1 = .ok stats) :
    config.record g sink = .moveTo .origin ::
      (RenderState.initial g (#[] : Array PathCommand)).turtle.calls g
        (g.figure config.strategy) := by
  rw [render_eq_record] at h
  obtain ⟨hturtle, -⟩ := turtle_final_of_ok (config.comap (.replay sink)) g #[] h
  unfold RenderConfig.record
  rw [sink_render_eq_final, hturtle, Turtle.sink_follow, CountingSink.takeAll_eq, toList_takeAll]
  rfl

end

end LSystem
