/-
# A command limit cuts a rendering short

A limit on commands changes nothing but where a rendering ends. If the rendering without the
limit makes no more checks than the limit allows, it is the rendering with the limit, the
failure of an expansion included. Otherwise the check after the last allowed one fails, and
the sink holds what the rendering without the limit has drawn when it comes to that check
(`render_commandLimit`). So a smaller limit draws the beginning of what a greater one draws.

Key definitions: `Trace.cut`, `Trace.within`.
Key theorems: `stop?_of_cancel_eq_none`, `render_of_cancel_eq_none`, `perform_before_check`,
`render_commandLimit`.
-/
import LSystem.Proofs.Trace

namespace LSystem

open LineSink (take takeAll)

namespace Trace

/-- The part of a trace up to check number `n + 1`, which is its last mark then. -/
def cut : Nat → Trace → Trace
  | _, [] => []
  | 0, .check :: _ => [.check]
  | n + 1, .check :: tr => .check :: cut n tr
  | n, .call c :: tr => .call c :: cut n tr

/-- The part of a trace that a limit on checks, if there is one, leaves. -/
def within : Option Nat → Trace → Trace
  | none, tr => tr
  | some limit, tr => tr.cut limit

theorem cut_of_checks_le : ∀ (tr : Trace) (n : Nat), tr.checks ≤ n → tr.cut n = tr
  | [], _, _ => rfl
  | .check :: _, 0, h => by simp [checks] at h
  | .check :: tr, n + 1, h => by rw [cut, cut_of_checks_le tr n (Nat.le_of_succ_le_succ h)]
  | .call _ :: tr, n, h => by rw [cut, cut_of_checks_le tr n h]

theorem calls_cut_add : ∀ (n more : Nat) (tr : Trace),
    ∃ calls, (tr.cut (n + more)).calls = (tr.cut n).calls ++ calls
  | _, _, [] => ⟨[], rfl⟩
  | 0, more, .check :: tr => ⟨_, (List.nil_append _).symm⟩
  | n + 1, more, .check :: tr => by
    obtain ⟨calls, h⟩ := calls_cut_add n more tr
    exact ⟨calls, by rw [Nat.add_right_comm, cut, cut, Trace.calls, Trace.calls, h]⟩
  | n, more, .call c :: tr => by
    obtain ⟨calls, h⟩ := calls_cut_add n more tr
    exact ⟨calls, by rw [cut, cut, Trace.calls, Trace.calls, h, List.cons_append]⟩

end Trace

/-! ### A limit along a trace -/

namespace RenderConfig

variable {σ : Type}

/-- How many checks a limit, if there is one, still allows after `commands` ones. -/
def room (config : RenderConfig σ) (commands : Nat) : Option Nat :=
  config.maxCommands.map (· - commands)

theorem overrun_eq_some_iff (config : RenderConfig σ) (commands : Nat) (e : RenderError) :
    config.overrun commands = some e ↔
      ∃ limit, config.maxCommands = some limit ∧ limit < commands ∧
        .commandLimitExceeded limit = e := by
  simp [overrun, Option.bind_eq_some_iff]

theorem overrun_eq_none_iff (config : RenderConfig σ) (commands : Nat) :
    config.overrun commands = none ↔
      ∀ limit, config.maxCommands = some limit → commands ≤ limit := by
  simp [overrun, Option.bind_eq_none_iff]

theorem room_zero (config : RenderConfig σ) : config.room 0 = config.maxCommands := by simp [room]

theorem overrun_zero (config : RenderConfig σ) : config.overrun 0 = none :=
  (config.overrun_eq_none_iff 0).mpr fun _ _ => Nat.zero_le _

theorem maxCommands_of_overrun {config : RenderConfig σ} {commands : Nat} {e : RenderError}
    (hle : config.overrun commands = none) (h : config.overrun (commands + 1) = some e) :
    config.maxCommands = some commands ∧ e = .commandLimitExceeded commands := by
  obtain ⟨limit, hlimit, hlt, rfl⟩ := (config.overrun_eq_some_iff _ _).mp h
  have hge := (config.overrun_eq_none_iff _).mp hle limit hlimit
  obtain rfl : limit = commands := by omega
  exact ⟨hlimit, rfl⟩

theorem overrun_mono {config : RenderConfig σ} {commands more : Nat} {e : RenderError}
    (hle : commands ≤ more) (h : config.overrun commands = some e) :
    config.overrun more = some e := by
  obtain ⟨limit, hlimit, hlt, rfl⟩ := (config.overrun_eq_some_iff _ _).mp h
  exact (config.overrun_eq_some_iff _ _).mpr ⟨limit, hlimit, by omega, rfl⟩

theorem within_of_overrun_eq_none {config : RenderConfig σ} {tr : Trace}
    (h : config.overrun tr.checks = none) : tr.within config.maxCommands = tr := by
  cases hlimit : config.maxCommands with
  | none => rfl
  | some limit => exact tr.cut_of_checks_le limit ((config.overrun_eq_none_iff _).mp h limit hlimit)

theorem within_check_of_overrun {config : RenderConfig σ} {commands : Nat} {e : RenderError}
    (hle : config.overrun commands = none) (h : config.overrun (commands + 1) = some e)
    (tr : Trace) : Trace.within (config.room commands) (.check :: tr) = [.check] := by
  simp [room, (maxCommands_of_overrun hle h).1, Trace.within, Trace.cut]

theorem within_check_of_allowed {config : RenderConfig σ} {commands : Nat}
    (h : config.overrun (commands + 1) = none) (tr : Trace) :
    Trace.within (config.room commands) (.check :: tr) =
      .check :: tr.within (config.room (commands + 1)) := by
  cases hlimit : config.maxCommands with
  | none => simp [room, hlimit, Trace.within]
  | some limit =>
    have hlt := (config.overrun_eq_none_iff _).mp h limit hlimit
    have hsub : limit - commands = limit - (commands + 1) + 1 := by omega
    simp [room, hlimit, Trace.within, hsub, Trace.cut]

end RenderConfig

theorem Trace.within_call (c : PathCommand) (tr : Trace) : ∀ limit : Option Nat,
    Trace.within limit (.call c :: tr) = .call c :: tr.within limit
  | none | some 0 | some (_ + 1) => rfl

section

variable {σ : Type} (config : RenderConfig σ) (hcancel : config.cancel = none)
include hcancel

theorem verdict_of_cancel_eq_none (commands : Nat) (sink : σ) :
    config.verdict commands sink = config.overrun commands := by
  simp [RenderConfig.verdict, hcancel]

variable [LineSink σ]

/-- Without a flag, a rendering is stopped by the first check above its limit. -/
theorem stop?_of_cancel_eq_none : ∀ (tr : Trace) (commands : Nat) (sink : σ),
    config.overrun commands = none →
      config.stop? commands sink tr =
        (config.overrun (commands + tr.checks)).map fun e =>
          (e, (tr.within (config.room commands)).calls)
  | [], commands, _, h => by simp [RenderConfig.stop?, Trace.checks, h]
  | .check :: tr, commands, sink, h => by
    rw [RenderConfig.stop?, verdict_of_cancel_eq_none config hcancel, Trace.checks]
    cases hnext : config.overrun (commands + 1) with
    | some e =>
      have hlast := RenderConfig.overrun_mono
        (Nat.add_le_add_left (Nat.le_add_left 1 (Trace.checks tr)) commands) hnext
      rw [RenderConfig.within_check_of_overrun h hnext, hlast]
      rfl
    | none =>
      rw [RenderConfig.within_check_of_allowed hnext, Trace.calls, ← Nat.add_assoc,
        Nat.add_right_comm]
      exact stop?_of_cancel_eq_none tr (commands + 1) sink hnext
  | .call c :: tr, commands, sink, h => by
    rw [RenderConfig.stop?, stop?_of_cancel_eq_none tr commands (take sink c) h, Trace.checks,
      Trace.within_call, Trace.calls, Option.map_map]
    rfl

/-- Without a flag, events make the checks of their trace that are within the limit, and the
first one above it. -/
theorem commands_perform_of_cancel_eq_none (g : Grammar) : ∀ (es : List Event) (s : RenderState σ),
    config.overrun s.commands = none →
      (endState (perform config g es s)).commands =
        s.commands + ((marks g es s.turtle).within (config.room s.commands)).checks
  | [], s, _ => by cases config.room s.commands <;> rfl
  | .check :: es, s, h => by
    rw [perform_check, verdict_of_cancel_eq_none config hcancel, marks]
    cases hnext : config.overrun (s.commands + 1) with
    | some e =>
      rw [RenderConfig.within_check_of_overrun h hnext]
      rfl
    | none =>
      rw [RenderConfig.within_check_of_allowed hnext, Trace.checks]
      have ih := commands_perform_of_cancel_eq_none g es { s with commands := s.commands + 1 } hnext
      exact ih.trans (Nat.add_right_comm _ _ _)
  | .act k :: es, s, h => by
    have ih := commands_perform_of_cancel_eq_none g es { s with turtle := k.act g s.turtle } h
    rw [perform_act, ih, marks]
    cases k.call? g s.turtle with
    | some c => rw [Trace.within_call, Trace.checks]
    | none => rfl
  | .reach depth :: es, s, h =>
    commands_perform_of_cancel_eq_none g es { s with maxRecursion := max s.maxRecursion depth } h
  | .fail _ :: _, s, _ => by cases config.room s.commands <;> rfl

theorem commands_final_of_cancel_eq_none (g : Grammar) (sink : σ) :
    (config.final g sink).commands =
      ((g.trace config.strategy config.maxExpansion).within config.maxCommands).checks := by
  rw [RenderConfig.final, walkGrammar_eq_perform, g.trace_eq _ _ sink, Trace.within_call,
    Trace.checks]
  have h := commands_perform_of_cancel_eq_none config hcancel g
    (g.script config.strategy config.maxExpansion) (.initial g sink) config.overrun_zero
  rwa [show (RenderState.initial g sink).commands = 0 from rfl, config.room_zero, Nat.zero_add] at h

/-- Without a flag, a rendering whose checks exceed its limit ends with the limit's error. -/
theorem render_of_cancel_eq_none (g : Grammar) (sink : σ) :
    config.render g sink =
      let trace := g.trace config.strategy config.maxExpansion
      match config.overrun trace.checks with
      | some e => (.error e, takeAll sink (trace.within config.maxCommands).calls)
      | none => config.unbounded.render g sink := by
  rw [render_eq_stop, stop?_of_cancel_eq_none config hcancel _ 0 sink config.overrun_zero,
    config.room_zero, Nat.zero_add]
  simp only
  cases config.overrun (g.trace config.strategy config.maxExpansion).checks <;> rfl

theorem sink_render_of_cancel_eq_none (g : Grammar) (sink : σ) :
    (config.render g sink).2 =
      takeAll sink
        ((g.trace config.strategy config.maxExpansion).within config.maxCommands).calls := by
  rw [render_of_cancel_eq_none config hcancel]
  simp only
  split
  · rfl
  · next h => rw [RenderConfig.within_of_overrun_eq_none h, render_unbounded]

end

section

variable {σ : Type} [LineSink σ]

/-- Before check number `n + 1` of events that nothing bounds, `n` checks were made and the sink
holds the calls up to that check. -/
theorem perform_before_check (config : RenderConfig σ) (g : Grammar) :
    ∀ (es : List Event) (n : Nat) (s : RenderState σ), n < (marks g es s.turtle).checks →
      ∃ before after s', es = before ++ .check :: after ∧
        perform config.unbounded g before s = .ok () s' ∧ s'.commands = s.commands + n ∧
        s'.turtle.sink.sink = takeAll s.turtle.sink.sink ((marks g es s.turtle).cut n).calls
  | [], n, _, h => by simp [marks, Trace.checks] at h
  | .check :: es, 0, s, _ => ⟨[], es, s, rfl, rfl, rfl, rfl⟩
  | .check :: es, n + 1, s, h => by
    obtain ⟨before, after, s', hsplit, hbefore, hcommands, hheld⟩ :=
      perform_before_check config g es n { s with commands := s.commands + 1 }
        (Nat.lt_of_succ_lt_succ h)
    refine ⟨.check :: before, after, s', by rw [hsplit]; rfl, ?_,
      hcommands.trans (Nat.add_right_comm _ _ _), hheld⟩
    rw [perform_check, RenderConfig.verdict_unbounded]
    exact hbefore
  | .act k :: es, n, s, h => by
    have hsink := sink_sink_act g s.turtle k
    rw [marks] at h ⊢
    obtain ⟨before, after, s', hsplit, hbefore, hcommands, hheld⟩ :=
      perform_before_check config g es n { s with turtle := k.act g s.turtle } (by
        cases hk : k.call? g s.turtle <;> rw [hk] at h <;> exact h)
    refine ⟨.act k :: before, after, s', by rw [hsplit]; rfl, hbefore, hcommands, hheld.trans ?_⟩
    simp only [hsink]
    cases k.call? g s.turtle <;> rfl
  | .reach depth :: es, n, s, h => by
    obtain ⟨before, after, s', hsplit, hbefore, hcommands, hheld⟩ :=
      perform_before_check config g es n { s with maxRecursion := max s.maxRecursion depth } h
    exact ⟨.reach depth :: before, after, s', by rw [hsplit]; rfl, hbefore, hcommands, hheld⟩
  | .fail _ :: _, _, _, h => by simp [marks, Trace.checks] at h

/-- An unbounded rendering comes to each check of its trace, with the calls up to it made. -/
theorem walkGrammar_before_check (config : RenderConfig σ) (g : Grammar) (sink : σ) {n : Nat}
    (h : n < (g.trace config.strategy config.maxExpansion).checks) :
    ∃ before after s,
      walkGrammar config.unbounded g = perform config.unbounded g (before ++ .check :: after) ∧
      perform config.unbounded g before (.initial g sink) = .ok () s ∧ s.commands = n ∧
      s.turtle.sink.sink =
        takeAll sink ((g.trace config.strategy config.maxExpansion).cut n).calls := by
  rw [g.trace_eq _ _ sink] at h ⊢
  obtain ⟨before, after, s, hscript, hbefore, hcommands, hsink⟩ :=
    perform_before_check config g (g.script config.strategy config.maxExpansion) n
      (.initial g sink) h
  have hwalk : walkGrammar config.unbounded g =
      perform config.unbounded g (g.script config.strategy config.maxExpansion) :=
    walkGrammar_eq_perform config.unbounded g
  refine ⟨before, after, s, hwalk.trans (by rw [hscript]), hbefore,
    hcommands.trans (Nat.zero_add n), hsink.trans ?_⟩
  rw [Trace.cut, Trace.calls]
  rfl

/-- **A command limit truncates a rendering and changes nothing else.** Without the limit, the
rendering makes `trace.checks` checks. If these are within the limit, the limit changes
nothing. Otherwise the rendering ends with the limit's error, and its sink is the one that the
unlimited rendering has after `limit` checks, when it comes to the next one. A greater limit
only adds calls. -/
theorem render_commandLimit (strategy : Strategy) (maxExpansion : Option Nat) (g : Grammar)
    (sink : σ) (limit : Nat) :
    let trace := g.trace strategy maxExpansion
    let free : RenderConfig σ := { strategy, maxExpansion }
    let limited (limit : Nat) : RenderConfig σ :=
      { strategy, maxExpansion, maxCommands := some limit }
    trace.checks = (free.final g sink).commands ∧
      (free.render g sink).2 = takeAll sink trace.calls ∧
      (limited limit).render g sink =
        (if trace.checks ≤ limit then free.render g sink
        else (.error (.commandLimitExceeded limit), takeAll sink (trace.cut limit).calls)) ∧
      (limit < trace.checks → ∃ before after s,
        walkGrammar free g = perform free g (before ++ .check :: after) ∧
        perform free g before (.initial g sink) = .ok () s ∧ s.commands = limit ∧
        s.turtle.sink.sink = takeAll sink (trace.cut limit).calls) ∧
      ∀ more, ∃ calls, ((limited (limit + more)).render g sink).2 =
        takeAll ((limited limit).render g sink).2 calls := by
  intro trace free limited
  have hsink (n : Nat) : ((limited n).render g sink).2 = takeAll sink (trace.cut n).calls :=
    sink_render_of_cancel_eq_none (limited n) rfl g sink
  have hover : (limited limit).overrun trace.checks =
      if limit < trace.checks then some (.commandLimitExceeded limit) else none := rfl
  have hrender : (limited limit).render g sink =
      match (limited limit).overrun trace.checks with
      | some e => (.error e, takeAll sink (trace.cut limit).calls)
      | none => free.render g sink := render_of_cancel_eq_none (limited limit) rfl g sink
  refine ⟨(commands_final_of_cancel_eq_none free rfl g sink).symm, render_unbounded free g sink, ?_,
    fun h => ?_, fun more => ?_⟩
  · rw [hrender, hover]
    by_cases h : trace.checks ≤ limit
    · rw [if_pos h, if_neg (Nat.not_lt.mpr h)]
    · rw [if_neg h, if_pos (Nat.not_le.mp h)]
  · exact walkGrammar_before_check free g sink h
  · obtain ⟨calls, h⟩ := trace.calls_cut_add limit more
    exact ⟨calls, by rw [hsink, hsink, h, LineSink.takeAll_append]⟩

/-- Two lines need two checks; a limit of one leaves the first. -/
theorem render_commandLimit_one :
    1 < ((Grammar.ofStart "FF").trace .recursive none).checks ∧
    (({ maxCommands := some 1 } : RenderConfig (Array PathCommand)).render (.ofStart "FF") #[]).1 =
      .error (.commandLimitExceeded 1) := by
  have h := (render_commandLimit .recursive none (.ofStart "FF") (#[] : Array PathCommand) 1).2.2.1
  rw [if_neg (by decide)] at h
  exact ⟨by decide, congrArg Prod.fst h⟩

end
end LSystem
