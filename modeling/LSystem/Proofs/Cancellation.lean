/-
# Cancelling a rendering

A host can raise a flag from inside its sink, after any call. No two calls of a rendering
follow each other without a check between them: a token makes one call at most, and a check
comes before every token that makes one. So a flag that goes up after a call stops the
rendering before the next call, and it is not noticed only if no check follows
(`render_cancel`).

Key definitions: `Event.Spaced`, `Trace.Spaced`, `FlagSink`, `Trace.afterCall`,
`Trace.upToCall`.
Key theorems: `Grammar.spaced_script`, `Grammar.spaced_trace`, `stop?_of_raised`,
`stop?_of_not_raised`, `render_cancel`.
-/
import LSystem.Proofs.CommandLimit

namespace LSystem

open LineSink (take takeAll)

/-! ### A check between two calls -/

/-- Whether a token changes the scale depth and nothing else. -/
def Token.isScaleMark : Token → Bool
  | enterScale | exitScale => true
  | _ => false

/-- Each token in a list of events has a check of its own before it, scale marks excepted. The
first token needs none when `checked` says that its check has been made. -/
def Event.Spaced : (checked : Bool) → List Event → Prop
  | _, [] => True
  | _, .check :: es => Spaced true es
  | checked, .act k :: es =>
    if k.isScaleMark then Spaced checked es else checked = true ∧ Spaced false es
  | checked, .reach _ :: es => Spaced checked es
  | _, .fail _ :: _ => True

namespace Event

theorem spaced_of_false : ∀ (es : List Event) (checked : Bool),
    Spaced false es → Spaced checked es
  | [], _, _ => trivial
  | .check :: _, _, h => h
  | .act k :: es, checked, h => by
    unfold Spaced at h ⊢
    split
    · next hk => exact spaced_of_false es checked (by simpa [hk] using h)
    · next hk => simp [hk] at h
  | .reach _ :: es, checked, h => spaced_of_false es checked h
  | .fail _ :: _, _, _ => trivial

theorem spaced_append : ∀ (es fs : List Event) (checked : Bool),
    Spaced checked es → Spaced false fs → Spaced checked (es ++ fs)
  | [], fs, checked, _, hf => spaced_of_false fs checked hf
  | .check :: es, fs, _, h, hf => spaced_append es fs true h hf
  | .act k :: es, fs, checked, h, hf => by
    rw [List.cons_append]
    unfold Spaced at h ⊢
    split
    · next hk => exact spaced_append es fs checked (by simpa [hk] using h) hf
    · next hk =>
      simp only [hk, Bool.false_eq_true, if_false] at h
      exact ⟨h.1, spaced_append es fs false h.2 hf⟩
  | .reach _ :: es, fs, checked, h, hf => spaced_append es fs checked h hf
  | .fail _ :: _, _, _, _, _ => trivial

theorem spaced_flatMap {f : Token → List Event} (hf : ∀ t, Spaced false (f t)) :
    ∀ ts : List Token, Spaced false (ts.flatMap f)
  | [] => trivial
  | t :: ts => spaced_append (f t) (ts.flatMap f) false (hf t) (spaced_flatMap hf ts)

theorem spaced_check_act (k : Token) : Spaced false [.check, .act k] := by
  simp [Spaced]

end Event

theorem Grammar.spaced_walkScript (g : Grammar) : ∀ (levels depth : Nat) (s : String),
    Event.Spaced false (g.walkScript levels depth s)
  | 0, _, _ => Event.spaced_flatMap Event.spaced_check_act _
  | levels + 1, depth, s => by
    refine Event.spaced_flatMap (fun t => ?_) _
    cases t.body? g with
    | some body =>
      have ih := g.spaced_walkScript levels (depth + 1) body
      exact Event.spaced_append _ [.act .exitScale] true (Event.spaced_of_false _ true ih) trivial
    | none => exact Event.spaced_check_act t

theorem Rules.spaced_passScript (rules : Rules) (limit : Option Nat) (next : String → List Event)
    (h : ∀ s, Event.Spaced false (next s)) : ∀ (ts : List Token) (out : String),
    Event.Spaced false (rules.passScript limit next ts out)
  | [], out => h out
  | t :: ts, out => by
    have ih := Event.spaced_of_false _ true
      (rules.spaced_passScript limit next h ts (out ++ rules.image t))
    cases limit with
    | none => exact ih
    | some l =>
      rw [passScript, Event.Spaced]
      split
      · trivial
      · exact ih

theorem Rules.spaced_deriveScript (rules : Rules) (limit : Option Nat) (next : String → List Event)
    (h : ∀ s, Event.Spaced false (next s)) : ∀ (n : Nat) (s : String),
    Event.Spaced false (rules.deriveScript limit next n s)
  | 0, _ => h _
  | n + 1, _ => rules.spaced_passScript limit _ (rules.spaced_deriveScript limit next h n) _ _

theorem Grammar.spaced_script (g : Grammar) (strategy : Strategy) (maxExpansion : Option Nat) :
    Event.Spaced false (g.script strategy maxExpansion) := by
  cases strategy with
  | recursive => exact g.spaced_walkScript _ _ _
  | materialized => exact g.rules.spaced_deriveScript _ _ (g.spaced_walkScript 0 0) _ _

/-- A check stands between any two calls of a trace, and before the first one unless `checked`. -/
def Trace.Spaced : (checked : Bool) → Trace → Prop
  | _, [] => True
  | _, .check :: tr => Spaced true tr
  | checked, .call _ :: tr => checked = true ∧ Spaced false tr

theorem Trace.spaced_of_false : ∀ (tr : Trace) (checked : Bool),
    tr.Spaced false → tr.Spaced checked
  | [], _, _ => trivial
  | .check :: _, _, h => h

theorem Trace.spaced_cut : ∀ (limit : Nat) (tr : Trace) (checked : Bool),
    tr.Spaced checked → (tr.cut limit).Spaced checked
  | _, [], _, _ => trivial
  | 0, .check :: _, _, _ => trivial
  | limit + 1, .check :: tr, _, h => spaced_cut limit tr true h
  | limit, .call _ :: tr, _, h => ⟨h.1, spaced_cut limit tr false h.2⟩

theorem Trace.spaced_within {tr : Trace} : ∀ limit : Option Nat,
    tr.Spaced true → (tr.within limit).Spaced true
  | none, h => h
  | some limit, h => spaced_cut limit tr true h

/-- A scale mark makes no call, and every other token one at most. -/
theorem spaced_marks {σ : Type} [LineSink σ] (g : Grammar) : ∀ (es : List Event) (checked : Bool)
    (t : Turtle σ), Event.Spaced checked es → (marks g es t).Spaced checked
  | [], _, _, _ => trivial
  | .check :: es, _, t, h => spaced_marks g es true t h
  | .act k :: es, checked, t, h => by
    unfold Event.Spaced at h
    by_cases hk : k.isScaleMark
    · have hcall : k.call? g t = none := by cases k <;> first | rfl | cases hk
      rw [if_pos hk] at h
      rw [marks, hcall]
      exact spaced_marks g es checked (k.act g t) h
    · rw [if_neg hk] at h
      have ih := spaced_marks g es false (k.act g t) h.2
      rw [marks]
      cases k.call? g t with
      | some c => exact ⟨h.1, ih⟩
      | none => exact Trace.spaced_of_false _ checked ih
  | .reach _ :: es, checked, t, h => spaced_marks g es checked t h
  | .fail _ :: _, _, _, _ => trivial

/-- **A check stands between any two calls of a rendering.** -/
theorem Grammar.spaced_trace (g : Grammar) (strategy : Strategy) (maxExpansion : Option Nat) :
    (g.trace strategy maxExpansion).Spaced true :=
  ⟨rfl, spaced_marks g _ _ _ (g.spaced_script strategy maxExpansion)⟩

/-! ### The flag -/

/-- A sink that raises a flag right after one of its calls, and never lowers it. -/
structure FlagSink (σ : Type) where
  sink : σ
  /-- How many calls are left up to the one that raises the flag. -/
  countdown : Nat
  flag : Bool

section

variable {σ : Type}

/-- The sink behind one more call, after which the inner sink is `sink`. -/
def FlagSink.next (f : FlagSink σ) (sink : σ) : FlagSink σ where
  sink
  countdown := f.countdown - 1
  flag := f.flag || f.countdown = 1

variable [LineSink σ]

instance : LineSink (FlagSink σ) where
  moveTo f p := f.next (LineSink.moveTo f.sink p)
  lineTo f p := f.next (LineSink.lineTo f.sink p)

/-- Leaves the flag out. -/
def FlagSink.inner : SinkMap (FlagSink σ) σ := ⟨sink, fun _ _ => rfl, fun _ _ => rfl⟩

theorem FlagSink.take_eq_next (f : FlagSink σ) : ∀ c, take f c = f.next (take f.sink c)
  | .moveTo _ | .lineTo _ => rfl

end

namespace Trace

/-- The part of a trace up to its call number `n`. -/
def upToCall : Nat → Trace → Trace
  | 0, _ => []
  | _ + 1, [] => []
  | n + 1, .check :: tr => .check :: upToCall (n + 1) tr
  | n + 1, .call c :: tr => .call c :: upToCall n tr

/-- The part of a trace after its call number `n`. -/
def afterCall : Nat → Trace → Trace
  | 0, tr => tr
  | _ + 1, [] => []
  | n + 1, .check :: tr => afterCall (n + 1) tr
  | n + 1, .call _ :: tr => afterCall n tr

theorem take_calls_of_checks_afterCall : ∀ (n : Nat) (tr : Trace) (checked : Bool),
    tr.Spaced checked → (tr.afterCall (n + 1)).checks = 0 → tr.calls.take (n + 1) = tr.calls
  | _, [], _, _, _ => rfl
  | n, .check :: tr, _, hs, h => take_calls_of_checks_afterCall n tr true hs h
  | 0, .call _ :: [], _, _, _ => rfl
  | 0, .call _ :: .check :: tr, _, _, h => by simp [afterCall, checks] at h
  | 0, .call _ :: .call _ :: _, _, hs, _ => nomatch hs.2.1
  | n + 1, .call c :: tr, _, hs, h =>
    congrArg (c :: ·) (take_calls_of_checks_afterCall n tr false hs.2 h)

end Trace

section

variable {σ : Type}

/-- The error of the check that finds a raised flag when `commands` checks were made before. -/
def RenderConfig.flagError (config : RenderConfig σ) (commands : Nat) : RenderError :=
  if config.maxCommands = some commands then .commandLimitExceeded commands else .cancelled

/-- Where a flag that goes up after `n` more calls stops a rendering with the trace `made` to come,
when `commands` checks were made before. A flag that no check notices leaves `rest`. -/
def RenderConfig.flagStop (config : RenderConfig σ) (commands n : Nat) (made : Trace)
    (rest : Option (RenderError × List PathCommand)) : Option (RenderError × List PathCommand) :=
  if (made.afterCall n).checks = 0 then rest
  else some (config.flagError (commands + (made.upToCall n).checks), made.calls.take n)

theorem RenderConfig.flagStop_check (config : RenderConfig σ) (commands n : Nat) (made : Trace)
    (rest : Option (RenderError × List PathCommand)) :
    config.flagStop (commands + 1) (n + 1) made rest =
      config.flagStop commands (n + 1) (.check :: made) rest := by
  simp only [flagStop, Trace.afterCall, Trace.upToCall, Trace.checks, Trace.calls]
  rw [Nat.add_right_comm, Nat.add_assoc]

theorem RenderConfig.flagStop_call (config : RenderConfig σ) (commands n : Nat) (made : Trace)
    (rest : Option (RenderError × List PathCommand)) (c : PathCommand) :
    (config.flagStop commands n made rest).map (fun (e, calls) => (e, c :: calls)) =
      config.flagStop commands (n + 1) (.call c :: made)
        (rest.map fun (e, calls) => (e, c :: calls)) := by
  simp only [flagStop, Trace.afterCall, Trace.upToCall, Trace.checks, Trace.calls,
    List.take_succ_cons]
  split <;> rfl

variable {config : RenderConfig (FlagSink σ)} (hcancel : config.cancel = some (·.flag))
include hcancel

theorem verdict_of_raised {commands : Nat} (hle : config.overrun commands = none) {f : FlagSink σ}
    (hf : f.flag = true) :
    config.verdict (commands + 1) f = some (config.flagError commands) := by
  unfold RenderConfig.verdict RenderConfig.flagError
  cases hnext : config.overrun (commands + 1) with
  | some e =>
    obtain ⟨hlimit, rfl⟩ := RenderConfig.maxCommands_of_overrun hle hnext
    rw [if_pos hlimit, Option.some_or]
  | none =>
    have hlimit : config.maxCommands ≠ some commands := fun hlimit =>
      Nat.not_succ_le_self commands ((config.overrun_eq_none_iff _).mp hnext commands hlimit)
    rw [if_neg hlimit, Option.none_or, hcancel]
    simp [hf]

variable [LineSink σ]

/-- With the flag up, a rendering ends at the next check and makes no call before it. -/
theorem stop?_of_raised {commands : Nat} (hle : config.overrun commands = none) {f : FlagSink σ}
    (hf : f.flag = true) : ∀ tr : Trace, tr.Spaced false →
      config.stop? commands f tr =
        config.flagStop commands 0 (tr.within (config.room commands))
          ({ config with cancel := none }.stop? commands f tr)
  | [], _ => by cases config.room commands <;> rfl
  | .check :: tr, _ => by
    have hchecks (limit : Option Nat) : (Trace.within limit (.check :: tr)).checks ≠ 0 := by
      rcases limit with _ | _ | n <;> simp [Trace.within, Trace.cut, Trace.checks]
    rw [RenderConfig.stop?, verdict_of_raised hcancel hle hf, RenderConfig.flagStop,
      Trace.afterCall, if_neg (hchecks _), Trace.upToCall, List.take_zero]
    rfl

/-- With the flag down, a rendering goes on as without it up to the call that raises the flag,
and ends at the next check after that call. -/
theorem stop?_of_not_raised : ∀ (tr : Trace) (checked : Bool) (commands n : Nat) (f : FlagSink σ),
    tr.Spaced checked → config.overrun commands = none → f.flag = false → f.countdown = n + 1 →
      config.stop? commands f tr =
        config.flagStop commands (n + 1) (tr.within (config.room commands))
          ({ config with cancel := none }.stop? commands f tr)
  | [], _, commands, _, _, _, _, _, _ => by cases config.room commands <;> rfl
  | .check :: tr, _, commands, n, f, htr, hle, hf, hn => by
    have ih := stop?_of_not_raised tr true (commands + 1) n f htr
    have hverdict : config.verdict (commands + 1) f = config.overrun (commands + 1) := by
      simp [RenderConfig.verdict, hcancel, hf]
    have hverdict' : ({ config with cancel := none } : RenderConfig (FlagSink σ)).verdict
        (commands + 1) f = config.overrun (commands + 1) := verdict_of_cancel_eq_none _ rfl _ _
    rw [RenderConfig.stop?, RenderConfig.stop?, hverdict, hverdict']
    cases hnext : config.overrun (commands + 1) with
    | some e =>
      rw [RenderConfig.within_check_of_overrun hle hnext]
      rfl
    | none =>
      rw [RenderConfig.within_check_of_allowed hnext, ← RenderConfig.flagStop_check]
      exact ih hnext hf hn
  | .call c :: tr, _, commands, 0, f, htr, hle, hf, hn => by
    have hf' : (take f c).flag = true := by simp [FlagSink.take_eq_next, FlagSink.next, hn]
    rw [RenderConfig.stop?, RenderConfig.stop?, Trace.within_call,
      stop?_of_raised hcancel hle hf' tr htr.2, RenderConfig.flagStop_call]
  | .call c :: tr, _, commands, n + 1, f, htr, hle, hf, hn => by
    have hf' : (take f c).flag = false := by simp [FlagSink.take_eq_next, FlagSink.next, hn, hf]
    have hn' : (take f c).countdown = n + 1 := by simp [FlagSink.take_eq_next, FlagSink.next, hn]
    rw [RenderConfig.stop?, RenderConfig.stop?, Trace.within_call,
      stop?_of_not_raised tr false commands n (take f c) htr.2 hle hf' hn',
      RenderConfig.flagStop_call]

omit hcancel

theorem deriveScript_of_scan_eq_nil (g : Grammar) (limit : Option Nat) : ∀ (n : Nat) (s : String),
    Token.scan s = [] → g.rules.deriveScript limit (g.walkScript 0 0) n s = [.reach 0]
  | 0, s, h => by rw [Rules.deriveScript, Grammar.walkScript, h, List.flatMap_nil]
  | n + 1, s, h => by
    rw [Rules.deriveScript, h, Rules.passScript]
    exact deriveScript_of_scan_eq_nil g limit n "" rfl

theorem script_of_scan_eq_nil {g : Grammar} (h : Token.scan g.start = []) (strategy : Strategy)
    (maxExpansion : Option Nat) : g.script strategy maxExpansion = [.reach 0] := by
  cases strategy with
  | recursive =>
    rw [Grammar.script]
    cases g.evaluationDepth.toNat <;> rw [Grammar.walkScript, h, List.flatMap_nil]
  | materialized => exact deriveScript_of_scan_eq_nil g maxExpansion _ _ h

/-- Where the trace of a grammar is stopped by a flag. A flag that is up from the start is seen
no sooner than one that the move to the origin raises. -/
theorem stop?_trace (hcancel : config.cancel = some (·.flag)) (g : Grammar) (f : FlagSink σ)
    (hf : 0 < f.countdown) :
    config.stop? 0 f (g.trace config.strategy config.maxExpansion) =
      config.flagStop 0 (if f.flag then 1 else f.countdown)
        ((g.trace config.strategy config.maxExpansion).within config.maxCommands)
        (({ config with cancel := none } : RenderConfig (FlagSink σ)).stop? 0 f
          (g.trace config.strategy config.maxExpansion)) := by
  have hspaced := g.spaced_trace config.strategy config.maxExpansion
  have hle := config.overrun_zero
  cases hflag : f.flag with
  | false =>
    have h := stop?_of_not_raised hcancel _ true 0 (f.countdown - 1) f hspaced hle hflag (by omega)
    rwa [config.room_zero, Nat.sub_add_cancel hf] at h
  | true =>
    have hflag' : (take f (.moveTo .origin)).flag = true := by
      simp [FlagSink.take_eq_next, FlagSink.next, hflag]
    have h := stop?_of_raised hcancel hle hflag' _ hspaced.2
    rw [config.room_zero] at h
    simp only [Grammar.trace, RenderConfig.stop?, Trace.within_call, if_true] at h ⊢
    rw [h, RenderConfig.flagStop_call]

/-- With the flag, a rendering is the one without it, or ends at the check after the call that
raises the flag. -/
theorem render_of_flag (hcancel : config.cancel = some (·.flag)) (g : Grammar) (f : FlagSink σ)
    (hf : 0 < f.countdown) :
    config.render g f =
      let trace := (g.trace config.strategy config.maxExpansion).within config.maxCommands
      let n := if f.flag then 1 else f.countdown
      if (trace.afterCall n).checks = 0 then
        ({ config with cancel := none } : RenderConfig (FlagSink σ)).render g f
      else (.error (config.flagError (trace.upToCall n).checks),
        takeAll f (trace.calls.take n)) := by
  have hunflagged := render_eq_stop ({ config with cancel := none } : RenderConfig (FlagSink σ)) g f
  rw [render_eq_stop, stop?_trace hcancel g f hf, RenderConfig.flagStop, Nat.zero_add, hunflagged]
  generalize (if f.flag = true then 1 else f.countdown) = n
  by_cases h : (((g.trace config.strategy config.maxExpansion).within
      config.maxCommands).afterCall n).checks = 0
  · simp only [if_pos h]
    rfl
  · simp only [if_neg h]
    rfl

/-- **A flag stops a rendering promptly.** A flag goes up right after call number `f.countdown`,
or is up from the start, which comes to the same as going up after the first call. Let `trace`
be what the rendering without a flag does. The sink holds the calls of it up to that number.
The outcome is that of the rendering without a flag when no check follows that call; otherwise
the next check fails, by the limit if it is the one that passes the limit and by the flag if it
is not. Without any token, there is no check. -/
theorem render_cancel (strategy : Strategy) (maxCommands maxExpansion : Option Nat) (g : Grammar)
    (f : FlagSink σ) (hf : 0 < f.countdown) :
    let trace := (g.trace strategy maxExpansion).within maxCommands
    let flagless : RenderConfig σ := { strategy, maxCommands, maxExpansion }
    let flagged : RenderConfig (FlagSink σ) :=
      { strategy, maxCommands, maxExpansion, cancel := some (·.flag) }
    let n := if f.flag then 1 else f.countdown
    trace.checks = (flagless.final g f.sink).commands ∧
      (flagless.render g f.sink).2 = takeAll f.sink trace.calls ∧
      (flagged.render g f).2.sink = takeAll f.sink (trace.calls.take n) ∧
      (flagged.render g f).1 =
        (if (trace.afterCall n).checks = 0 then (flagless.render g f.sink).1
        else if maxCommands = some (trace.upToCall n).checks then
          .error (.commandLimitExceeded (trace.upToCall n).checks)
        else .error .cancelled) ∧
      (Token.scan g.start = [] → ∃ stats, (flagged.render g f).1 = .ok stats) := by
  intro trace flagless flagged n
  have hsink : (flagless.render g f.sink).2 = takeAll f.sink trace.calls :=
    sink_render_of_cancel_eq_none flagless rfl g f.sink
  -- the rendering without a flag, into the sink that would raise it
  let lowered : RenderConfig (FlagSink σ) := { strategy, maxCommands, maxExpansion }
  have hlowered : flagless.render g f.sink =
      ((lowered.render g f).1, (lowered.render g f).2.sink) :=
    render_map FlagSink.inner flagless g f
  have hflagged : flagged.render g f =
      if (trace.afterCall n).checks = 0 then lowered.render g f
      else (.error (flagged.flagError (trace.upToCall n).checks),
        takeAll f (trace.calls.take n)) := render_of_flag rfl g f hf
  have hspaced : trace.Spaced true := Trace.spaced_within _ (g.spaced_trace strategy maxExpansion)
  have hn : n - 1 + 1 = n := by
    simp only [n]
    split <;> omega
  refine ⟨(commands_final_of_cancel_eq_none flagless rfl g f.sink).symm, hsink, ?_, ?_, fun h => ?_⟩
  · rw [hflagged]
    split
    · next h =>
      have hall : trace.calls.take n = trace.calls := by
        rw [← hn] at h ⊢
        exact Trace.take_calls_of_checks_afterCall (n - 1) trace true hspaced h
      rw [hall, ← hsink, hlowered]
    · exact FlagSink.inner.map_takeAll _ f
  · rw [hflagged, hlowered, RenderConfig.flagError]
    split
    · rfl
    · split <;> rfl
  · rw [render_eq_outcome, script_of_scan_eq_nil h]
    exact ⟨_, rfl⟩

/-- The second call of four raises the flag, and the check after it sees it. -/
theorem render_cancel_second :
    0 < (⟨#[], 2, false⟩ : FlagSink (Array PathCommand)).countdown ∧
    (({ cancel := some (·.flag) } : RenderConfig (FlagSink (Array PathCommand))).render
      (.ofStart "FFF") ⟨#[], 2, false⟩).1 = .error .cancelled := by
  have h := (render_cancel .recursive none none (.ofStart "FFF")
    (⟨#[], 2, false⟩ : FlagSink (Array PathCommand)) (by decide)).2.2.2.1
  rw [if_neg (by decide), if_neg nofun] at h
  exact ⟨by decide, h⟩

end
end LSystem
