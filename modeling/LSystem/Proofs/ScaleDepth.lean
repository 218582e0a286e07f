/-
# The scale depth in a machine word

The scale depth is one more behind every body that is opened and every `<`, and one less behind
every body that is left and every `>`. So at any moment of a walk it is the number of open bodies,
plus the number of `<` dispatched so far, less that of the `>` (`Moment.Scaled`). Each of these has
been counted as a command of its own, a body with the symbol that it replaces. So the scale depth,
or its negation, is at most the number of commands.

A machine word of 32 bits therefore holds the scale depth as long as fewer than `2 ^ 31` commands
are counted. `Moment.InWord` follows a walk that keeps it in such a word and is stuck where the word
would overflow; this walk comes to every moment of the other one (`Moment.Reached.inWord`). A
rendering that expands first walks with no body open, from a turtle that the expansion has not
touched (`RenderConfig.outset?`), so the same holds of it (`render_scaleDepth`).

Key definitions: `Moment.Scaled`, `word?`, `Moment.scaleChange`, `Moment.InWord`, `Outset`,
`RenderConfig.outset?`.
Key theorems: `Moment.Scaled.step`, `Moment.Scaled.natAbs_le`, `Moment.Reached.inWord`,
`walkGrammar_of_outset?`, `render_scaleDepth`.
-/
import LSystem.Proofs.Calls
import LSystem.Proofs.OpenBodies
import LSystem.Proofs.ScanOrder

namespace LSystem

/-! ### Scale marks -/

/-- How much deeper the scale is behind a token. -/
def Token.scaleChange : Token → Int
  | enterScale => 1
  | exitScale => -1
  | symbol _ | turn _ _ | push | pop | forcedDraw => 0

theorem Token.scaleChange_eq_count (t : Token) :
    t.scaleChange = [t].count .enterScale - [t].count .exitScale := by
  cases t <;> simp [scaleChange]

theorem Token.count_marks_le (t : Token) :
    [t].count .enterScale + [t].count .exitScale ≤ 1 := by
  cases t <;> simp

theorem Token.count_marks_of_bodyAt? {g : Grammar} {levels depth : Nat} {t : Token} {body : String}
    (h : g.bodyAt? levels depth t = some body) :
    [t].count .enterScale = 0 ∧ [t].count .exitScale = 0 := by
  unfold Grammar.bodyAt? at h
  split at h
  · cases t with
    | symbol c => simp
    | _ => cases h
  · cases h

theorem Token.scaleDepth_act {σ : Type} [LineSink σ] (g : Grammar) (t : Turtle σ) (k : Token) :
    (k.act g t).scaleDepth = t.scaleDepth + k.scaleChange := by
  rw [(k.act_frame g t).2.1]
  cases k <;> simp [scaleChange, Int.sub_eq_add_neg]

/-! ### The scale depth at a moment -/

section

variable {σ : Type} {config : RenderConfig σ} {g : Grammar} {levels : Nat}
  {start : String} {s₀ : RenderState σ}

namespace Moment

/-- What holds at the moments of a walk that begins in `s₀`, at a scale depth of zero. -/
structure Scaled (config : RenderConfig σ) (s₀ : RenderState σ) (m : Moment σ) : Prop where
  depth : m.state.turtle.scaleDepth =
    m.outer.length + m.dispatched.count .enterScale - m.dispatched.count .exitScale
  commands : m.state.commands = s₀.commands + m.dispatched.length
  /-- The symbols of the open bodies and the scale marks are different commands. -/
  opened : m.outer.length + m.dispatched.count .enterScale + m.dispatched.count .exitScale ≤
    m.dispatched.length
  /-- Every check so far has found its command within the limit. -/
  allowed : config.overrun m.state.commands = none

theorem scaled_start (hdepth : s₀.turtle.scaleDepth = 0)
    (hallowed : config.overrun s₀.commands = none) :
    Scaled config s₀ ⟨Token.scan start, [], [], s₀⟩ where
  depth := hdepth
  commands := rfl
  opened := Nat.le_refl 0
  allowed := hallowed

theorem Scaled.natAbs_le {m : Moment σ} (hm : m.Scaled config s₀) :
    m.state.turtle.scaleDepth.natAbs ≤ m.state.commands := by
  obtain ⟨hdepth, hcommands, hopened, -⟩ := hm
  omega

variable [LineSink σ]

/-- **A step keeps the scale depth in line with bodies and marks.** -/
theorem Scaled.step {m m' : Moment σ} (hm : m.Scaled config s₀)
    (h : Step config g levels m m') : m'.Scaled config s₀ := by
  obtain ⟨hdepth, hcommands, hopened, hallowed⟩ := hm
  cases h with
  | @act t ts outer done s s' hcheck hbody =>
    obtain ⟨rfl, hnext⟩ := allowed_of_check_eq_ok hcheck
    have hchange := t.scaleChange_eq_count
    have hmarks := t.count_marks_le
    simp only at hdepth hcommands hopened
    refine ⟨?_, ?_, ?_, hnext⟩
    · simp only [Token.scaleDepth_act, List.count_append]
      omega
    · simp only [List.length_append, List.length_singleton]
      omega
    · simp only [List.length_append, List.length_singleton, List.count_append]
      omega
  | @enter t ts outer done s s' body hcheck hbody =>
    obtain ⟨rfl, hnext⟩ := allowed_of_check_eq_ok hcheck
    -- the token is no mark, so it pays for the body that it opens
    obtain ⟨henter, hexit⟩ := Token.count_marks_of_bodyAt? hbody
    simp only at hdepth hcommands hopened
    refine ⟨?_, ?_, ?_, hnext⟩
    · simp only [Turtle.enterScale, List.length_cons, List.count_append]
      omega
    · simp only [List.length_append, List.length_singleton]
      omega
    · simp only [List.length_cons, List.length_append, List.count_append]
      omega
  | @leave ts outer done s =>
    simp only [List.length_cons] at hdepth hopened
    refine ⟨?_, hcommands, ?_, hallowed⟩
    · simp only [Turtle.exitScale]
      omega
    · simp only
      omega

/-! ### The scale depth in a machine word -/

/-- How much deeper the scale is behind a step: a body that is left makes it less by one, one that
is opened more by one, and otherwise it depends on the token. -/
def scaleChange (m m' : Moment σ) : Int :=
  match m.rest with
  | [] => -1
  | t :: _ => if m.outer.length < m'.outer.length then 1 else t.scaleChange

theorem Step.scaleDepth_eq {m m' : Moment σ} (h : Step config g levels m m') :
    m'.state.turtle.scaleDepth = m.state.turtle.scaleDepth + m.scaleChange m' := by
  cases h with
  | @act t ts outer done s s' hcheck hbody =>
    obtain ⟨rfl, -⟩ := allowed_of_check_eq_ok hcheck
    simp [scaleChange, Token.scaleDepth_act]
  | @enter t ts outer done s s' body hcheck hbody =>
    obtain ⟨rfl, -⟩ := allowed_of_check_eq_ok hcheck
    simp [scaleChange, Turtle.enterScale]
  | @leave ts outer done s => rfl

end Moment

/-- The machine word that holds a number, if there is one. -/
def word? (x : Int) : Option Int32 :=
  if (Int32.ofInt x).toInt = x then some (.ofInt x) else none

theorem word?_of_natAbs_lt {x : Int} (h : x.natAbs < 2147483648) :
    ∃ w, word? x = some w ∧ w.toInt = x := by
  have hword : (Int32.ofInt x).toInt = x := Int32.toInt_ofInt_of_le (by omega) (by omega)
  exact ⟨.ofInt x, if_pos hword, hword⟩

namespace Moment

variable [LineSink σ]

variable (config g levels start s₀) in
/-- A walk that keeps the scale depth in a machine word comes to a moment, with this word. Where the
word would overflow, the walk goes no further. -/
inductive InWord : Moment σ → Int32 → Prop where
  | start : InWord ⟨Token.scan start, [], [], s₀⟩ 0
  | step {m m' : Moment σ} {w w' : Int32} : InWord m w → Step config g levels m m' →
      word? (w.toInt + m.scaleChange m') = some w' → InWord m' w'

theorem Reached.scaled (hdepth : s₀.turtle.scaleDepth = 0)
    (hallowed : config.overrun s₀.commands = none) {m : Moment σ}
    (h : Reached config g levels start s₀ m) : m.Scaled config s₀ := by
  induction h with
  | start => exact scaled_start hdepth hallowed
  | step _ hstep ih => exact ih.step hstep

theorem Step.commands_le {m m' : Moment σ} (h : Step config g levels m m') :
    m.state.commands ≤ m'.state.commands := by
  cases h with
  | @act t ts outer done s s' hcheck hbody =>
    obtain ⟨rfl, -⟩ := allowed_of_check_eq_ok hcheck
    exact Nat.le_succ _
  | @enter t ts outer done s s' body hcheck hbody =>
    obtain ⟨rfl, -⟩ := allowed_of_check_eq_ok hcheck
    exact Nat.le_succ _
  | leave => exact Nat.le_refl _

/-- **No scale depth overflows** while fewer than `2 ^ 31` commands are counted. -/
theorem Reached.inWord (hdepth : s₀.turtle.scaleDepth = 0)
    (hallowed : config.overrun s₀.commands = none) {m : Moment σ}
    (h : Reached config g levels start s₀ m) (hfew : m.state.commands < 2147483648) :
    ∃ w, InWord config g levels start s₀ m w ∧ w.toInt = m.state.turtle.scaleDepth := by
  induction h with
  | start => exact ⟨0, .start, hdepth.symm⟩
  | @step m m' hreached hstep ih =>
    obtain ⟨w, hword, hw⟩ := ih (Nat.lt_of_le_of_lt hstep.commands_le hfew)
    have hsmall := (hreached.step hstep).scaled hdepth hallowed |>.natAbs_le
    obtain ⟨w', hw', hvalue⟩ := word?_of_natAbs_lt (Nat.lt_of_le_of_lt hsmall hfew)
    refine ⟨w', hword.step hstep ?_, hvalue⟩
    rw [hw, ← hstep.scaleDepth_eq, hw']

theorem Reached.outer_eq_nil {m : Moment σ} (h : Reached config g 0 start s₀ m) :
    m.outer = [] := by
  induction h with
  | start => rfl
  | @step m m' _ hstep ih =>
    cases hstep with
    | act => exact ih
    | enter _ hbody => exact absurd (lt_of_bodyAt?_eq_some hbody) (Nat.not_lt_zero _)
    | leave => cases ih

end Moment

/-! ### Where a rendering begins to walk -/

variable [LineSink σ]

/-- Where a walk begins, and how many rule bodies it may open. -/
structure Outset (σ : Type) where
  levels : Nat
  start : String
  state : RenderState σ

/-- A rendering walks the start of its grammar, or what the rules make of it, if the expansion
succeeds. -/
def RenderConfig.outset? (config : RenderConfig σ) (g : Grammar) (sink : σ) : Option (Outset σ) :=
  match config.strategy with
  | .recursive => some ⟨g.evaluationDepth.toNat, g.start, .initial g sink⟩
  | .materialized =>
    match g.rules.deriveGuarded config.maxExpansion config.check g.evaluationDepth.toNat g.start
      (.initial g sink) with
    | .ok flat s => some ⟨0, flat, s⟩
    | .error _ _ => none

/-- The polls of an expansion count commands and leave the turtle alone. -/
theorem deriveGuarded_check_keeps (config : RenderConfig σ) (g : Grammar) (sink : σ) (n : Nat) :
    (∀ flat s, g.rules.deriveGuarded config.maxExpansion config.check n g.start
        (.initial g sink) = .ok flat s →
      s.turtle = (RenderState.initial g sink).turtle ∧ config.overrun s.commands = none) ∧
    ∀ e s, g.rules.deriveGuarded config.maxExpansion config.check n g.start
        (.initial g sink) = .error e s →
      s.turtle = (RenderState.initial g sink).turtle := by
  refine g.rules.deriveGuarded_keeps n g.start
    (P := fun s : RenderState σ => s.turtle = (RenderState.initial g sink).turtle ∧
      config.overrun s.commands = none)
    (Q := fun s : RenderState σ => s.turtle = (RenderState.initial g sink).turtle)
    ?_ ?_ (fun _ hs => hs.1) ⟨rfl, config.overrun_zero⟩
  · intro s s' hs hcheck
    obtain ⟨rfl, hnext⟩ := Moment.allowed_of_check_eq_ok hcheck
    exact ⟨hs.1, hnext⟩
  · intro s s' e hs hcheck
    obtain ⟨-, rfl⟩ := (config.check_eq_error_iff s s' e).mp hcheck
    exact hs.1

/-- A rendering that comes to its walk makes it, from a turtle that nothing has touched. -/
theorem walkGrammar_of_outset? {config : RenderConfig σ} {g : Grammar} {sink : σ} {o : Outset σ}
    (h : config.outset? g sink = some o) :
    walkGrammar config g (.initial g sink) = walk config g o.levels 0 o.start o.state ∧
      o.state.turtle = (RenderState.initial g sink).turtle ∧
      config.overrun o.state.commands = none ∧
      (config.strategy = .materialized → o.levels = 0) := by
  unfold RenderConfig.outset? at h
  unfold walkGrammar
  cases hstrategy : config.strategy with
  | recursive =>
    rw [hstrategy] at h
    obtain rfl := Option.some.inj h
    exact ⟨rfl, rfl, config.overrun_zero, nofun⟩
  | materialized =>
    simp only [hstrategy, bind_apply] at h ⊢
    cases hrun : g.rules.deriveGuarded config.maxExpansion config.check g.evaluationDepth.toNat
      g.start (.initial g sink) with
    | ok flat s =>
      rw [hrun] at h
      obtain rfl := Option.some.inj h
      obtain ⟨hturtle, hallowed⟩ := (deriveGuarded_check_keeps config g sink _).1 flat s hrun
      exact ⟨rfl, hturtle, hallowed, fun _ => rfl⟩
    | error e s =>
      rw [hrun] at h
      cases h

/-- Any other rendering ends in its expansion, with a turtle that nothing has touched. -/
theorem walkGrammar_of_outset?_eq_none {config : RenderConfig σ} {g : Grammar} {sink : σ}
    (h : config.outset? g sink = none) :
    ∃ e s, walkGrammar config g (.initial g sink) = .error e s ∧
      s.turtle = (RenderState.initial g sink).turtle := by
  unfold RenderConfig.outset? at h
  unfold walkGrammar
  cases hstrategy : config.strategy with
  | recursive =>
    rw [hstrategy] at h
    cases h
  | materialized =>
    simp only [hstrategy, bind_apply] at h ⊢
    cases hrun : g.rules.deriveGuarded config.maxExpansion config.check g.evaluationDepth.toNat
      g.start (.initial g sink) with
    | ok flat s =>
      rw [hrun] at h
      cases h
    | error e s => exact ⟨e, s, rfl, (deriveGuarded_check_keeps config g sink _).2 e s hrun⟩

/-- **The scale depth is the open bodies and the scale marks, and fits in a machine word.** A
rendering walks from moment to moment, unless it ends in its expansion, with the turtle untouched.
At each moment of the walk the scale depth is the number of open bodies, of which there are none
behind an expansion, plus the number of `<` dispatched so far, less that of the `>`. Its
absolute value is at most the number of commands. With fewer than `2 ^ 31` commands counted, or
with a limit below `2 ^ 31` on them, a walk that keeps it in a word of 32 bits comes to the same
moment. -/
theorem render_scaleDepth (config : RenderConfig σ) (g : Grammar) (sink : σ) :
    (∀ o, config.outset? g sink = some o →
      Moment.EndReached config g o.levels o.start o.state []
        (walkGrammar config g (.initial g sink)) ∧
      ∀ m, Moment.Reached config g o.levels o.start o.state m →
        (config.strategy = .materialized → m.outer = []) ∧
        m.state.turtle.scaleDepth =
          m.outer.length + m.dispatched.count .enterScale - m.dispatched.count .exitScale ∧
        m.state.turtle.scaleDepth.natAbs ≤ m.state.commands ∧
        ((m.state.commands < 2147483648 ∨
            ∃ limit, config.maxCommands = some limit ∧ limit < 2147483648) →
          ∃ w, Moment.InWord config g o.levels o.start o.state m w ∧
            w.toInt = m.state.turtle.scaleDepth)) ∧
    (config.outset? g sink = none →
      ∃ e s, walkGrammar config g (.initial g sink) = .error e s ∧
        s.turtle.scaleDepth = 0) := by
  constructor
  · intro o ho
    obtain ⟨hwalk, hturtle, hallowed, hlevels⟩ := walkGrammar_of_outset? ho
    have hdepth : o.state.turtle.scaleDepth = 0 := by
      rw [hturtle]
      rfl
    refine ⟨?_, fun m hm => ?_⟩
    · rw [hwalk]
      exact walk_reached config g o.levels o.start o.state
    · have hscaled := hm.scaled hdepth hallowed
      refine ⟨fun hstrategy => ?_, hscaled.depth, hscaled.natAbs_le, fun hbound => ?_⟩
      · rw [hlevels hstrategy] at hm
        exact hm.outer_eq_nil
      · have hfew : m.state.commands < 2147483648 := by
          rcases hbound with hfew | ⟨limit, hlimit, hsmall⟩
          · exact hfew
          · have hle := (config.overrun_eq_none_iff _).mp hscaled.allowed limit hlimit
            omega
        exact hm.inWord hdepth hallowed hfew
  · intro ho
    obtain ⟨e, s, hrun, hturtle⟩ := walkGrammar_of_outset?_eq_none ho
    refine ⟨e, s, hrun, ?_⟩
    rw [hturtle]
    rfl

end

/-- A mark and a body, with the greatest limit that leaves room in the word. -/
theorem render_scaleDepth_mark :
    let config : RenderConfig (Array PathCommand) := { maxCommands := some 2147483647 }
    let g := ((Grammar.ofStart "<A").withRule 'A' "A").withEvaluationDepth 4294967295
    let s := RenderState.initial g (#[] : Array PathCommand)
    let m : Moment (Array PathCommand) :=
      { rest := [.symbol 'A']
        outer := [[]]
        dispatched := [.enterScale, .symbol 'A']
        state := { turtle := s.turtle.enterScale.enterScale, commands := 2, maxRecursion := 1 } }
    Moment.Reached config g 4294967295 g.start s m ∧
      ∃ w, Moment.InWord config g 4294967295 g.start s m w ∧ w.toInt = 2 := by
  intro config g s m
  have hstart : Token.scan "<A" = [.enterScale, .symbol 'A'] := by decide
  have hscan : Token.scan "A" = [.symbol 'A'] := by decide
  have hmark : g.bodyAt? 4294967295 0 .enterScale = none := by decide
  have hbody : g.bodyAt? 4294967295 0 (.symbol 'A') = some "A" := by decide
  have hreached : Moment.Reached config g 4294967295 g.start s ⟨Token.scan "<A", [], [], s⟩ :=
    .start
  rw [hstart] at hreached
  have hcheck : config.check s = .ok () { s with commands := 1 } := rfl
  have hopened := (hreached.step (.act hcheck hmark)).step (.enter rfl hbody)
  rw [hscan] at hopened
  have hm : Moment.Reached config g 4294967295 g.start s m := hopened
  obtain ⟨-, hmoments⟩ := (render_scaleDepth config g #[]).1 ⟨4294967295, g.start, s⟩ rfl
  exact ⟨hm, (hmoments m hm).2.2.2 (.inr ⟨2147483647, rfl, by decide⟩)⟩

end LSystem
