/-
# The script of a rendering

What a rendering does, apart from where a limit or the host stops it, is fixed by the rules,
the start and the strategy: check, let the turtle act on a token, note how many rule bodies
are open. Its script lists these events in order, those of an expansion included, and
`walkGrammar_eq_perform` says that rendering is performing the script. A configuration only
decides which check fails.

Key definitions: `Event`, `RenderConfig.verdict`, `perform`, `Grammar.walkScript`,
`Rules.deriveScript`, `Grammar.script`.
Key theorems: `bind_apply`, `RenderConfig.check_eq_verdict`, `perform_check`, `perform_append`,
`walk_eq_perform`, `walkGrammar_eq_perform`.
-/
import LSystem.Render

namespace LSystem

/-- One thing a rendering does. -/
inductive Event where
  /-- Counts a command and looks at the limit and at the host's wish to stop. -/
  | check
  /-- Lets the turtle act on a token. -/
  | act (token : Token)
  /-- Notes that `depth` rule bodies are open. -/
  | reach (depth : Nat)
  /-- Ends with an error that no check has met. -/
  | fail (error : RenderError)
  deriving DecidableEq

/-! ### Steps behind steps -/

section

variable {π α β : Type}

/-- A step behind another one goes on where that one ends, if it succeeds. -/
theorem bind_apply (x : EStateM RenderError π α) (f : α → EStateM RenderError π β) (p : π) :
    (x >>= f) p =
      match x p with
      | .ok a q => f a q
      | .error e q => .error e q := by
  show EStateM.bind x f p = _
  unfold EStateM.bind
  cases x p <;> rfl

theorem ok_of_bind_ok {x : EStateM RenderError π α} {f : α → EStateM RenderError π β} {p q : π}
    {b : β} (h : (x >>= f) p = .ok b q) : ∃ a r, x p = .ok a r ∧ f a r = .ok b q := by
  rw [bind_apply] at h
  cases hx : x p with
  | ok a r =>
    rw [hx] at h
    exact ⟨a, r, rfl, h⟩
  | error e r =>
    rw [hx] at h
    cases h

end

/-! ### Checks -/

section

variable {σ : Type}

/-- The error of check number `commands`, if that is one too many. -/
def RenderConfig.overrun (config : RenderConfig σ) (commands : Nat) : Option RenderError :=
  config.maxCommands.bind fun limit =>
    if limit < commands then some (.commandLimitExceeded limit) else none

/-- The error that check number `commands` ends with when it finds the sink `sink`; a check that
is one too many does not look at the flag. -/
def RenderConfig.verdict (config : RenderConfig σ) (commands : Nat) (sink : σ) :
    Option RenderError :=
  (config.overrun commands).or (if config.cancel.any (· sink) then some .cancelled else none)

theorem RenderConfig.check_of_overrun {config : RenderConfig σ} {s : RenderState σ}
    {e : RenderError} (h : config.overrun (s.commands + 1) = some e) :
    config.check s = .error e { s with commands := s.commands + 1 } := by
  obtain ⟨strategy, maxCommands, maxExpansion, cancel⟩ := config
  obtain ⟨limit, rfl, hlimit⟩ := Option.bind_eq_some_iff.mp h
  obtain ⟨hlt, he⟩ := Option.ite_none_right_eq_some.mp hlimit
  obtain rfl := Option.some.inj he
  change (if limit < s.commands + 1 then _ else _ : RenderM σ Unit) _ = _
  rw [if_pos hlt]
  rfl

theorem RenderConfig.check_of_overrun_eq_none {config : RenderConfig σ} {s : RenderState σ}
    (h : config.overrun (s.commands + 1) = none) :
    config.check s = ({ config with maxCommands := none } : RenderConfig σ).check s := by
  obtain ⟨strategy, maxCommands, maxExpansion, cancel⟩ := config
  cases maxCommands with
  | none => rfl
  | some limit =>
    have hle : ¬ limit < s.commands + 1 := by
      intro hlt
      have hfails : (if limit < s.commands + 1 then some (RenderError.commandLimitExceeded limit)
        else none) = none := h
      rw [if_pos hlt] at hfails
      cases hfails
    change (if limit < s.commands + 1 then _ else _ : RenderM σ Unit) _ = _
    rw [if_neg hle]
    rfl

/-- A check counts a command, and fails by its verdict. -/
theorem RenderConfig.check_eq_verdict (config : RenderConfig σ) (s : RenderState σ) :
    config.check s =
      match config.verdict (s.commands + 1) s.turtle.sink.sink with
      | some e => .error e { s with commands := s.commands + 1 }
      | none => .ok () { s with commands := s.commands + 1 } := by
  cases h : config.overrun (s.commands + 1) with
  | some e => rw [check_of_overrun h, verdict, h, Option.some_or]
  | none =>
    rw [check_of_overrun_eq_none h, verdict, h, Option.none_or]
    obtain ⟨strategy, maxCommands, maxExpansion, cancel⟩ := config
    cases cancel with
    | none => rfl
    | some wantsStop =>
      have hflag : ({ strategy, maxExpansion, cancel := some wantsStop } : RenderConfig σ).check s =
          (if wantsStop s.turtle.sink.sink then throw .cancelled else pure () : RenderM σ Unit)
            { s with commands := s.commands + 1 } := rfl
      rw [hflag, Option.any_some]
      cases wantsStop s.turtle.sink.sink <;> rfl

theorem RenderConfig.check_eq_ok_iff (config : RenderConfig σ) (s s' : RenderState σ) :
    config.check s = .ok () s' ↔
      config.verdict (s.commands + 1) s.turtle.sink.sink = none ∧
        s' = { s with commands := s.commands + 1 } := by
  rw [check_eq_verdict]
  cases config.verdict (s.commands + 1) s.turtle.sink.sink with
  | some e => simp
  | none => simp [eq_comm]

theorem RenderConfig.check_eq_error_iff (config : RenderConfig σ) (s s' : RenderState σ)
    (e : RenderError) :
    config.check s = .error e s' ↔
      config.verdict (s.commands + 1) s.turtle.sink.sink = some e ∧
        s' = { s with commands := s.commands + 1 } := by
  rw [check_eq_verdict]
  cases config.verdict (s.commands + 1) s.turtle.sink.sink with
  | some e' => simp [eq_comm]
  | none => simp

variable [LineSink σ]

/-! ### Performing events -/

/-- What an event does to a rendering. -/
def Event.perform (config : RenderConfig σ) (g : Grammar) : Event → RenderM σ Unit
  | check => config.check
  | act t => drive (t.act g ·)
  | reach depth => LSystem.reach depth
  | fail e => throw e

/-- Performs events in order, up to the first one that fails. -/
def perform (config : RenderConfig σ) (g : Grammar) : List Event → RenderM σ Unit
  | [] => pure ()
  | e :: es => do
    e.perform config g
    perform config g es

theorem perform_append (config : RenderConfig σ) (g : Grammar) : ∀ es fs : List Event,
    perform config g (es ++ fs) = (do perform config g es; perform config g fs)
  | [], _ => by simp [perform]
  | e :: es, fs => by simp [perform, perform_append config g es fs]

theorem perform_check (config : RenderConfig σ) (g : Grammar) (es : List Event)
    (s : RenderState σ) :
    perform config g (.check :: es) s =
      match config.verdict (s.commands + 1) s.turtle.sink.sink with
      | some e => .error e { s with commands := s.commands + 1 }
      | none => perform config g es { s with commands := s.commands + 1 } := by
  simp only [perform, Event.perform, bind, EStateM.bind, RenderConfig.check_eq_verdict]
  cases config.verdict (s.commands + 1) s.turtle.sink.sink <;> rfl

theorem perform_act (config : RenderConfig σ) (g : Grammar) (k : Token) (es : List Event)
    (s : RenderState σ) :
    perform config g (.act k :: es) s = perform config g es { s with turtle := k.act g s.turtle } :=
  rfl

end

/-! ### The events of a walk -/

/-- The events of a walk of `s` with `depth` rule bodies open, of which `levels` more may be
opened. -/
def Grammar.walkScript (g : Grammar) : (levels depth : Nat) → String → List Event
  | 0, depth, s => .reach depth :: (Token.scan s).flatMap fun t => [.check, .act t]
  | levels + 1, depth, s => .reach depth :: (Token.scan s).flatMap fun t =>
    match t.body? g with
    | some body =>
      .check :: .act .enterScale :: (g.walkScript levels (depth + 1) body ++ [.act .exitScale])
    | none => [.check, .act t]

section

variable {σ : Type} [LineSink σ]

/-- Dispatching tokens is performing the events of one token after the other, if what replaces
a token performs the events listed for it. -/
theorem dispatch_eq_perform (config : RenderConfig σ) (g : Grammar) (body? : Token → Option String)
    (expand : String → RenderM σ Unit) (expansion : String → List Event)
    (h : ∀ body, expand body = perform config g (expansion body)) : ∀ ts : List Token,
    dispatch config g body? expand ts = perform config g (ts.flatMap fun t =>
      match body? t with
      | some body => .check :: expansion body
      | none => [.check, .act t])
  | [] => rfl
  | t :: ts => by
    rw [dispatch, dispatch_eq_perform config g body? expand expansion h ts, List.flatMap_cons,
      perform_append]
    cases body? t with
    | some body => simp [perform, Event.perform, h]
    | none => simp [perform, Event.perform]

/-- **A walk performs its script.** -/
theorem walk_eq_perform (config : RenderConfig σ) (g : Grammar) :
    ∀ (levels depth : Nat) (s : String),
      walk config g levels depth s = perform config g (g.walkScript levels depth s)
  | 0, depth, s => by
    rw [walk, dispatch_eq_perform config g (fun _ => none) (fun _ => pure ()) (fun _ => [])]
    · rfl
    · exact fun _ => rfl
  | levels + 1, depth, s => by
    rw [walk, dispatch_eq_perform config g _ _ fun body =>
      .act .enterScale :: (g.walkScript levels (depth + 1) body ++ [.act .exitScale])]
    · rfl
    · intro body
      simp only [walk_eq_perform config g levels, perform, perform_append]
      simp [Event.perform, Token.act]

end

/-! ### The events of an expansion -/

namespace Rules

/-- The events of a pass that writes behind `out`; the ones after it depend on what it has
written. -/
def passScript (rules : Rules) (limit : Option Nat) (next : String → List Event) :
    List Token → String → List Event
  | [], out => next out
  | t :: ts, out =>
    let out := out ++ rules.image t
    .check :: match limit with
      | some l =>
        if l < out.utf8ByteSize then [.fail (.expansionLimitExceeded out.utf8ByteSize l)]
        else rules.passScript limit next ts out
      | none => rules.passScript limit next ts out

/-- The events of a number of passes, and of what is done with the string they end with. -/
def deriveScript (rules : Rules) (limit : Option Nat) (next : String → List Event) :
    Nat → String → List Event
  | 0, s => next s
  | n + 1, s => rules.passScript limit (rules.deriveScript limit next n) (Token.scan s) ""

variable {σ : Type} [LineSink σ]

theorem passGuarded_bind_eq_perform (config : RenderConfig σ) (g : Grammar) (rules : Rules)
    (limit : Option Nat) (after : String → RenderM σ Unit) (next : String → List Event)
    (h : ∀ s, after s = perform config g (next s)) : ∀ (ts : List Token) (out : String),
    rules.passGuarded limit config.check ts out >>= after =
      perform config g (rules.passScript limit next ts out)
  | [], out => by simpa [passGuarded, passScript] using h out
  | t :: ts, out => by
    have ih :=
      passGuarded_bind_eq_perform config g rules limit after next h ts (out ++ rules.image t)
    cases limit with
    | none => simp [passGuarded, passScript, perform, Event.perform, ih]
    | some l =>
      simp only [passGuarded, passScript, perform, Event.perform, bind_assoc]
      congr 1
      funext _
      split
      · rfl
      · exact ih

theorem deriveGuarded_bind_eq_perform (config : RenderConfig σ) (g : Grammar) (rules : Rules)
    (limit : Option Nat) (after : String → RenderM σ Unit) (next : String → List Event)
    (h : ∀ s, after s = perform config g (next s)) : ∀ (n : Nat) (s : String),
    rules.deriveGuarded limit config.check n s >>= after =
      perform config g (rules.deriveScript limit next n s)
  | 0, s => by simpa [deriveGuarded, deriveScript] using h s
  | n + 1, s => by
    simp only [deriveGuarded, deriveScript, bind_assoc]
    exact passGuarded_bind_eq_perform config g rules limit _ _
      (deriveGuarded_bind_eq_perform config g rules limit after next h n) (Token.scan s) ""

end Rules

/-! ### The events of a rendering -/

/-- The events of a rendering after its move to the origin, when none of its checks fails. -/
def Grammar.script (g : Grammar) (strategy : Strategy) (maxExpansion : Option Nat) : List Event :=
  match strategy with
  | .recursive => g.walkScript g.evaluationDepth.toNat 0 g.start
  | .materialized =>
    g.rules.deriveScript maxExpansion (g.walkScript 0 0) g.evaluationDepth.toNat g.start

/-- **A rendering performs its script**, whatever limits and flag it has. -/
theorem walkGrammar_eq_perform {σ : Type} [LineSink σ] (config : RenderConfig σ) (g : Grammar) :
    walkGrammar config g = perform config g (g.script config.strategy config.maxExpansion) := by
  unfold walkGrammar Grammar.script
  cases config.strategy with
  | recursive => exact walk_eq_perform config g _ _ _
  | materialized =>
    exact Rules.deriveGuarded_bind_eq_perform config g g.rules _ _ _
      (walk_eq_perform config g 0 0) _ _

end LSystem
