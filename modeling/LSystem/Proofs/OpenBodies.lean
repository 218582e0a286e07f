/-
# The rule bodies that a walk has open

A walk opens rule bodies inside rule bodies. Between two of its steps, a `Moment` holds the tokens
left of the string that is being read, and for each open body the tokens left behind the symbol
that it replaces. A step dispatches a token, which opens a body or acts on the turtle, or leaves a
body that is read to its end. A walk is a run of such steps up to its end or up to the check that
fails (`walk_reached`).

Every open body has been opened by a token of its own, and every token that is dispatched has
passed its check. So a limit on commands is one on the open bodies too, at every moment, and on
the calls that the sink gets (`render_recursive_bounded`).

Key definitions: `Moment`, `Grammar.bodyAt?`, `Moment.Step`, `Moment.Reached`, `Moment.Counted`.
Key theorems: `walk_reached`, `Moment.Counted.step`, `Moment.Reached.counted`,
`render_recursive_bounded`.
-/
import LSystem.Proofs.CommandLimit

namespace LSystem

open LineSink (take takeAll)

/-- A walk between two of its steps. -/
structure Moment (σ : Type) where
  /-- The tokens left of the innermost open string. -/
  rest : List Token
  /-- The tokens left behind the symbol of each open rule body, the innermost body first. -/
  outer : List (List Token)
  /-- The tokens dispatched so far, in order. -/
  dispatched : List Token
  state : RenderState σ

/-- The body that replaces a token when `depth` bodies are open, of which there may be `levels`. -/
def Grammar.bodyAt? (g : Grammar) (levels depth : Nat) (t : Token) : Option String :=
  if depth < levels then t.body? g else none

section

variable {σ : Type} [LineSink σ] (config : RenderConfig σ) (g : Grammar) (levels : Nat)

/-! ### Steps of a walk -/

namespace Moment

/-- What a walk with up to `levels` open bodies does next. -/
inductive Step : Moment σ → Moment σ → Prop where
  /-- A token that is not replaced acts on the turtle. -/
  | act {t : Token} {ts : List Token} {outer : List (List Token)} {done : List Token}
      {s s' : RenderState σ} (hcheck : config.check s = .ok () s')
      (hbody : g.bodyAt? levels outer.length t = none) :
      Step ⟨t :: ts, outer, done, s⟩
        ⟨ts, outer, done ++ [t], { s' with turtle := t.act g s'.turtle }⟩
  /-- The body that replaces a token is opened, one scale depth down. -/
  | enter {t : Token} {ts : List Token} {outer : List (List Token)} {done : List Token}
      {s s' : RenderState σ} {body : String} (hcheck : config.check s = .ok () s')
      (hbody : g.bodyAt? levels outer.length t = some body) :
      Step ⟨t :: ts, outer, done, s⟩
        ⟨Token.scan body, ts :: outer, done ++ [t],
          { s' with
            turtle := s'.turtle.enterScale
            maxRecursion := max s'.maxRecursion (outer.length + 1) }⟩
  /-- The innermost body has been read and is left, one scale depth up. -/
  | leave {ts : List Token} {outer : List (List Token)} {done : List Token} {s : RenderState σ} :
      Step ⟨[], ts :: outer, done, s⟩
        ⟨ts, outer, done, { s with turtle := s.turtle.exitScale }⟩

/-- The moments of a walk of `start` that begins in the state `s`. -/
inductive Reached (start : String) (s : RenderState σ) : Moment σ → Prop where
  | start : Reached start s ⟨Token.scan start, [], [], s⟩
  | step {m m' : Moment σ} : Reached start s m → Step config g levels m m' → Reached start s m'

end Moment

/-! ### A walk is a run of steps -/

/-- The tokens of a string are dispatched so with `depth` bodies open, of which `left` more may be
opened. -/
def dispatchAt : (left depth : Nat) → List Token → RenderM σ Unit
  | 0, _ => dispatch config g (fun _ => none) (fun _ => pure ())
  | left + 1, depth => dispatch config g (Token.body? g) fun body => do
    drive (·.enterScale)
    walk config g left (depth + 1) body
    drive (·.exitScale)

theorem walk_apply (left depth : Nat) (s : String) (st : RenderState σ) :
    walk config g left depth s st =
      dispatchAt config g left depth (Token.scan s)
        { st with maxRecursion := max st.maxRecursion depth } := by
  cases left <;> rfl

variable {g levels} in
theorem lt_of_bodyAt?_eq_some {depth : Nat} {t : Token} {body : String}
    (h : g.bodyAt? levels depth t = some body) : depth < levels := by
  unfold Grammar.bodyAt? at h
  by_cases hdepth : depth < levels
  · exact hdepth
  · rw [if_neg hdepth] at h
    cases h

/-- What a token does behind its check when `depth` bodies are open. -/
def advance (left depth : Nat) (t : Token) : RenderM σ Unit :=
  match g.bodyAt? levels depth t with
  | some body => do
    drive (·.enterScale)
    walk config g (left - 1) (depth + 1) body
    drive (·.exitScale)
  | none => drive (t.act g ·)

variable {g levels}

theorem advance_of_bodyAt?_eq_none {depth : Nat} {t : Token}
    (h : g.bodyAt? levels depth t = none) (left : Nat) :
    advance config g levels left depth t = drive (t.act g ·) := by
  unfold advance
  rw [h]

theorem advance_of_bodyAt?_eq_some {depth : Nat} {t : Token} {body : String}
    (h : g.bodyAt? levels depth t = some body) (left : Nat) (s : RenderState σ) :
    advance config g levels (left + 1) depth t s =
      match dispatchAt config g left (depth + 1) (Token.scan body)
        { s with
          turtle := s.turtle.enterScale
          maxRecursion := max s.maxRecursion (depth + 1) } with
      | .ok _ s' => .ok () { s' with turtle := s'.turtle.exitScale }
      | .error e s' => .error e s' := by
  have hadvance : advance config g levels (left + 1) depth t = (do
      drive (·.enterScale)
      walk config g left (depth + 1) body
      drive (·.exitScale)) := by
    unfold advance
    rw [h]
    rfl
  have hwalk := walk_apply config g left (depth + 1) body
    { s with turtle := s.turtle.enterScale }
  rw [hadvance]
  show (walk config g left (depth + 1) body >>= fun _ => drive (·.exitScale)) _ = _
  rw [bind_apply, hwalk]
  cases dispatchAt config g left (depth + 1) (Token.scan body) _ <;> rfl

theorem dispatchAt_cons {left depth : Nat} (hlevels : depth + left = levels) (t : Token)
    (ts : List Token) : dispatchAt config g left depth (t :: ts) = (do
      config.check
      advance config g levels left depth t
      dispatchAt config g left depth ts) := by
  unfold advance
  cases left with
  | zero =>
    have hnone : g.bodyAt? levels depth t = none := if_neg (by omega)
    rw [hnone]
    rfl
  | succ left =>
    have hbody : g.bodyAt? levels depth t = t.body? g := if_pos (by omega)
    rw [hbody, dispatchAt, dispatch]
    cases t.body? g <;> rfl

variable (g levels)

/-- The end of a walk above the bodies `outer` is reached: all of its tokens are dispatched, or a
check fails before a token. -/
def Moment.EndReached (start : String) (s : RenderState σ) (outer : List (List Token)) :
    EStateM.Result RenderError (RenderState σ) Unit → Prop
  | .ok _ s' => ∃ done, Reached config g levels start s ⟨[], outer, done, s'⟩
  | .error e s' => ∃ m : Moment σ, Reached config g levels start s m ∧ m.rest ≠ [] ∧
      config.check m.state = .error e s'

open Moment in
/-- Dispatching tokens goes from moment to moment, up to its end. -/
theorem dispatchAt_reached (start : String) (s₀ : RenderState σ) (left : Nat) :
    ∀ (ts : List Token) (outer : List (List Token)) (done : List Token) (s : RenderState σ),
      outer.length + left = levels → Reached config g levels start s₀ ⟨ts, outer, done, s⟩ →
        EndReached config g levels start s₀ outer (dispatchAt config g left outer.length ts s) := by
  induction left using Nat.strongRecOn with
  | ind left ihleft =>
    intro ts
    induction ts with
    | nil =>
      intro outer done s _ h
      cases left <;> exact ⟨done, h⟩
    | cons t ts ih =>
      intro outer done s hlevels h
      rw [dispatchAt_cons config hlevels, bind_apply]
      cases hcheck : config.check s with
      | error e s' => exact ⟨_, h, List.cons_ne_nil t ts, hcheck⟩
      | ok _ s' =>
        simp only [bind_apply]
        cases hbody : g.bodyAt? levels outer.length t with
        | none =>
          rw [advance_of_bodyAt?_eq_none config hbody left]
          exact ih outer _ _ hlevels (h.step (.act hcheck hbody))
        | some body =>
          have hdepth : outer.length < levels := lt_of_bodyAt?_eq_some hbody
          obtain ⟨left, rfl⟩ : ∃ l, left = l + 1 := ⟨left - 1, by omega⟩
          have hlevels' : (ts :: outer).length + left = levels := by
            rw [List.length_cons]
            omega
          have hinner := ihleft left (Nat.lt_succ_self left) (Token.scan body) (ts :: outer) _ _
            hlevels' (h.step (.enter hcheck hbody))
          rw [List.length_cons] at hinner
          rw [advance_of_bodyAt?_eq_some config hbody left s']
          -- the body is read to its end and left, or the whole walk ends in it
          cases hrun : dispatchAt config g left (outer.length + 1) (Token.scan body) _ with
          | error e s'' =>
            rw [hrun] at hinner
            exact hinner
          | ok _ s'' =>
            rw [hrun] at hinner
            obtain ⟨done', hread⟩ := hinner
            exact ih outer done' _ hlevels (hread.step .leave)

/-- **A walk goes from moment to moment**, up to its end or the check that fails. -/
theorem walk_reached (start : String) (s : RenderState σ) :
    Moment.EndReached config g levels start s [] (walk config g levels 0 start s) := by
  have hstate : ({ s with maxRecursion := max s.maxRecursion 0 } : RenderState σ) = s := by
    rw [Nat.max_zero]
  have h := dispatchAt_reached config g levels start s levels (Token.scan start) [] [] s
    (Nat.zero_add levels) .start
  rw [walk_apply, hstate]
  exact h

/-! ### What a walk has counted -/

/-- What holds of a walk that began by moving `sink` to the origin. -/
structure Moment.Counted (sink : σ) (m : Moment σ) : Prop where
  commands : m.state.commands = m.dispatched.length
  /-- Every token that is dispatched has passed its check. -/
  allowed : config.overrun m.dispatched.length = none
  open_le : m.outer.length ≤ m.state.maxRecursion
  /-- Every body that is open has been opened by a token of its own. -/
  opened_le : m.state.maxRecursion ≤ min m.dispatched.length levels
  calls_le : ∃ calls, m.state.turtle.sink.sink = takeAll sink calls ∧
    calls.length ≤ m.dispatched.length + 1

namespace Moment

variable {config g levels} {sink : σ}

theorem counted_start (start : String) :
    Counted config levels sink ⟨Token.scan start, [], [], .initial g sink⟩ where
  commands := rfl
  allowed := config.overrun_zero
  open_le := Nat.zero_le _
  opened_le := Nat.zero_le _
  calls_le := ⟨[.moveTo .origin], rfl, Nat.le_refl 1⟩

omit [LineSink σ] in
theorem allowed_of_check_eq_ok {s s' : RenderState σ} (h : config.check s = .ok () s') :
    s' = { s with commands := s.commands + 1 } ∧ config.overrun s'.commands = none := by
  obtain ⟨hverdict, rfl⟩ := (config.check_eq_ok_iff s s').mp h
  exact ⟨rfl, (Option.or_eq_none_iff.mp hverdict).1⟩

omit [LineSink σ] in
theorem allowed_of_check {s s' : RenderState σ} {done : List Token} (t : Token)
    (hcheck : config.check s = .ok () s') (hcommands : s.commands = done.length) :
    s' = { s with commands := (done ++ [t]).length } ∧
      config.overrun (done ++ [t]).length = none := by
  have hlength : (done ++ [t]).length = s.commands + 1 := by
    rw [List.length_append, hcommands]
    rfl
  obtain ⟨rfl, hnext⟩ := allowed_of_check_eq_ok hcheck
  rw [hlength]
  exact ⟨rfl, hnext⟩

/-- **A step keeps what is counted.** -/
theorem Counted.step {m m' : Moment σ} (hm : m.Counted config levels sink)
    (h : Step config g levels m m') : m'.Counted config levels sink := by
  obtain ⟨hcommands, hallowed, hopen, hopened, calls, hsink, hcalls⟩ := hm
  cases h with
  | @act t ts outer done s s' hcheck hbody =>
    obtain ⟨rfl, hnext⟩ := allowed_of_check t hcheck hcommands
    simp only at hopen hopened hsink hcalls
    refine ⟨rfl, hnext, hopen, ?_, calls ++ (t.call? g s.turtle).toList, ?_, ?_⟩
    · simp only [List.length_append]
      omega
    · rw [LineSink.takeAll_append, ← hsink]
      exact sink_sink_act g s.turtle t
    · have hcall : (t.call? g s.turtle).toList.length ≤ 1 := by
        cases t.call? g s.turtle <;> simp
      simp only [List.length_append, List.length_singleton]
      omega
  | @enter t ts outer done s s' body hcheck hbody =>
    obtain ⟨rfl, hnext⟩ := allowed_of_check t hcheck hcommands
    have hdepth : outer.length < levels := lt_of_bodyAt?_eq_some hbody
    simp only at hopen hopened hsink hcalls
    refine ⟨rfl, hnext, Nat.le_max_right _ _, ?_, calls, hsink, ?_⟩
    · simp only [List.length_append, List.length_singleton]
      omega
    · simp only [List.length_append, List.length_singleton]
      omega
  | @leave ts outer done s =>
    exact ⟨hcommands, hallowed, Nat.le_of_succ_le hopen, hopened, calls, hsink, hcalls⟩

/-- **Every moment of a walk from the origin keeps what is counted.** -/
theorem Reached.counted {start : String} {m : Moment σ}
    (h : Reached config g levels start (.initial g sink) m) : m.Counted config levels sink := by
  induction h with
  | start => exact counted_start start
  | step _ hstep ih => exact ih.step hstep

end Moment

end

/-! ### A limit on commands bounds the open bodies -/

section

variable {σ : Type} [LineSink σ]

/-- A rendering that follows the rules as it walks goes from moment to moment, and what a host
gets is what the last one holds. -/
theorem render_reached (config : RenderConfig σ) (hstrategy : config.strategy = .recursive)
    (g : Grammar) (sink : σ) :
    ∃ m, Moment.Reached config g g.evaluationDepth.toNat g.start (.initial g sink) m ∧
      (config.render g sink).2 = m.state.turtle.sink.sink ∧
      ((m.rest = [] ∧ m.outer = [] ∧ (config.render g sink).1 = .ok m.state.stats) ∨
        ∃ e s, m.rest ≠ [] ∧ config.check m.state = .error e s ∧
          (config.render g sink).1 = .error e) := by
  have hend := walk_reached config g g.evaluationDepth.toNat g.start (.initial g sink)
  have hwalk : walkGrammar config g = walk config g g.evaluationDepth.toNat 0 g.start := by
    unfold walkGrammar
    rw [hstrategy]
  unfold RenderConfig.render EStateM.run
  rw [hwalk]
  cases hrun : walk config g g.evaluationDepth.toNat 0 g.start (.initial g sink) with
  | ok _ s =>
    rw [hrun] at hend
    obtain ⟨done, hreached⟩ := hend
    exact ⟨_, hreached, rfl, .inl ⟨rfl, rfl, rfl⟩⟩
  | error e s =>
    rw [hrun] at hend
    obtain ⟨m, hreached, hrest, hcheck⟩ := hend
    obtain ⟨-, rfl⟩ := (config.check_eq_error_iff m.state s e).mp hcheck
    exact ⟨m, hreached, rfl, .inr ⟨e, _, hrest, hcheck, rfl⟩⟩

/-- **A limit on commands bounds recursion and output.** At every moment of a rendering that
follows the rules as it walks, no more bodies are open than the limit and the evaluation depth
allow, no more tokens are dispatched than the limit allows, and the sink has got no more than one
call for each of them and the move to the origin. The rendering ends in one of these moments, in
success or by the check that fails, and with success the bodies that were open at once are no more
than the commands and the evaluation depth. -/
theorem render_recursive_bounded (limit : Nat) (maxExpansion : Option Nat)
    (cancel : Option (σ → Bool)) (g : Grammar) (sink : σ) :
    let config : RenderConfig σ := { maxCommands := some limit, maxExpansion, cancel }
    let levels := g.evaluationDepth.toNat
    (∀ m, Moment.Reached config g levels g.start (.initial g sink) m →
      m.outer.length ≤ min limit levels ∧ m.dispatched.length ≤ limit ∧
      ∃ calls, m.state.turtle.sink.sink = takeAll sink calls ∧ calls.length ≤ limit + 1) ∧
    (∃ m, Moment.Reached config g levels g.start (.initial g sink) m ∧
      (config.render g sink).2 = m.state.turtle.sink.sink ∧
      ((m.rest = [] ∧ m.outer = [] ∧ (config.render g sink).1 = .ok m.state.stats) ∨
        ∃ e s, m.rest ≠ [] ∧ config.check m.state = .error e s ∧
          (config.render g sink).1 = .error e)) ∧
    (∃ calls, (config.render g sink).2 = takeAll sink calls ∧ calls.length ≤ limit + 1) ∧
    ∀ stats, (config.render g sink).1 = .ok stats →
      stats.maxRecursion ≤ min stats.commands levels := by
  intro config levels
  have hmoments (m : Moment σ)
      (h : Moment.Reached config g levels g.start (.initial g sink) m) :
      m.outer.length ≤ min limit levels ∧ m.dispatched.length ≤ limit ∧
        ∃ calls, m.state.turtle.sink.sink = takeAll sink calls ∧ calls.length ≤ limit + 1 := by
    obtain ⟨-, hallowed, hopen, hopened, calls, hsink, hcalls⟩ := h.counted
    have hlimit : m.dispatched.length ≤ limit :=
      (config.overrun_eq_none_iff _).mp hallowed limit rfl
    exact ⟨by omega, hlimit, calls, hsink, by omega⟩
  obtain ⟨m, hreached, hsink, hend⟩ := render_reached config rfl g sink
  refine ⟨hmoments, ⟨m, hreached, hsink, hend⟩, ?_, ?_⟩
  · rw [hsink]
    exact (hmoments m hreached).2.2
  · intro stats hok
    rcases hend with ⟨-, -, hstats⟩ | ⟨e, s, -, -, herror⟩
    · obtain rfl : m.state.stats = stats := by
        rw [hstats] at hok
        exact Except.ok.inj hok
      have hcommands := hreached.counted.commands
      have hopened := hreached.counted.opened_le
      show m.state.maxRecursion ≤ min m.state.commands levels
      omega
    · rw [herror] at hok
      cases hok

/-- A rule that replaces a symbol by itself, as deep as can be asked for, in the first body. -/
theorem render_recursive_bounded_first :
    let config : RenderConfig (Array PathCommand) := { maxCommands := some 2 }
    let g := ((Grammar.ofStart "A").withRule 'A' "A").withEvaluationDepth 4294967295
    let s := RenderState.initial g (#[] : Array PathCommand)
    let m : Moment (Array PathCommand) :=
      { rest := [.symbol 'A']
        outer := [[]]
        dispatched := [.symbol 'A']
        state := { turtle := s.turtle.enterScale, commands := 1, maxRecursion := 1 } }
    Moment.Reached config g 4294967295 g.start s m ∧ m.outer.length ≤ min 2 4294967295 := by
  intro config g s m
  have hscan : Token.scan "A" = [.symbol 'A'] := by decide
  have hcheck : config.check s = .ok () { s with commands := 1 } := rfl
  have hbody : g.bodyAt? 4294967295 0 (.symbol 'A') = some "A" := by decide
  have hstart : Moment.Reached config g 4294967295 g.start s ⟨Token.scan "A", [], [], s⟩ := .start
  rw [hscan] at hstart
  have hreached : Moment.Reached config g 4294967295 g.start s
      { m with rest := Token.scan "A" } := hstart.step (.enter hcheck hbody)
  rw [hscan] at hreached
  exact ⟨hreached, ((render_recursive_bounded 2 none none g #[]).1 m hreached).1⟩

end

end LSystem
