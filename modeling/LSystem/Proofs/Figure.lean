/-
# The figure of a rendering

A rendering that nothing limits comes to its end, and the turtle has then acted on a list of
tokens, the figure: the tokens of the start with the rule bodies opened in their places, or the
tokens of the expanded start. What the sink has taken in, the segments and the moves depend on
the figure only (`render_eq_figure`).

Key definitions: `acted`, `deepest`, `Turtle.follow`, `Rules.replacement?`, `Rules.unrolled`,
`Rules.nesting`, `Grammar.figure`.
Key theorems: `perform_of_no_fail`, `acted_walkScript`, `deepest_walkScript`,
`Rules.deriveScript_none`, `render_eq_figure`.
-/
import LSystem.Proofs.Sink

namespace LSystem

/-! ### Events that nothing stops -/

/-- The tokens that events let the turtle act on. -/
def acted : List Event → List Token
  | [] => []
  | .act k :: es => k :: acted es
  | _ :: es => acted es

/-- The most rule bodies that events note as open. -/
def deepest : List Event → Nat
  | [] => 0
  | .reach depth :: es => max depth (deepest es)
  | _ :: es => deepest es

theorem acted_append (fs : List Event) : ∀ es : List Event, acted (es ++ fs) = acted es ++ acted fs
  | [] => rfl
  | .act k :: es => congrArg (k :: ·) (acted_append fs es)
  | .check :: es | .reach _ :: es | .fail _ :: es => acted_append fs es

theorem deepest_append (fs : List Event) : ∀ es : List Event,
    deepest (es ++ fs) = max (deepest es) (deepest fs)
  | [] => by simp [deepest]
  | .reach depth :: es => by simp [deepest, deepest_append fs es, Nat.max_assoc]
  | .check :: es | .act _ :: es | .fail _ :: es => deepest_append fs es

theorem acted_flatMap (f : Token → List Event) : ∀ ts : List Token,
    acted (ts.flatMap f) = ts.flatMap fun t => acted (f t)
  | [] => rfl
  | t :: ts => by rw [List.flatMap_cons, List.flatMap_cons, acted_append, acted_flatMap f ts]

section

variable {σ : Type} [LineSink σ]

/-- Acts on tokens in order. -/
def Turtle.follow (g : Grammar) (ts : List Token) (t : Turtle σ) : Turtle σ :=
  ts.foldl (fun t k => k.act g t) t

theorem perform_of_no_fail (strategy : Strategy) (g : Grammar) :
    ∀ (es : List Event) (s : RenderState σ), (∀ e, .fail e ∉ es) →
      perform ({ strategy } : RenderConfig σ) g es s =
        .ok ()
          { turtle := s.turtle.follow g (acted es)
            commands := s.commands + es.count .check
            maxRecursion := max s.maxRecursion (deepest es) }
  | [], s, _ => by
    rw [deepest, Nat.max_zero]
    rfl
  | .check :: es, s, h => by
    have ih := perform_of_no_fail strategy g es { s with commands := s.commands + 1 }
      fun e he => h e (List.mem_cons_of_mem _ he)
    rw [List.count_cons_self, Nat.add_comm (es.count _), ← Nat.add_assoc]
    exact ih
  | .act k :: es, s, h => by
    have ih := perform_of_no_fail strategy g es { s with turtle := k.act g s.turtle }
      fun e he => h e (List.mem_cons_of_mem _ he)
    rw [List.count_cons_of_ne (by simp)]
    exact ih
  | .reach depth :: es, s, h => by
    have ih := perform_of_no_fail strategy g es { s with maxRecursion := max s.maxRecursion depth }
      fun e he => h e (List.mem_cons_of_mem _ he)
    rw [List.count_cons_of_ne (by simp), deepest, ← Nat.max_assoc]
    exact ih
  | .fail e :: _, _, h => absurd (List.mem_cons_self ..) (h e)

end

/-! ### The figure of a walk -/

namespace Rules

/-- The body that replaces a token, if it is a symbol with a rule. -/
def replacement? (rules : Rules) : Token → Option String
  | .symbol c => rules.body? c
  | _ => none

/-- Tokens with the rule bodies opened in their places, `levels` deep and between scale marks. -/
def unrolled (rules : Rules) : Nat → List Token → List Token
  | 0, ts => ts
  | levels + 1, ts => ts.flatMap fun t =>
    match rules.replacement? t with
    | some body => .enterScale :: (rules.unrolled levels (Token.scan body) ++ [.exitScale])
    | none => [t]

/-- How many rule bodies are open at once, at most, when they are opened `levels` deep. -/
def nesting (rules : Rules) : Nat → List Token → Nat
  | 0, _ => 0
  | levels + 1, ts => (ts.map fun t =>
    match rules.replacement? t with
    | some body => rules.nesting levels (Token.scan body) + 1
    | none => 0).foldr max 0

end Rules

theorem Token.body?_eq_replacement? (g : Grammar) (t : Token) :
    t.body? g = g.rules.replacement? t := by
  cases t <;> rfl

namespace Grammar

theorem acted_walkScript (g : Grammar) : ∀ (levels depth : Nat) (s : String),
    acted (g.walkScript levels depth s) = g.rules.unrolled levels (Token.scan s)
  | 0, depth, s => by
    simp only [walkScript, acted, acted_flatMap]
    exact List.flatMap_singleton' _
  | levels + 1, depth, s => by
    simp only [walkScript, acted, acted_flatMap, Rules.unrolled, Token.body?_eq_replacement?]
    congr 1
    funext t
    cases g.rules.replacement? t with
    | some body => simp [acted, acted_append, acted_walkScript g levels]
    | none => rfl

theorem deepest_walkScript (g : Grammar) : ∀ (levels depth : Nat) (s : String),
    deepest (g.walkScript levels depth s) = depth + g.rules.nesting levels (Token.scan s)
  | 0, depth, s => by
    rw [walkScript, deepest, Rules.nesting]
    induction Token.scan s with
    | nil => simp [deepest]
    | cons t ts ih => simpa [deepest] using ih
  | levels + 1, depth, s => by
    simp only [walkScript, deepest, Rules.nesting, Token.body?_eq_replacement?]
    induction Token.scan s with
    | nil => simp [deepest]
    | cons t ts ih =>
      rw [List.flatMap_cons, deepest_append, List.map_cons, List.foldr_cons]
      cases g.rules.replacement? t with
      | some body =>
        simp only [deepest, deepest_append, deepest_walkScript g levels]
        omega
      | none =>
        simp only [deepest]
        omega

theorem fail_notMem_walkScript (g : Grammar) (e : RenderError) :
    ∀ (levels depth : Nat) (s : String), .fail e ∉ g.walkScript levels depth s
  | 0, depth, s => by simp [walkScript]
  | levels + 1, depth, s => by
    simp only [walkScript, List.mem_cons, List.mem_flatMap, reduceCtorEq, false_or]
    rintro ⟨t, -, h⟩
    cases hbody : t.body? g with
    | some body => simp [hbody, fail_notMem_walkScript g e levels] at h
    | none => simp [hbody] at h

end Grammar

/-! ### The figure of an expansion -/

namespace Rules

theorem passScript_none (rules : Rules) (next : String → List Event) :
    ∀ (ts : List Token) (out : String),
      rules.passScript none next ts out =
        List.replicate ts.length .check ++
          next (ts.foldl (fun out t => out ++ rules.image t) out)
  | [], _ => rfl
  | t :: ts, out =>
    congrArg (Event.check :: ·) (passScript_none rules next ts (out ++ rules.image t))

/-- An expansion without limit makes checks, and goes on with the expanded string. -/
theorem deriveScript_none (rules : Rules) (next : String → List Event) : ∀ (n : Nat) (s : String),
    ∃ checks : Nat, rules.deriveScript none next n s =
      List.replicate checks .check ++ next (rules.derive n s)
  | 0, _ => ⟨0, rfl⟩
  | n + 1, s => by
    obtain ⟨checks, h⟩ := deriveScript_none rules next n (rules.pass s)
    refine ⟨(Token.scan s).length + checks, ?_⟩
    rw [deriveScript, passScript_none, ← List.replicate_append_replicate, List.append_assoc]
    exact congrArg _ h

end Rules

theorem acted_replicate_check : ∀ n : Nat, acted (List.replicate n .check) = []
  | 0 => rfl
  | n + 1 => acted_replicate_check n

theorem deepest_replicate_check : ∀ n : Nat, deepest (List.replicate n .check) = 0
  | 0 => rfl
  | n + 1 => deepest_replicate_check n

/-! ### The figure of a rendering -/

namespace Grammar

/-- The tokens that the turtle of a rendering acts on. -/
def figure (g : Grammar) : Strategy → List Token
  | .recursive => g.rules.unrolled g.evaluationDepth.toNat (Token.scan g.start)
  | .materialized => Token.scan (g.derive g.evaluationDepth.toNat)

/-- The most rule bodies that a rendering has open at once. -/
def openBodies (g : Grammar) : Strategy → Nat
  | .recursive => g.rules.nesting g.evaluationDepth.toNat (Token.scan g.start)
  | .materialized => 0

theorem script_none (g : Grammar) (strategy : Strategy) :
    acted (g.script strategy none) = g.figure strategy ∧
      deepest (g.script strategy none) = g.openBodies strategy ∧
      ∀ e, .fail e ∉ g.script strategy none := by
  cases strategy with
  | recursive =>
    refine ⟨g.acted_walkScript _ 0 _, ?_, fun e => g.fail_notMem_walkScript e _ 0 _⟩
    simpa [openBodies, script] using g.deepest_walkScript g.evaluationDepth.toNat 0 g.start
  | materialized =>
    obtain ⟨checks, h⟩ :=
      g.rules.deriveScript_none (g.walkScript 0 0) g.evaluationDepth.toNat g.start
    rw [script, h]
    refine ⟨?_, ?_, fun e => ?_⟩
    · rw [acted_append, acted_replicate_check, acted_walkScript]
      rfl
    · rw [deepest_append, deepest_replicate_check, deepest_walkScript]
      rfl
    · simp [List.mem_append, List.mem_replicate, g.fail_notMem_walkScript e]

end Grammar

/-- **A rendering that nothing limits draws its figure.** -/
theorem render_eq_figure {σ : Type} [LineSink σ] (strategy : Strategy) (g : Grammar) (sink : σ) :
    ∃ commands : Nat,
      ({ strategy } : RenderConfig σ).render g sink =
        let turtle := (RenderState.initial g sink).turtle.follow g (g.figure strategy)
        (.ok
          { commands
            segments := turtle.sink.segments
            moves := turtle.sink.moves
            maxRecursion := g.openBodies strategy },
          turtle.sink.sink) := by
  obtain ⟨hacted, hdeepest, hfail⟩ := g.script_none strategy
  refine ⟨(g.script strategy none).count .check, ?_⟩
  refine (render_eq_outcome _ g sink).trans ?_
  change outcome (perform _ g (g.script strategy none) _) = _
  rw [perform_of_no_fail strategy g _ _ hfail, hacted, hdeepest]
  simp [outcome, RenderState.stats, RenderState.initial]

theorem sink_render {σ : Type} [LineSink σ] (strategy : Strategy) (g : Grammar) (sink : σ) :
    (({ strategy } : RenderConfig σ).render g sink).2 =
      ((RenderState.initial g sink).turtle.follow g (g.figure strategy)).sink.sink := by
  obtain ⟨_, h⟩ := render_eq_figure strategy g sink
  rw [h]

end LSystem
