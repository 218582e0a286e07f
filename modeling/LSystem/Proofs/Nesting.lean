/-
# How deep a walk goes

A walk opens a rule body inside another one as long as its letters lead on: the first letter stands
in the start, each further one in the body of the one before it, and each has a rule. Such letters
form a chain. The bodies that a walk has open at once are at most those of a longest chain among the
ones that are no longer than the levels it may open (`Rules.isGreatest_nesting`).

If this is less than the levels, there is no longer chain at all: broken off one letter further on,
it would have been within the levels. Then a walk never comes to a rule that it may not open, and
goes through the same events with any number of levels that leaves room for the chains, also with
one that they just fill (`Grammar.walkScript_eq_of_chain`). So a rendering that has not used up its
evaluation depth is the same at every depth that it has reached or more (`render_maxRecursion`).

Key definition: `Rules.Chain`.
Key theorems: `Rules.isGreatest_nesting`, `Rules.Chain.length_le_of_nesting_lt`,
`Grammar.walkScript_eq_of_chain`, `render_saturated`, `maxRecursion_of_ok`, `render_maxRecursion`.
-/
import Mathlib.Data.List.Basic
import Mathlib.Order.Bounds.Defs
import LSystem.Proofs.Calls
import LSystem.Proofs.PreExpansion

namespace LSystem

/-! ### Chains of letters -/

namespace Rules

variable {rules : Rules}

variable (rules) in
/-- Letters that lead on from a string: each has a rule, the first one stands in the string, and
each further one in the body of the one before it. -/
def Chain : String → List Char → Prop
  | _, [] => True
  | s, c :: cs => c ∈ s.toList ∧ c.isAlpha = true ∧
      ∃ body, rules.body? c = some body ∧ Chain body cs

theorem Chain.take : ∀ {cs : List Char} {s : String} (n : Nat), rules.Chain s cs →
    rules.Chain s (cs.take n)
  | [], _, n, _ => by simp [Chain]
  | _ :: _, _, 0, _ => trivial
  | _ :: _, _, n + 1, ⟨hc, halpha, body, hbody, h⟩ => ⟨hc, halpha, body, hbody, h.take n⟩

theorem chain_cons_iff {s : String} {c : Char} {cs : List Char} :
    rules.Chain s (c :: cs) ↔ .symbol c ∈ Token.scan s ∧
      ∃ body, rules.replacement? (.symbol c) = some body ∧ rules.Chain body cs := by
  rw [mem_scan_symbol_iff, Chain, and_assoc]
  rfl

theorem Chain.cons {s : String} {t : Token} (ht : t ∈ Token.scan s) {body : String}
    (hbody : rules.replacement? t = some body) {cs : List Char} (h : rules.Chain body cs) :
    ∃ c, rules.Chain s (c :: cs) := by
  cases t with
  | symbol c => exact ⟨c, chain_cons_iff.mpr ⟨ht, body, hbody, h⟩⟩
  | _ => cases hbody

/-! ### The nesting of bodies -/

theorem nesting_of_replacement? {levels : Nat} {t : Token} {body : String}
    (h : rules.replacement? t = some body) :
    rules.nesting (levels + 1) [t] = rules.nesting levels (Token.scan body) + 1 := by
  simp [nesting, h]

theorem nesting_le : ∀ (levels : Nat) (ts : List Token), rules.nesting levels ts ≤ levels
  | 0, _ => Nat.le_refl 0
  | levels + 1, [] => Nat.zero_le _
  | levels + 1, t :: ts => by
    rw [nesting_cons]
    refine Nat.max_le.mpr ⟨?_, nesting_le (levels + 1) ts⟩
    cases hbody : rules.replacement? t with
    | some body =>
      rw [nesting_of_replacement? hbody]
      exact Nat.succ_le_succ (nesting_le levels (Token.scan body))
    | none =>
      rw [nesting_singleton hbody]
      exact Nat.zero_le _
termination_by levels ts => (levels, ts.length)

theorem nesting_lt_of_mem {levels : Nat} {t : Token} {body : String}
    (hbody : rules.replacement? t = some body) : ∀ {ts : List Token}, t ∈ ts →
      rules.nesting levels (Token.scan body) < rules.nesting (levels + 1) ts
  | u :: ts, h => by
    rw [nesting_cons]
    rcases List.mem_cons.mp h with rfl | h
    · rw [nesting_of_replacement? hbody]
      exact Nat.lt_of_lt_of_le (Nat.lt_succ_self _) (Nat.le_max_left _ _)
    · exact Nat.lt_of_lt_of_le (nesting_lt_of_mem hbody h) (Nat.le_max_right _ _)

theorem exists_mem_nesting {levels : Nat} : ∀ {ts : List Token},
    0 < rules.nesting (levels + 1) ts → ∃ t ∈ ts, ∃ body, rules.replacement? t = some body ∧
      rules.nesting (levels + 1) ts = rules.nesting levels (Token.scan body) + 1
  | [], h => absurd h (Nat.lt_irrefl 0)
  | t :: ts, h => by
    rw [nesting_cons] at h ⊢
    by_cases hrest : rules.nesting (levels + 1) [t] < rules.nesting (levels + 1) ts
    · obtain ⟨u, hu, body, hbody, hnesting⟩ :=
        exists_mem_nesting (Nat.lt_of_le_of_lt (Nat.zero_le _) hrest)
      exact ⟨u, List.mem_cons_of_mem _ hu, body, hbody, by omega⟩
    · cases hbody : rules.replacement? t with
      | some body =>
        have hfirst : rules.nesting (levels + 1) [t] =
            rules.nesting levels (Token.scan body) + 1 := nesting_of_replacement? hbody
        exact ⟨t, List.mem_cons_self, body, hbody, by omega⟩
      | none =>
        have hfirst : rules.nesting (levels + 1) [t] = 0 := nesting_singleton hbody _
        omega

/-! ### A longest chain -/

theorem exists_chain : ∀ (levels : Nat) (s : String),
    ∃ cs, rules.Chain s cs ∧ cs.length = rules.nesting levels (Token.scan s)
  | 0, _ => ⟨[], trivial, rfl⟩
  | levels + 1, s => by
    rcases Nat.eq_zero_or_pos (rules.nesting (levels + 1) (Token.scan s)) with hzero | hpos
    · exact ⟨[], trivial, hzero.symm⟩
    · obtain ⟨t, ht, body, hbody, hnesting⟩ := exists_mem_nesting hpos
      obtain ⟨cs, hcs, hlength⟩ := exists_chain levels body
      obtain ⟨c, hchain⟩ := hcs.cons ht hbody
      exact ⟨c :: cs, hchain, by rw [List.length_cons, hlength, hnesting]⟩

theorem Chain.length_le_nesting : ∀ {cs : List Char} {levels : Nat} {s : String},
    rules.Chain s cs → cs.length ≤ levels → cs.length ≤ rules.nesting levels (Token.scan s)
  | [], _, _, _, _ => Nat.zero_le _
  | _ :: _, 0, _, _, h => absurd h (Nat.not_succ_le_zero _)
  | c :: cs, levels + 1, s, hchain, h => by
    obtain ⟨hc, body, hbody, hrest⟩ := chain_cons_iff.mp hchain
    have hinner : cs.length ≤ rules.nesting levels (Token.scan body) :=
      hrest.length_le_nesting (Nat.le_of_succ_le_succ h)
    exact Nat.lt_of_le_of_lt hinner (nesting_lt_of_mem hbody hc)

/-- **Bodies are nested as deep as the longest chain goes** within the levels. -/
theorem isGreatest_nesting (rules : Rules) (levels : Nat) (s : String) :
    IsGreatest {d | d ≤ levels ∧ ∃ cs, rules.Chain s cs ∧ cs.length = d}
      (rules.nesting levels (Token.scan s)) := by
  refine ⟨⟨nesting_le _ _, exists_chain levels s⟩, ?_⟩
  rintro d ⟨hd, cs, hcs, rfl⟩
  exact hcs.length_le_nesting hd

/-- Where bodies do not use up the levels, no chain goes deeper than they do. -/
theorem Chain.length_le_of_nesting_lt {levels : Nat} {s : String} {cs : List Char}
    (hcs : rules.Chain s cs) (h : rules.nesting levels (Token.scan s) < levels) :
    cs.length ≤ rules.nesting levels (Token.scan s) := by
  refine Nat.not_lt.mp fun hlong => ?_
  -- broken off one letter behind the nesting, the chain is within the levels
  have hwithin : (cs.take (rules.nesting levels (Token.scan s) + 1)).length ≤ levels := by
    rw [List.length_take]
    omega
  have hshort := (hcs.take _).length_le_nesting hwithin
  rw [List.length_take] at hshort
  omega

end Rules

/-! ### Levels that no walk comes to -/

namespace Grammar

variable {g : Grammar}

/-- **Levels beyond the chains make no difference** to a walk. -/
theorem walkScript_eq_of_chain : ∀ {levels room : Nat} (depth : Nat) {s : String}, room ≤ levels →
    (∀ cs, g.rules.Chain s cs → cs.length ≤ room) →
      g.walkScript levels depth s = g.walkScript room depth s
  | 0, 0, _, _, _, _ => rfl
  | levels + 1, 0, depth, s, _, h => by
    rw [walkScript, walkScript]
    congr 1
    refine List.flatMap_congr fun t ht => ?_
    cases hbody : t.body? g with
    | none => rfl
    | some body =>
      rw [Token.body?_eq_replacement?] at hbody
      have hnil : g.rules.Chain body [] := trivial
      obtain ⟨c, hchain⟩ := hnil.cons ht hbody
      exact absurd (h _ hchain) (Nat.not_succ_le_zero _)
  | levels + 1, room + 1, depth, s, hroom, h => by
    rw [walkScript, walkScript]
    congr 1
    refine List.flatMap_congr fun t ht => ?_
    cases hbody : t.body? g with
    | none => rfl
    | some body =>
      rw [Token.body?_eq_replacement?] at hbody
      have hinner : g.walkScript levels (depth + 1) body = g.walkScript room (depth + 1) body := by
        refine walkScript_eq_of_chain (depth + 1) (Nat.le_of_succ_le_succ hroom) fun cs hcs => ?_
        obtain ⟨c, hchain⟩ := hcs.cons ht hbody
        exact Nat.le_of_succ_le_succ (h _ hchain)
      simp only [hinner]

theorem walkScript_withEvaluationDepth (n : UInt32) : ∀ levels depth : Nat,
    (g.withEvaluationDepth n).walkScript levels depth = g.walkScript levels depth
  | 0, _ => rfl
  | levels + 1, depth => by
    funext s
    simp only [walkScript, walkScript_withEvaluationDepth n levels]
    rfl

/-- The script is the same at every evaluation depth that leaves room for the open bodies. -/
theorem script_withEvaluationDepth (maxExpansion : Option Nat)
    (hless : g.openBodies .recursive < g.evaluationDepth.toNat) {n : UInt32}
    (hn : g.openBodies .recursive ≤ n.toNat) :
    (g.withEvaluationDepth n).script .recursive maxExpansion =
      g.script .recursive maxExpansion := by
  have hchains : ∀ cs, g.rules.Chain g.start cs → cs.length ≤ g.openBodies .recursive :=
    fun cs hcs => hcs.length_le_of_nesting_lt hless
  calc (g.withEvaluationDepth n).script .recursive maxExpansion
    _ = g.walkScript n.toNat 0 g.start :=
      congrFun (walkScript_withEvaluationDepth n n.toNat 0) g.start
    _ = g.walkScript (g.openBodies .recursive) 0 g.start := walkScript_eq_of_chain 0 hn hchains
    _ = g.walkScript g.evaluationDepth.toNat 0 g.start :=
      (walkScript_eq_of_chain 0 (Nat.le_of_lt hless) hchains).symm

end Grammar

/-! ### Renderings that do not use up their depth -/

section

variable {σ : Type} [LineSink σ]

theorem perform_withEvaluationDepth (config : RenderConfig σ) (g : Grammar) (n : UInt32) :
    ∀ es : List Event, perform config (g.withEvaluationDepth n) es = perform config g es
  | [] => rfl
  | e :: es => by
    have hevent : e.perform config (g.withEvaluationDepth n) = e.perform config g := by
      cases e with
      | act t => cases t <;> rfl
      | _ => rfl
    rw [perform, perform, hevent, perform_withEvaluationDepth config g n es]

theorem render_saturated (config : RenderConfig σ) (hstrategy : config.strategy = .recursive)
    (g : Grammar) (sink : σ) (hless : g.openBodies .recursive < g.evaluationDepth.toNat)
    {n : UInt32} (hn : g.openBodies .recursive ≤ n.toNat) :
    config.render (g.withEvaluationDepth n) sink = config.render g sink := by
  rw [render_eq_outcome, render_eq_outcome, perform_withEvaluationDepth, hstrategy,
    Grammar.script_withEvaluationDepth config.maxExpansion hless hn]
  rfl

theorem maxRecursion_of_ok (config : RenderConfig σ) (hstrategy : config.strategy = .recursive)
    (g : Grammar) (sink : σ) {stats : RenderStats} (h : (config.render g sink).1 = .ok stats) :
    stats.maxRecursion = g.openBodies .recursive := by
  obtain ⟨-, hdeepest⟩ := counts_of_render_ok config g sink h
  rw [hstrategy] at hdeepest
  exact hdeepest.trans (g.script_none .recursive).2.1

/-- **What a rendering reports as its recursion, and what follows from it.** A rendering that follows
the rules as it walks and succeeds reports the length of a longest chain of letters with rules that
leads on from the start and is no longer than the evaluation depth. If this is less than the
evaluation depth, the rendering hands its sink the same calls and returns the same counts at every
depth that is not below what it has reported. -/
theorem render_maxRecursion (config : RenderConfig σ) (hstrategy : config.strategy = .recursive)
    (g : Grammar) (sink : σ) {stats : RenderStats} (h : (config.render g sink).1 = .ok stats) :
    IsGreatest {d | d ≤ g.evaluationDepth.toNat ∧ ∃ cs, g.rules.Chain g.start cs ∧ cs.length = d}
      stats.maxRecursion ∧
    (stats.maxRecursion < g.evaluationDepth.toNat →
      ∀ n : UInt32, stats.maxRecursion ≤ n.toNat →
        config.render (g.withEvaluationDepth n) sink = config.render g sink ∧
          config.record (g.withEvaluationDepth n) sink = config.record g sink) := by
  rw [maxRecursion_of_ok config hstrategy g sink h]
  refine ⟨g.rules.isGreatest_nesting g.evaluationDepth.toNat g.start, fun hless n hn => ?_⟩
  have hreplay : (config.comap (.replay sink)).strategy = .recursive := hstrategy
  refine ⟨render_saturated config hstrategy g sink hless hn, ?_⟩
  unfold RenderConfig.record
  rw [render_saturated _ hreplay g #[] hless hn]

/-- Two rules of which one leads on to the other, at the depth that they just fill. -/
theorem render_maxRecursion_filled :
    let g := (((Grammar.ofStart "xB+A").withRule 'A' "F[B]").withRule 'B' "2C").withEvaluationDepth 7
    let config : RenderConfig (Array PathCommand) := { maxCommands := some 10 }
    (config.render g #[]).1 = .ok ⟨10, 1, 2, 2⟩ ∧
    IsGreatest {d | d ≤ 7 ∧ ∃ cs, g.rules.Chain "xB+A" cs ∧ cs.length = d} 2 ∧
    config.render (g.withEvaluationDepth 2) #[] = config.render g #[] := by
  intro g config
  have hok : (config.render g #[]).1 = .ok ⟨10, 1, 2, 2⟩ := by
    dsimp only [g, config]
    rfl
  obtain ⟨hgreatest, hsaturated⟩ := render_maxRecursion config rfl g #[] hok
  exact ⟨hok, hgreatest, (hsaturated (by decide) 2 (by decide)).1⟩

end
end LSystem
