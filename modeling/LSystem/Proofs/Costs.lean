/-
# What the strategies cost

A walk makes a check for every token that it comes to, also for one whose body it opens, and the
turtle acts on the marks around the body instead of that token. So it acts on one token for every
check and on one more for every body (`Grammar.length_figure_recursive`).

These tokens are as many as a derivation of that many passes holds, but not always the same. Digits
that wait at the end of a body reach a turn behind it in the derivation, which changes its multiplier
and no more (`Rules.length_unrolled_append`). And a small letter that would get a rule by being
written in upper case is left out by hypothesis; a pass writes none, so it leaves them out of every
later string, too (`Rules.CaseStable.pass`). Then a pass takes one level off
(`Rules.length_unrolled_pass`).

An expansion makes a check for every token of every string on its way, and then one for every token of
the last string. So it makes all the checks of a walk and more, and a limit that it keeps to is kept
to by the walk (`render_costs`).

Key definitions: `Event.opensBody`, `Tallied`, `Grammar.expansions`.
Key theorems: `Grammar.length_figure_recursive`, `Rules.length_unrolled_pass`,
`Grammar.length_scan_derive`, `Grammar.count_check_materialized`, `exists_ok_outcome_iff`,
`render_costs`.
-/
import Mathlib.Algebra.BigOperators.Group.Finset.Basic
import LSystem.Proofs.Calls
import LSystem.Proofs.GuardedDerivation
import LSystem.Proofs.PreExpansion

namespace LSystem

/-! ### What a walk acts on -/

/-- An event that tells of a rule body that has been opened. -/
def Event.opensBody : Event → Bool
  | reach depth => depth != 0
  | _ => false

/-- The turtle acts on a token for every check and on one more for every body that is opened. -/
def Tallied (es : List Event) : Prop :=
  (acted es).length = es.count .check + es.countP (·.opensBody)

theorem Tallied.append {es fs : List Event} (hes : Tallied es) (hfs : Tallied fs) :
    Tallied (es ++ fs) := by
  unfold Tallied at *
  rw [acted_append, List.length_append, List.count_append, List.countP_append]
  omega

theorem Tallied.flatMap {f : Token → List Event} (hf : ∀ t, Tallied (f t)) :
    ∀ ts : List Token, Tallied (ts.flatMap f)
  | [] => rfl
  | t :: ts => by
    rw [List.flatMap_cons]
    exact (hf t).append (flatMap hf ts)

theorem tallied_check_act (t : Token) : Tallied [.check, .act t] := rfl

/-- The two marks make up for the token that is replaced and for its body. -/
theorem Tallied.enclosed {es : List Event} (h : Tallied es) (depth : Nat) :
    Tallied (.check :: .act .enterScale :: (.reach (depth + 1) :: es ++ [.act .exitScale])) := by
  unfold Tallied at *
  simp only [List.cons_append, acted, acted_append, List.length_cons, List.length_append,
    List.count_cons, List.count_append, List.countP_cons, List.countP_append]
  simp [h, Event.opensBody]
  omega

namespace Grammar

variable (g : Grammar)

theorem walkScript_eq_cons (levels depth : Nat) (s : String) :
    g.walkScript levels depth s = .reach depth :: (g.walkScript levels depth s).tail := by
  cases levels <;> rfl

theorem tallied_tail_walkScript : ∀ (levels depth : Nat) (s : String),
    Tallied (g.walkScript levels depth s).tail
  | 0, depth, s => Tallied.flatMap tallied_check_act (Token.scan s)
  | levels + 1, depth, s => by
    refine Tallied.flatMap (fun t => ?_) (Token.scan s)
    cases t.body? g with
    | none => exact tallied_check_act t
    | some body =>
      simp only
      rw [walkScript_eq_cons]
      exact (tallied_tail_walkScript levels (depth + 1) body).enclosed depth

/-- How many bodies a rendering opens that follows the rules as it walks. -/
def expansions : Nat := (g.script .recursive none).countP (·.opensBody)

/-- **A walk acts on as many tokens as it makes checks and opens bodies.** -/
theorem length_figure_recursive :
    (g.figure .recursive).length = (g.script .recursive none).count .check + g.expansions := by
  have htally : Tallied (g.script .recursive none) := by
    rw [script, walkScript_eq_cons]
    exact g.tallied_tail_walkScript g.evaluationDepth.toNat 0 g.start
  rw [← (g.script_none .recursive).1]
  exact htally

end Grammar

namespace Rules

variable {rules : Rules}

/-! ### How many tokens a string is opened to -/

theorem length_unrolled_ofChar? (levels pending : Nat) (c : Char) :
    (rules.unrolled levels (Token.ofChar? pending c).toList).length =
      (rules.unrolled levels (Token.ofChar? 0 c).toList).length := by
  have hturn (d : Direction) (multiplier : Nat) :
      (rules.unrolled levels [.turn d multiplier]).length = 1 := by rw [unrolled_singleton rfl]; rfl
  unfold Token.ofChar?
  split
  case h_1 | h_2 => exact (hturn _ _).trans (hturn _ _).symm
  all_goals rfl

theorem length_unrolled_tokensAfter (levels : Nat) : ∀ (cs : List Char) (pending : Nat),
    (rules.unrolled levels (Scanner.tokensAfter pending cs)).length =
      (rules.unrolled levels (Scanner.tokensAfter 0 cs)).length
  | [], _ => rfl
  | c :: cs, pending => by
    rw [Scanner.tokensAfter_cons, Scanner.tokensAfter_cons, unrolled_append, unrolled_append,
      List.length_append, List.length_append, length_unrolled_ofChar? levels pending,
      length_unrolled_tokensAfter levels cs (Scanner.pendingAfter pending c),
      length_unrolled_tokensAfter levels cs (Scanner.pendingAfter 0 c)]

/-- Two strings in a row are opened to as many tokens as each of them alone, also where the digits
of the first one wait for a turn in the second. -/
theorem length_unrolled_append (levels : Nat) (a b : String) :
    (rules.unrolled levels (Token.scan (a ++ b))).length =
      (rules.unrolled levels (Token.scan a)).length +
        (rules.unrolled levels (Token.scan b)).length := by
  rw [Scanner.scan_eq_tokensAfter, String.toList_append, Scanner.tokensAfter_append,
    unrolled_append, List.length_append, length_unrolled_tokensAfter levels b.toList]
  rfl

theorem length_unrolled_image {levels : Nat} {t : Token} (ht : t.Legible)
    (hplain : rules.replacement? t = none → rules.replacement? t.plain = none) :
    (rules.unrolled levels (Token.scan (rules.image t))).length =
      (rules.unrolled (levels + 1) [t]).length := by
  cases hbody : rules.replacement? t with
  | some body =>
    have hopen : rules.unrolled levels (Token.scan "<") = [.enterScale] :=
      unrolled_singleton rfl levels
    have hclose : rules.unrolled levels (Token.scan ">") = [.exitScale] :=
      unrolled_singleton rfl levels
    rw [image_of_replacement? hbody, length_unrolled_append, length_unrolled_append, hopen, hclose]
    simp [unrolled, hbody]
    omega
  | none =>
    rw [image_of_replacement?_eq_none hbody, (closed_and_scan_written ht).2,
      unrolled_singleton (hplain hbody), unrolled_singleton hbody]
    rfl

theorem length_unrolled_foldl_image (levels : Nat) : ∀ (ts : List Token) (out : String),
    (∀ t ∈ ts, t.Legible ∧
      (rules.replacement? t = none → rules.replacement? t.plain = none)) →
      (rules.unrolled levels
          (Token.scan (ts.foldl (fun out t => out ++ rules.image t) out))).length =
        (rules.unrolled levels (Token.scan out)).length + (rules.unrolled (levels + 1) ts).length
  | [], _, _ => rfl
  | t :: ts, out, h => by
    obtain ⟨ht, hplain⟩ := h t List.mem_cons_self
    have hsplit : rules.unrolled (levels + 1) (t :: ts) =
        rules.unrolled (levels + 1) [t] ++ rules.unrolled (levels + 1) ts :=
      rules.unrolled_append [t] ts (levels + 1)
    rw [List.foldl_cons,
      length_unrolled_foldl_image levels ts _ fun u hu => h u (List.mem_cons_of_mem t hu),
      length_unrolled_append, length_unrolled_image ht hplain, hsplit, List.length_append,
      Nat.add_assoc]

/-- **A pass takes one level off**: what it writes is opened to as many tokens with one level
less, whatever digits its bodies leave waiting. -/
theorem length_unrolled_pass {s : String} (h : rules.CaseStable s) (levels : Nat) :
    (rules.unrolled levels (Token.scan (rules.pass s))).length =
      (rules.unrolled (levels + 1) (Token.scan s)).length := by
  have hempty : rules.unrolled levels (Token.scan "") = [] := by cases levels <;> rfl
  rw [pass, length_unrolled_foldl_image levels (Token.scan s) "" fun t ht =>
    ⟨legible_of_mem_scan ht, h.replacement?_plain ht⟩, hempty]
  exact Nat.zero_add _

/-! ### Small letters behind a pass -/

theorem notMem_written {x : Char} (hx : x ∈ ['f', 'g']) (t : Token) : x ∉ t.written.toList := by
  have hsmall : x = 'f' ∨ x = 'g' := by simpa using hx
  cases t with
  | symbol c =>
    rw [Token.written, String.toList_singleton, List.mem_singleton]
    unfold Token.canonical
    rcases hsmall with rfl | rfl <;> grind [Token.isDraw, Token.isMove]
  | turn d multiplier =>
    have hsign : x ≠ d.symbol := by rcases hsmall with rfl | rfl <;> cases d <;> decide
    have hdigit : x.isDigit = false := by rcases hsmall with rfl | rfl <;> decide
    have hdigits : x ∉ Decimal.digits multiplier := fun hmem => by
      rw [Decimal.isDigit_of_mem_digits hmem] at hdigit
      cases hdigit
    by_cases hzero : multiplier = 0 <;> simp [Token.written, hzero, hsign, hdigits]
  | _ => rcases hsmall with rfl | rfl <;> decide

theorem CaseStable.pass (hbodies : ∀ e ∈ rules.entries, rules.CaseStable e.2) (s : String) :
    rules.CaseStable (rules.pass s) := by
  intro x hx hnone hsome hmem
  rw [Rules.pass, toList_foldl_image, String.toList_empty, List.nil_append,
    List.mem_flatMap] at hmem
  obtain ⟨t, -, hmem⟩ := hmem
  cases hbody : rules.replacement? t with
  | some body =>
    have hmarks : x ≠ '<' ∧ x ≠ '>' := by
      constructor <;> rintro rfl <;> exact absurd hx (by decide)
    have hinner : x ∈ body.toList := by
      simpa [image_of_replacement? hbody, hmarks] using hmem
    obtain ⟨e, he, rfl⟩ := exists_entry_of_replacement? hbody
    exact hbodies e he x hx hnone hsome hinner
  | none =>
    rw [image_of_replacement?_eq_none hbody] at hmem
    exact notMem_written hx t hmem

/-- The passes of a derivation take a level off each. -/
theorem length_unrolled_derive (hbodies : ∀ e ∈ rules.entries, rules.CaseStable e.2)
    (levels : Nat) : ∀ (n : Nat) {s : String}, rules.CaseStable s →
      (rules.unrolled levels (Token.scan (rules.derive n s))).length =
        (rules.unrolled (levels + n) (Token.scan s)).length
  | 0, _, _ => rfl
  | n + 1, s, h => by
    rw [derive, length_unrolled_derive hbodies levels n (CaseStable.pass hbodies s),
      length_unrolled_pass h]
    rfl

/-! ### The checks of an expansion -/

/-- An expansion makes a check for every token that it passes over. -/
theorem count_check_deriveScript (rules : Rules) (next : String → List Event) :
    ∀ (n : Nat) (s : String), (rules.deriveScript none next n s).count .check =
      ∑ k ∈ Finset.range n, (Token.scan (rules.derive k s)).length +
        (next (rules.derive n s)).count .check
  | 0, _ => (Nat.zero_add _).symm
  | n + 1, s => by
    rw [deriveScript, passScript_none, List.count_append, List.count_replicate_self,
      Finset.sum_range_succ']
    -- the first summand is the string itself, the others are the derivations of its pass
    change _ + ((rules.deriveScript none next n (rules.pass s)).count .check) = _
    rw [count_check_deriveScript rules next n (rules.pass s)]
    simp only [derive]
    omega

end Rules

namespace Grammar

variable (g : Grammar)

theorem count_check_walkScript_zero (depth : Nat) (s : String) :
    (g.walkScript 0 depth s).count .check = (Token.scan s).length := by
  rw [walkScript]
  induction Token.scan s with
  | nil => rfl
  | cons t ts ih => simpa using ih

/-- **An expansion that is walked makes a check for every token of every string** on its way, the
start and the last one included. -/
theorem count_check_materialized :
    (g.script .materialized none).count .check =
      ∑ k ∈ Finset.range (g.evaluationDepth.toNat + 1), (Token.scan (g.derive k)).length := by
  rw [script, Rules.count_check_deriveScript, count_check_walkScript_zero, Finset.sum_range_succ]
  rfl

/-- **A derivation holds as many tokens as a walk makes checks and opens bodies.** -/
theorem length_scan_derive (hstart : g.rules.CaseStable g.start)
    (hbodies : ∀ e ∈ g.rules.entries, g.rules.CaseStable e.2) :
    (Token.scan (g.derive g.evaluationDepth.toNat)).length =
      (g.script .recursive none).count .check + g.expansions := by
  have h := Rules.length_unrolled_derive hbodies 0 g.evaluationDepth.toNat hstart
  rw [Nat.zero_add] at h
  exact h.trans g.length_figure_recursive

theorem count_check_recursive_le (hstart : g.rules.CaseStable g.start)
    (hbodies : ∀ e ∈ g.rules.entries, g.rules.CaseStable e.2) :
    (g.script .recursive none).count .check ≤ (g.script .materialized none).count .check := by
  rw [count_check_materialized, Finset.sum_range_succ, g.length_scan_derive hstart hbodies]
  omega

end Grammar

/-! ### Limits on the checks -/

section

variable {σ : Type} [LineSink σ]

/-- Without a flag, events come to their end if and only if none of them is a failure and their
checks are within the limit. -/
theorem exists_ok_outcome_iff (config : RenderConfig σ) (hcancel : config.cancel = none)
    (g : Grammar) : ∀ (es : List Event) (s : RenderState σ), config.overrun s.commands = none →
      ((∃ stats, (outcome (perform config g es s)).1 = .ok stats) ↔
        (∀ e, .fail e ∉ es) ∧ config.overrun (s.commands + es.count .check) = none)
  | [], s, h => ⟨fun _ => ⟨fun _ => List.not_mem_nil, h⟩, fun _ => ⟨s.stats, rfl⟩⟩
  | .check :: es, s, h => by
    rw [perform_check, verdict_of_cancel_eq_none config hcancel, List.count_cons_self,
      Nat.add_comm (es.count _), ← Nat.add_assoc]
    cases hnext : config.overrun (s.commands + 1) with
    | some e =>
      -- if this check is one too many, so is the last one
      have hlast := RenderConfig.overrun_mono (Nat.le_add_right _ (es.count .check)) hnext
      simp [hlast, outcome]
    | none =>
      have ih := exists_ok_outcome_iff config hcancel g es
        { s with commands := s.commands + 1 } hnext
      simpa using ih
  | .act k :: es, s, h => by
    have ih := exists_ok_outcome_iff config hcancel g es { s with turtle := k.act g s.turtle } h
    rw [perform_act, List.count_cons_of_ne (by simp)]
    simpa using ih
  | .reach depth :: es, s, h => by
    have ih := exists_ok_outcome_iff config hcancel g es
      { s with maxRecursion := max s.maxRecursion depth } h
    change (∃ stats, (outcome (perform config g es _)).1 = .ok stats) ↔ _
    rw [List.count_cons_of_ne (by simp)]
    simpa using ih
  | .fail e :: es, s, _ =>
    ⟨fun ⟨_, h⟩ => (nomatch h), fun ⟨h, _⟩ => absurd List.mem_cons_self (h e)⟩

theorem exists_ok_render_iff (config : RenderConfig σ) (hcancel : config.cancel = none)
    (g : Grammar) (sink : σ) : (∃ stats, (config.render g sink).1 = .ok stats) ↔
      (∀ e, .fail e ∉ g.script config.strategy config.maxExpansion) ∧
        config.overrun ((g.script config.strategy config.maxExpansion).count .check) = none := by
  have h := exists_ok_outcome_iff config hcancel g
    (g.script config.strategy config.maxExpansion) (.initial g sink) config.overrun_zero
  rw [show (RenderState.initial g sink).commands = 0 from rfl, Nat.zero_add] at h
  rw [render_eq_outcome, h]

theorem exists_render_commands (strategy : Strategy) (g : Grammar) (sink : σ) :
    ∃ stats, (({ strategy } : RenderConfig σ).render g sink).1 = .ok stats ∧
      stats.commands = (g.script strategy none).count .check := by
  obtain ⟨_, hrender⟩ := render_eq_figure strategy g sink
  have hok := congrArg Prod.fst hrender
  exact ⟨_, hok, (counts_of_render_ok _ g sink hok).1⟩

/-- **What the strategies cost.** In the start and the bodies of the grammar, no drawing or moving
letter without a rule gets one by being written in upper case. Let `r k` and `m k` be the counts of the
renderings at depth `k` that nothing limits, and let a rendering that follows the rules as it walks
open `expansions` bodies, which are events of the script that it performs. Then the derivation of `k`
passes holds as many tokens as this rendering makes checks and opens bodies. The other strategy makes
as many checks as all derivations up to its depth hold tokens. So if that one completes under some
limits, the walk completes under them, too. -/
theorem render_costs (g : Grammar) (hstart : g.rules.CaseStable g.start)
    (hbodies : ∀ e ∈ g.rules.entries, g.rules.CaseStable e.2) (sink : σ) :
    ∃ r m : UInt32 → RenderStats,
      (∀ k, (({ strategy := .recursive } : RenderConfig σ).render
        (g.withEvaluationDepth k) sink).1 = .ok (r k)) ∧
      (∀ k, (({ strategy := .materialized } : RenderConfig σ).render
        (g.withEvaluationDepth k) sink).1 = .ok (m k)) ∧
      (∀ k, walkGrammar ({ strategy := .recursive } : RenderConfig σ) (g.withEvaluationDepth k) =
        perform { strategy := .recursive } (g.withEvaluationDepth k)
          ((g.withEvaluationDepth k).script .recursive none)) ∧
      (∀ k, (Token.scan (g.rules.derive k.toNat g.start)).length =
        (r k).commands + (g.withEvaluationDepth k).expansions) ∧
      (∀ n, (m n).commands = ∑ k ∈ Finset.range (n.toNat + 1),
        ((r (.ofNat k)).commands + (g.withEvaluationDepth (.ofNat k)).expansions)) ∧
      ∀ (limit : Nat) (maxExpansion : Option Nat),
        (∃ stats, (({ strategy := .materialized, maxCommands := some limit, maxExpansion } :
          RenderConfig σ).render g sink).1 = .ok stats) →
        ∃ stats, (({ strategy := .recursive, maxCommands := some limit, maxExpansion } :
          RenderConfig σ).render g sink).1 = .ok stats := by
  choose r hr hrcommands using fun k =>
    exists_render_commands .recursive (g.withEvaluationDepth k) sink
  choose m hm hmcommands using fun k =>
    exists_render_commands .materialized (g.withEvaluationDepth k) sink
  have htokens (k : UInt32) : (Token.scan (g.rules.derive k.toNat g.start)).length =
      (r k).commands + (g.withEvaluationDepth k).expansions := by
    rw [hrcommands]
    exact (g.withEvaluationDepth k).length_scan_derive hstart hbodies
  refine ⟨r, m, hr, hm, fun k => walkGrammar_eq_perform _ _, htokens, fun n => ?_, ?_⟩
  · rw [hmcommands, Grammar.count_check_materialized]
    refine Finset.sum_congr rfl fun k hk => ?_
    have hword : (UInt32.ofNat k).toNat = k :=
      UInt32.toNat_ofNat_of_lt' (Nat.lt_of_lt_of_le (Finset.mem_range.mp hk) n.toNat_lt)
    rw [← htokens, hword]
    rfl
  · intro limit maxExpansion hok
    rw [exists_ok_render_iff _ rfl] at hok ⊢
    obtain ⟨hfail, hwithin⟩ := hok
    -- an expansion that has kept to its limit makes the checks of the one without
    have hscript : g.script .materialized maxExpansion = g.script .materialized none :=
      g.rules.deriveScript_of_no_fail maxExpansion _ _ _ hfail
    rw [RenderConfig.overrun_eq_none_iff] at hwithin ⊢
    simp only [hscript] at hwithin
    exact ⟨fun e => g.fail_notMem_walkScript e _ 0 _, fun l hl =>
      Nat.le_trans (g.count_check_recursive_le hstart hbodies) (hwithin l hl)⟩

/-- A body whose digits reach the turn behind it, an empty body, and a limit that the expansion
uses up. -/
theorem render_costs_digits :
    let g := (((Grammar.ofStart "A-fB").withRule 'A' "F3").withRule 'B' "").withEvaluationDepth 1
    let limited (strategy : Strategy) : RenderConfig (Array PathCommand) :=
      { strategy, maxCommands := some 11 }
    (∃ r : RenderStats, (({ strategy := .recursive } : RenderConfig (Array PathCommand)).render
        (g.withEvaluationDepth 1) #[]).1 = .ok r ∧
      7 = r.commands + (g.withEvaluationDepth 1).expansions) ∧
    (∃ stats, ((limited .materialized).render g #[]).1 = .ok stats) ∧
    ∃ stats, ((limited .recursive).render g #[]).1 = .ok stats := by
  intro g limited
  obtain ⟨r, -, hr, -, -, htokens, -, hlimit⟩ :=
    render_costs g (by decide) (by decide) (#[] : Array PathCommand)
  have hseven : (Token.scan (g.rules.derive (1 : UInt32).toNat g.start)).length = 7 := by
    dsimp only [g]
    rfl
  have hfull : ∃ stats, ((limited .materialized).render g #[]).1 = .ok stats := by
    have hchecks : (g.script .materialized none).count .check = 11 := by
      rw [Grammar.count_check_materialized]
      change ∑ k ∈ Finset.range 2, _ = 11
      rw [Finset.sum_range_succ, Finset.sum_range_one]
      dsimp only [g]
      rfl
    refine (exists_ok_render_iff (limited .materialized) rfl g #[]).mpr
      ⟨(g.script_none .materialized).2.2, ?_⟩
    show (limited .materialized).overrun ((g.script .materialized none).count .check) = none
    rw [hchecks]
    rfl
  exact ⟨⟨r 1, hr 1, hseven.symm.trans (htokens 1)⟩, hfull, hlimit 11 none hfull⟩

end

end LSystem
