/-
# Text that is not read

A scanner reads letters, the seven marks and digits, and goes past every other character: it gives
no token, and the number that waits for the next turn stays as it is, also when the character
stands between two digits. A pass copies such characters with the body they stand in, and the next
scan goes past them again. So strings that are the same when read have the same tokens
(`scan_congr`) and stay the same when read under every pass
(`Grammar.ReadsAlike.asRead_foldl_image`), and a rule for a character that is no letter is never
asked for. Two grammars that read alike are drawn alike (`render_of_readsAlike`); only a limit on
the length of the expanded string can tell them apart.

Key definitions: `isRead`, `asRead`, `Grammar.ReadsAlike`.
Key theorems: `scan_congr`, `Grammar.ReadsAlike.asRead_foldl_image`, `Grammar.ReadsAlike.script`,
`render_of_readsAlike`.
-/
import LSystem.Proofs.Calls
import LSystem.Proofs.Numerals

namespace LSystem

open Scanner (tokensAfter tokensAfter_cons pendingAfter)

/-! ### Characters that are read -/

/-- The characters that are read: letters, marks and digits. -/
def isRead (c : Char) : Bool := inAlphabet c || c.isDigit

/-- What is read of a string. -/
def asRead (s : String) : List Char := s.toList.filter isRead

theorem asRead_append (a b : String) : asRead (a ++ b) = asRead a ++ asRead b := by
  rw [asRead, String.toList_append, List.filter_append]
  rfl

theorem ofChar?_of_not_isRead (pending : Nat) {c : Char} (h : isRead c = false) :
    Token.ofChar? pending c = none := by
  have hout : inAlphabet c = false := (Bool.or_eq_false_iff.mp h).1
  have hnil := forall₂_standsFor_ofChar? pending c
  rw [List.filter_cons_of_neg (by simp [hout]), List.filter_nil, List.forall₂_nil_left_iff] at hnil
  exact Option.toList_eq_nil_iff.mp hnil

theorem pendingAfter_of_not_isRead (pending : Nat) {c : Char} (h : isRead c = false) :
    pendingAfter pending c = pending := by
  have hdigit : c.isDigit = false := (Bool.or_eq_false_iff.mp h).2
  have hturn : ¬ (c = '+' || c = '-') = true := by
    intro hc
    have hc : c = '+' ∨ c = '-' := by simpa using hc
    rcases hc with rfl | rfl <;> exact absurd h (by decide)
  rw [pendingAfter, hdigit, if_neg Bool.false_ne_true, if_neg hturn]

theorem tokensAfter_filter_isRead : ∀ (cs : List Char) (pending : Nat),
    tokensAfter pending (cs.filter isRead) = tokensAfter pending cs
  | [], _ => rfl
  | c :: cs, pending => by
    rw [tokensAfter_cons, ← tokensAfter_filter_isRead cs]
    cases h : isRead c with
    | true => rw [List.filter_cons_of_pos h, tokensAfter_cons]
    | false =>
      rw [List.filter_cons_of_neg (by simp [h]), ofChar?_of_not_isRead pending h,
        pendingAfter_of_not_isRead pending h, Option.toList_none, List.nil_append]

/-- **Strings that are the same when read have the same tokens.** -/
theorem scan_congr {s s' : String} (h : asRead s = asRead s') : Token.scan s = Token.scan s' := by
  rw [Scanner.scan_eq_tokensAfter, Scanner.scan_eq_tokensAfter, ← tokensAfter_filter_isRead s.toList,
    ← tokensAfter_filter_isRead s'.toList]
  exact congrArg (tokensAfter 0) h

/-! ### Grammars that read alike -/

/-- Grammars with equal measures and depth whose starts, and whose bodies for each letter, are the
same when read. They may have any rules for other characters. -/
structure Grammar.ReadsAlike (g g' : Grammar) : Prop where
  start : asRead g.start = asRead g'.start
  bodies : ∀ c : Char, c.isAlpha = true → (g.body? c).map asRead = (g'.body? c).map asRead
  initialHeading : g.initialHeading = g'.initialHeading
  stepLength : g.stepLength = g'.stepLength
  turnAngle : g.turnAngle = g'.turnAngle
  depthScale : g.depthScale = g'.depthScale
  evaluationDepth : g.evaluationDepth = g'.evaluationDepth

namespace Grammar.ReadsAlike

variable {g g' : Grammar}

theorem map_asRead_body? (h : g.ReadsAlike g') {t : Token} (ht : t.Legible) :
    (t.body? g).map asRead = (t.body? g').map asRead := by
  cases t with
  | symbol c => exact h.bodies c ht
  | _ => rfl

theorem asRead_image (h : g.ReadsAlike g') {t : Token} (ht : t.Legible) :
    asRead (g.rules.image t) = asRead (g'.rules.image t) := by
  cases t with
  | symbol c =>
    have hbody : (g.rules.body? c).map asRead = (g'.rules.body? c).map asRead := h.bodies c ht
    simp only [Rules.image]
    cases hc : g.rules.body? c with
    | some body =>
      rw [hc] at hbody
      obtain ⟨body', hc', hread⟩ := Option.map_eq_some_iff.mp hbody.symm
      rw [hc', asRead_append, asRead_append, asRead_append, asRead_append, hread]
    | none =>
      rw [hc] at hbody
      rw [Option.map_eq_none_iff.mp hbody.symm]
  | _ => rfl

theorem asRead_foldl_image (h : g.ReadsAlike g') : ∀ (ts : List Token) {out out' : String},
    (∀ t ∈ ts, t.Legible) → asRead out = asRead out' →
      asRead (ts.foldl (fun out t => out ++ g.rules.image t) out) =
        asRead (ts.foldl (fun out t => out ++ g'.rules.image t) out')
  | [], _, _, _, hout => hout
  | t :: ts, out, out', hts, hout => by
    refine asRead_foldl_image h ts (fun u hu => hts u (List.mem_cons_of_mem t hu)) ?_
    rw [asRead_append, asRead_append, hout, h.asRead_image (hts t List.mem_cons_self)]

theorem deriveScript (h : g.ReadsAlike g') {next next' : String → List Event}
    (hnext : ∀ {s s' : String}, asRead s = asRead s' → next s = next' s') :
    ∀ (n : Nat) {s s' : String}, asRead s = asRead s' →
      g.rules.deriveScript none next n s = g'.rules.deriveScript none next' n s'
  | 0, _, _, hs => hnext hs
  | n + 1, s, s', hs => by
    rw [Rules.deriveScript, Rules.deriveScript, Rules.passScript_none, Rules.passScript_none,
      scan_congr hs]
    -- both passes go over the same tokens, so both make as many checks
    exact congrArg _ (h.deriveScript hnext n
      (h.asRead_foldl_image _ (fun _ => legible_of_mem_scan) rfl))

theorem walkScript (h : g.ReadsAlike g') : ∀ (levels depth : Nat) {s s' : String},
    asRead s = asRead s' → g.walkScript levels depth s = g'.walkScript levels depth s'
  | 0, depth, s, s', hs => by rw [Grammar.walkScript, Grammar.walkScript, scan_congr hs]
  | levels + 1, depth, s, s', hs => by
    rw [Grammar.walkScript, Grammar.walkScript, scan_congr hs]
    congr 1
    refine List.flatMap_congr fun t ht => ?_
    have hbody := h.map_asRead_body? (legible_of_mem_scan ht)
    cases hopen : t.body? g with
    | some body =>
      rw [hopen] at hbody
      obtain ⟨body', hopen', hread⟩ := Option.map_eq_some_iff.mp hbody.symm
      simp only [hopen', h.walkScript levels (depth + 1) hread.symm]
    | none =>
      rw [hopen] at hbody
      rw [Option.map_eq_none_iff.mp hbody.symm]

/-- **Grammars that read alike have the same script**, whatever the strategy. -/
theorem script (h : g.ReadsAlike g') (strategy : Strategy) :
    g.script strategy none = g'.script strategy none := by
  unfold Grammar.script
  rw [h.evaluationDepth]
  cases strategy with
  | recursive => exact h.walkScript _ 0 h.start
  | materialized => exact h.deriveScript (fun hs => h.walkScript 0 0 hs) _ h.start

variable {σ : Type} [LineSink σ]

theorem act (h : g.ReadsAlike g') {τ : Type} [LineSink τ] (t : Turtle τ) (k : Token) :
    k.act g t = k.act g' t := by
  simp only [Token.act, h.stepLength, h.turnAngle]

theorem perform (h : g.ReadsAlike g') (config : RenderConfig σ) : ∀ es : List Event,
    LSystem.perform config g es = LSystem.perform config g' es
  | [] => rfl
  | e :: es => by
    have he : e.perform config g = e.perform config g' := by
      cases e with
      | act k => exact congrArg drive (funext fun t => h.act t k)
      | _ => rfl
    rw [LSystem.perform, he, h.perform config es, LSystem.perform]

theorem initial (h : g.ReadsAlike g') (sink : σ) :
    RenderState.initial g sink = RenderState.initial g' sink := by
  simp only [RenderState.initial, h.depthScale, h.initialHeading]

end Grammar.ReadsAlike

section

variable {σ : Type} [LineSink σ]

theorem Grammar.ReadsAlike.render {g g' : Grammar} (h : g.ReadsAlike g') {config : RenderConfig σ}
    (hlimit : config.maxExpansion = none) (sink : σ) :
    config.render g sink = config.render g' sink := by
  rw [render_eq_outcome, render_eq_outcome, hlimit, h.script, h.perform, h.initial]

/-- **Text that is not read is not drawn.** Two grammars that read alike are drawn alike when the
length of the expanded string has no limit: by either strategy, under any limit on the commands and
any flag, the sink gets the same calls, and both renderings end with the same sink and the same
counts or the same error. -/
theorem render_of_readsAlike {g g' : Grammar} (h : g.ReadsAlike g') {config : RenderConfig σ}
    (hlimit : config.maxExpansion = none) (sink : σ) :
    config.record g sink = config.record g' sink ∧
      config.render g sink = config.render g' sink := by
  have hreplay : (config.comap (.replay sink)).maxExpansion = none := hlimit
  refine ⟨?_, h.render hlimit sink⟩
  unfold RenderConfig.record
  rw [h.render hreplay]

/-- A number interrupted by what is not read, also across the end of a body, a body of which nothing
is read, and a rule for a character that is not read. -/
theorem render_of_readsAlike_strewn :
    let g :=
      (((Grammar.ofStart "1.é2+F F-").withRule 'F' "F[1 0X]2½").withRule 'X' "∅").withRule 'é' "F"
    let g' := ((Grammar.ofStart "12+FF-").withRule 'F' "F[10X]2").withRule 'X' ""
    let config : RenderConfig (Array PathCommand) :=
      { strategy := .materialized, maxCommands := some 99 }
    g.ReadsAlike g' ∧ config.maxExpansion = none ∧
      config.record g #[] = config.record g' #[] ∧ config.render g #[] = config.render g' #[] := by
  intro g g' config
  have hread : g.ReadsAlike g' := by
    refine ⟨by decide, fun c hc => ?_, rfl, rfl, rfl, rfl, rfl⟩
    by_cases hF : c = 'F'
    · rw [hF]
      decide
    · by_cases hX : c = 'X'
      · rw [hX]
        decide
      · have hne : c ≠ 'é' := by
          rintro rfl
          exact absurd hc (by decide)
        simp [g, g', Grammar.body?, Grammar.withRule, Grammar.ofStart, Rules.body?_insert_ne, hF, hX,
          hne]
  exact ⟨hread, rfl, render_of_readsAlike hread rfl #[]⟩

end
end LSystem
