/-
# Expanding before rendering

Passes over the start can stand for levels of the walk: what is drawn does not change when some
levels are done by passes beforehand (`render_expanded`), and with all of them done so, both
strategies draw the same (`render_strategies`). Two things can come between. A rule body that
leaves digits waiting hands them to the turn behind it, where a walk forgets them. And a drawing
or moving letter without a rule is written in upper case, where a later pass may find a rule for
it. `strategies_differ` shows both.

A pass over a string without these, one that is `Rules.Expandable`, takes one level off: the
tokens behind it, opened one level less, are those before it up to the case of such letters
(`Rules.unrolled_pass`). The passes of a derivation follow by induction.

Key definitions: `Rules.Expandable`, `Rules.CaseStable`, `Grammar.Opens`,
`Grammar.SelfContained`, `Grammar.expanded`.
Key theorems: `Rules.unrolled_pass`, `Rules.unrolled_derive`, `Grammar.expandable_of_opens`,
`render_of_expandable`, `render_strategies`, `render_expanded`.
-/
import LSystem.Grammar.Preset
import LSystem.Proofs.Closed
import LSystem.Proofs.Figure

namespace LSystem

/-! ### Plain tokens act alike -/

theorem Token.canonical_canonical (c : Char) : canonical (canonical c) = canonical c := by
  unfold canonical
  grind [isDraw, isMove]

@[simp] theorem Token.plain_plain : ∀ t : Token, t.plain.plain = t.plain
  | symbol c => congrArg symbol (canonical_canonical c)
  | turn _ _ | push | pop | enterScale | exitScale | forcedDraw => rfl

/-- A drawing or moving letter acts alike in both cases. -/
theorem Token.act_plain {τ : Type} [LineSink τ] (g : Grammar) (turtle : Turtle τ) :
    ∀ t : Token, t.plain.act g turtle = t.act g turtle
  | symbol c => by
    have hdraw : isDraw (canonical c) = isDraw c := by grind [canonical, isDraw, isMove]
    have hmove : isMove (canonical c) = isMove c := by grind [canonical, isDraw, isMove]
    simp only [plain, act, hdraw, hmove]
  | turn _ _ | push | pop | enterScale | exitScale | forcedDraw => rfl

theorem Turtle.follow_congr {τ : Type} [LineSink τ] (g : Grammar) {ts us : List Token}
    (h : ts.map Token.plain = us.map Token.plain) (turtle : Turtle τ) :
    turtle.follow g ts = turtle.follow g us := by
  have hplain (ts : List Token) : turtle.follow g (ts.map Token.plain) = turtle.follow g ts := by
    simp only [follow, List.foldl_map, Token.act_plain]
  calc turtle.follow g ts
    _ = turtle.follow g (ts.map Token.plain) := (hplain ts).symm
    _ = turtle.follow g (us.map Token.plain) := by rw [h]
    _ = turtle.follow g us := hplain us

namespace Rules

variable (rules : Rules)

/-! ### Opening bodies token by token -/

theorem unrolled_append (ts us : List Token) : ∀ levels : Nat,
    rules.unrolled levels (ts ++ us) = rules.unrolled levels ts ++ rules.unrolled levels us
  | 0 => rfl
  | _ + 1 => List.flatMap_append

theorem nesting_cons (t : Token) (ts : List Token) : ∀ levels : Nat,
    rules.nesting levels (t :: ts) = max (rules.nesting levels [t]) (rules.nesting levels ts)
  | 0 => rfl
  | levels + 1 => by simp [nesting]

theorem nesting_append (us : List Token) (levels : Nat) : ∀ ts : List Token,
    rules.nesting levels (ts ++ us) = max (rules.nesting levels ts) (rules.nesting levels us)
  | [] => by cases levels <;> simp [nesting]
  | t :: ts => by
    rw [List.cons_append, nesting_cons, nesting_append us levels ts, nesting_cons rules t ts,
      Nat.max_assoc]

variable {rules}

theorem unrolled_singleton {t : Token} (h : rules.replacement? t = none) : ∀ levels : Nat,
    rules.unrolled levels [t] = [t]
  | 0 => rfl
  | _ + 1 => by simp [unrolled, h]

theorem nesting_singleton {t : Token} (h : rules.replacement? t = none) : ∀ levels : Nat,
    rules.nesting levels [t] = 0
  | 0 => rfl
  | _ + 1 => by simp [nesting, h]

theorem unrolled_enclosed (ts : List Token) : ∀ levels : Nat,
    rules.unrolled levels (.enterScale :: (ts ++ [.exitScale])) =
      .enterScale :: (rules.unrolled levels ts ++ [.exitScale])
  | 0 => rfl
  | _ + 1 => by simp [unrolled, replacement?]

theorem nesting_enclosed (ts : List Token) (levels : Nat) :
    rules.nesting levels (.enterScale :: (ts ++ [.exitScale])) = rules.nesting levels ts := by
  rw [nesting_cons, nesting_append, nesting_singleton rfl, nesting_singleton rfl]
  omega

/-! ### What a pass writes for a token -/

theorem image_of_replacement? {t : Token} {body : String} (h : rules.replacement? t = some body) :
    rules.image t = "<" ++ body ++ ">" := by
  cases t with
  | symbol c =>
    have hc : rules.body? c = some body := h
    simp [image, hc]
  | _ => exact absurd h nofun

theorem image_of_replacement?_eq_none {t : Token} (h : rules.replacement? t = none) :
    rules.image t = t.written := by
  cases t with
  | symbol c =>
    have hc : rules.body? c = none := h
    simp [image, hc]
  | _ => rfl

theorem exists_entry_of_replacement? {t : Token} {body : String}
    (h : rules.replacement? t = some body) : ∃ e ∈ rules.entries, e.2 = body := by
  cases t with
  | symbol c =>
    obtain ⟨e, he, rfl⟩ := Option.map_eq_some_iff.mp h
    exact ⟨e, List.mem_of_find?_eq_some he, rfl⟩
  | _ => cases h

/-! ### One pass takes one level off -/

variable (rules) in
/-- A walk of `s`, `levels` deep, opens closed bodies only; and above its two last levels, a
letter without a rule has none in its written form either. -/
def Expandable : Nat → String → Prop
  | 0, _ => True
  | levels + 1, s => ∀ t ∈ Token.scan s,
    (∀ body, rules.replacement? t = some body → Closed body ∧ Expandable levels body) ∧
      (levels ≠ 0 → rules.replacement? t = none → rules.replacement? t.plain = none)

theorem closed_and_scan_image {t : Token} (ht : t.Legible)
    (hbody : ∀ body, rules.replacement? t = some body → Closed body) :
    Closed (rules.image t) ∧ Token.scan (rules.image t) =
      match rules.replacement? t with
      | some body => .enterScale :: (Token.scan body ++ [.exitScale])
      | none => [t.plain] := by
  cases h : rules.replacement? t with
  | some body =>
    rw [image_of_replacement? h]
    exact closed_and_scan_enclosed (hbody body h)
  | none =>
    rw [image_of_replacement?_eq_none h]
    exact closed_and_scan_written ht

theorem scan_pass_of_expandable {levels : Nat} {s : String} (h : rules.Expandable (levels + 1) s) :
    Token.scan (rules.pass s) = (Token.scan s).flatMap fun t => Token.scan (rules.image t) :=
  rules.scan_pass s fun t ht =>
    (closed_and_scan_image (legible_of_mem_scan ht) fun body hb => ((h t ht).1 body hb).1).1

theorem Expandable.pass {s : String} : ∀ {levels : Nat}, rules.Expandable (levels + 1) s →
    rules.Expandable levels (rules.pass s)
  | 0, _ => trivial
  | levels + 1, h => by
    intro u hu
    rw [scan_pass_of_expandable h, List.mem_flatMap] at hu
    obtain ⟨t, ht, hu⟩ := hu
    obtain ⟨hbody, hplain⟩ := h t ht
    rw [(closed_and_scan_image (legible_of_mem_scan ht) fun body hb => (hbody body hb).1).2] at hu
    cases hb : rules.replacement? t with
    | some body =>
      rw [hb, List.mem_cons, List.mem_append, List.mem_singleton] at hu
      -- the marks around a body are no symbols, so only the body counts
      rcases hu with rfl | hu | rfl
      · exact ⟨nofun, fun _ _ => rfl⟩
      · exact (hbody body hb).2 u hu
      · exact ⟨nofun, fun _ _ => rfl⟩
    | none =>
      rw [hb, List.mem_singleton] at hu
      -- a letter is written in upper case once, and stays so
      have hu' : rules.replacement? u = none := hu ▸ hplain (Nat.succ_ne_zero levels) hb
      refine ⟨fun body hb => absurd (hu'.symm.trans hb) nofun, fun _ _ => ?_⟩
      rw [hu, Token.plain_plain, ← hu, hu']

/-- What a pass writes for a token, opened one level less, is what the token is opened to. -/
theorem unrolled_image {levels : Nat} {t : Token} (ht : t.Legible)
    (hbody : ∀ body, rules.replacement? t = some body → Closed body)
    (hplain : levels ≠ 0 → rules.replacement? t = none → rules.replacement? t.plain = none) :
    (rules.unrolled levels (Token.scan (rules.image t))).map Token.plain =
        (rules.unrolled (levels + 1) [t]).map Token.plain ∧
      rules.nesting levels (Token.scan (rules.image t)) = rules.nesting (levels + 1) [t] - 1 := by
  rw [(closed_and_scan_image ht hbody).2]
  cases hb : rules.replacement? t with
  | some body =>
    simp only [unrolled_enclosed, nesting_enclosed]
    simp [unrolled, nesting, hb]
  | none =>
    rw [unrolled_singleton hb, nesting_singleton hb]
    cases levels with
    | zero => simp [unrolled, nesting]
    | succ levels =>
      have hp := hplain (Nat.succ_ne_zero levels) hb
      simp [unrolled_singleton hp, nesting_singleton hp]

/-- **A pass takes one level off**: behind it, with one level less to open, the turtle acts on
the same tokens, up to the case of drawing and moving letters. -/
theorem unrolled_pass {levels : Nat} {s : String} (h : rules.Expandable (levels + 1) s) :
    (rules.unrolled levels (Token.scan (rules.pass s))).map Token.plain =
        (rules.unrolled (levels + 1) (Token.scan s)).map Token.plain ∧
      rules.nesting levels (Token.scan (rules.pass s)) =
        rules.nesting (levels + 1) (Token.scan s) - 1 := by
  rw [scan_pass_of_expandable h]
  have himage (t : Token) (ht : t ∈ Token.scan s) :=
    unrolled_image (legible_of_mem_scan ht) (fun body hb => ((h t ht).1 body hb).1) (h t ht).2
  -- only what holds token by token is left of `s`
  generalize Token.scan s = ts at himage ⊢
  induction ts with
  | nil => cases levels <;> exact ⟨rfl, rfl⟩
  | cons t ts ih =>
    obtain ⟨hunrolled, hnesting⟩ := himage t (by simp)
    obtain ⟨ihunrolled, ihnesting⟩ := ih fun u hu => himage u (by simp [hu])
    constructor
    · rw [List.flatMap_cons, unrolled_append, List.map_append, hunrolled, ihunrolled,
        ← List.map_append, ← unrolled_append, List.singleton_append]
    · rw [List.flatMap_cons, nesting_append, hnesting, ihnesting, nesting_cons rules t ts]
      omega

/-- Some levels done by passes beforehand leave the tokens as they are. -/
theorem unrolled_derive (levels : Nat) : ∀ (passes : Nat) (s : String),
    rules.Expandable (passes + levels) s →
      (rules.unrolled levels (Token.scan (rules.derive passes s))).map Token.plain =
          (rules.unrolled (passes + levels) (Token.scan s)).map Token.plain ∧
        rules.nesting levels (Token.scan (rules.derive passes s)) =
          rules.nesting (passes + levels) (Token.scan s) - passes
  | 0, s, _ => by simp [Rules.derive]
  | passes + 1, s, h => by
    rw [Nat.add_right_comm] at h ⊢
    obtain ⟨hunrolled, hnesting⟩ := unrolled_pass h
    obtain ⟨ihunrolled, ihnesting⟩ := unrolled_derive levels passes (rules.pass s) h.pass
    refine ⟨ihunrolled.trans hunrolled, ?_⟩
    calc rules.nesting levels (Token.scan (rules.derive passes (rules.pass s)))
      _ = rules.nesting (passes + levels) (Token.scan (rules.pass s)) - passes := ihnesting
      _ = rules.nesting (passes + levels + 1) (Token.scan s) - 1 - passes := by rw [hnesting]
      _ = rules.nesting (passes + levels + 1) (Token.scan s) - (passes + 1) := by omega

theorem Expandable.derive {levels : Nat} : ∀ {passes : Nat} {s : String},
    rules.Expandable (passes + levels) s → rules.Expandable levels (rules.derive passes s)
  | 0, _, h => by rwa [Nat.zero_add] at h
  | passes + 1, s, h => by
    rw [Nat.add_right_comm] at h
    exact h.pass.derive

/-- No drawing or moving letter of the string gets a rule by being written in upper case. -/
def CaseStable (rules : Rules) (s : String) : Prop :=
  ∀ x ∈ ['f', 'g'], rules.body? x = none → (rules.body? x.toUpper).isSome → x ∉ s.toList

instance (rules : Rules) (s : String) : Decidable (rules.CaseStable s) := List.decidableBAll ..

theorem CaseStable.replacement?_plain {s : String} (h : rules.CaseStable s) {t : Token}
    (ht : t ∈ Token.scan s) (hnone : rules.replacement? t = none) :
    rules.replacement? t.plain = none := by
  cases t with
  | symbol c =>
    by_cases hc : c ∈ ['f', 'g']
    · have hupper : Token.canonical c = c.toUpper := by
        simp only [List.mem_cons, List.not_mem_nil, or_false] at hc
        rcases hc with rfl | rfl <;> decide
      have hmem : c ∈ s.toList := ((mem_scan_symbol_iff c s).mp ht).1
      have hunruled : ¬ (rules.body? c.toUpper).isSome := fun hsome => h c hc hnone hsome hmem
      simpa [Token.plain, replacement?, hupper] using hunruled
    · have hsame : Token.canonical c = c := by
        simp only [List.mem_cons, List.not_mem_nil, or_false, not_or] at hc
        unfold Token.canonical
        grind [Token.isDraw, Token.isMove]
      simpa [Token.plain, replacement?, hsame] using hnone
  | _ => rfl

end Rules

/-! ### Grammars that can be expanded -/

namespace Grammar

variable {g : Grammar}

variable (g) in
/-- The strings that a walk opens, each with the number of bodies open then. -/
inductive Opens : Nat → String → Prop where
  | start : Opens 0 g.start
  | body {depth : Nat} {s : String} {c : Char} {body : String} (h : Opens depth s)
      (hc : .symbol c ∈ Token.scan s) (hbody : g.body? c = some body) : Opens (depth + 1) body

/-- A string that a walk opens can be expanded as deep as the walk goes. -/
theorem expandable_of_opens {n : Nat}
    (hclosed : ∀ depth s, g.Opens depth s → 0 < depth → depth ≤ n → Closed s)
    (hstable : ∀ depth s, g.Opens depth s → depth + 2 ≤ n → g.rules.CaseStable s) :
    ∀ (levels depth : Nat) (s : String), g.Opens depth s → depth + levels = n →
      g.rules.Expandable levels s
  | 0, _, _, _, _ => trivial
  | levels + 1, depth, s, h, hn => by
    intro t ht
    constructor
    · intro body hbody
      cases t with
      | symbol c =>
        have hopens := h.body ht hbody
        exact ⟨hclosed _ body hopens (by omega) (by omega),
          expandable_of_opens hclosed hstable levels _ body hopens (by omega)⟩
      | _ => exact absurd hbody nofun
    · exact fun hlevels => (hstable depth s h (by omega)).replacement?_plain ht

variable (g) in
/-- No rule body leaves digits waiting, and no drawing or moving letter without a rule, in the
start or in a body, gets one by being written in upper case. -/
structure SelfContained : Prop where
  closed : ∀ e ∈ g.rules.entries, Closed e.2
  stable_start : g.rules.CaseStable g.start
  stable_body : ∀ e ∈ g.rules.entries, g.rules.CaseStable e.2

instance (g : Grammar) : Decidable g.SelfContained :=
  decidable_of_iff
    ((∀ e ∈ g.rules.entries, Closed e.2) ∧ g.rules.CaseStable g.start ∧
      ∀ e ∈ g.rules.entries, g.rules.CaseStable e.2)
    ⟨fun ⟨hclosed, hstart, hbody⟩ => ⟨hclosed, hstart, hbody⟩, fun h => ⟨h.1, h.2, h.3⟩⟩

theorem exists_entry_of_body? {c : Char} {body : String} (h : g.body? c = some body) :
    ∃ e ∈ g.rules.entries, e.2 = body := by
  have hreplacement : g.rules.replacement? (.symbol c) = some body := h
  exact Rules.exists_entry_of_replacement? hreplacement

theorem SelfContained.closed_of_opens (h : g.SelfContained) {depth : Nat} {s : String}
    (hs : g.Opens depth s) (hpos : 0 < depth) : Closed s := by
  cases hs with
  | start => omega
  | body _ _ hbody =>
    obtain ⟨e, he, rfl⟩ := exists_entry_of_body? hbody
    exact h.closed e he

theorem SelfContained.stable_of_opens (h : g.SelfContained) {depth : Nat} {s : String}
    (hs : g.Opens depth s) : g.rules.CaseStable s := by
  cases hs with
  | start => exact h.stable_start
  | body _ _ hbody =>
    obtain ⟨e, he, rfl⟩ := exists_entry_of_body? hbody
    exact h.stable_body e he

theorem SelfContained.expandable (h : g.SelfContained) (levels : Nat) :
    g.rules.Expandable levels g.start :=
  expandable_of_opens (fun _ _ hs hpos _ => h.closed_of_opens hs hpos)
    (fun _ _ hs _ => h.stable_of_opens hs) levels 0 g.start .start (Nat.zero_add levels)

end Grammar

theorem Preset.selfContained_grammar (p : Preset) (depth : UInt32) :
    (p.grammar.withEvaluationDepth depth).SelfContained := by
  have h : p.grammar.SelfContained := by cases p <;> decide
  exact ⟨h.closed, h.stable_start, h.stable_body⟩

namespace Grammar

variable {g : Grammar}

/-! ### The figures of both strategies -/

theorem figure_plain (h : g.rules.Expandable g.evaluationDepth.toNat g.start) :
    ∀ strategy : Strategy,
      (g.figure strategy).map Token.plain = (g.figure .recursive).map Token.plain
  | .recursive => rfl
  | .materialized => (Rules.unrolled_derive 0 g.evaluationDepth.toNat g.start h).1

/-- The grammar with its start expanded by some passes, and with a depth left. -/
def expanded (g : Grammar) (passes depth : UInt32) : Grammar :=
  { g with start := g.derive passes.toNat, evaluationDepth := depth }

theorem figure_expanded (h : g.rules.Expandable g.evaluationDepth.toNat g.start)
    {passes depth : UInt32} (hdepth : g.evaluationDepth.toNat = passes.toNat + depth.toNat)
    (strategy : Strategy) :
    ((g.expanded passes depth).figure strategy).map Token.plain =
        (g.figure .recursive).map Token.plain ∧
      (g.expanded passes depth).openBodies .recursive =
        g.openBodies .recursive - passes.toNat := by
  rw [hdepth] at h
  obtain ⟨hunrolled, hnesting⟩ := Rules.unrolled_derive depth.toNat passes.toNat g.start h
  rw [figure_plain h.derive strategy, figure, figure, openBodies, openBodies, hdepth]
  exact ⟨hunrolled, hnesting⟩

end Grammar
/-! ### The renderings of both strategies -/

section

variable {σ : Type} [LineSink σ]

theorem render_of_figure (g : Grammar) {start : String} {depth : UInt32}
    {strategy strategy' : Strategy}
    (h : (Grammar.figure { g with start, evaluationDepth := depth } strategy').map Token.plain =
      (g.figure strategy).map Token.plain) (sink : σ) :
    ∃ (r r' : RenderStats) (out : σ),
      ({ strategy } : RenderConfig σ).render g sink = (.ok r, out) ∧
      ({ strategy := strategy' } : RenderConfig σ).render
        { g with start, evaluationDepth := depth } sink = (.ok r', out) ∧
      r'.segments = r.segments ∧ r'.moves = r.moves ∧
      r.maxRecursion = g.openBodies strategy ∧
      r'.maxRecursion =
        Grammar.openBodies { g with start, evaluationDepth := depth } strategy' := by
  obtain ⟨commands, hrender⟩ := render_eq_figure strategy g sink
  obtain ⟨commands', hrender'⟩ :=
    render_eq_figure strategy' { g with start, evaluationDepth := depth } sink
  rw [← Turtle.follow_congr g h] at hrender
  exact ⟨_, _, _, hrender, hrender', rfl, rfl, rfl, rfl⟩

/-- A grammar that can be expanded draws the same by either strategy, with levels done
beforehand or not. -/
theorem render_of_expandable (g : Grammar)
    (h : g.rules.Expandable g.evaluationDepth.toNat g.start) (passes depth : UInt32)
    (hdepth : g.evaluationDepth.toNat = passes.toNat + depth.toNat) (strategy : Strategy)
    (sink : σ) :
    ∃ (r r' : RenderStats) (out : σ),
      ({ strategy := .recursive } : RenderConfig σ).render g sink = (.ok r, out) ∧
      ({ strategy } : RenderConfig σ).render (g.expanded passes depth) sink = (.ok r', out) ∧
      r'.segments = r.segments ∧ r'.moves = r.moves ∧
      (strategy = .recursive → r'.maxRecursion = r.maxRecursion - passes.toNat) := by
  obtain ⟨hfigure, hopen⟩ := Grammar.figure_expanded h hdepth strategy
  obtain ⟨r, r', out, hr, hr', hsegments, hmoves, hrec, hrec'⟩ := render_of_figure g hfigure sink
  refine ⟨r, r', out, hr, hr', hsegments, hmoves, ?_⟩
  rintro rfl
  calc r'.maxRecursion
    _ = (g.expanded passes depth).openBodies .recursive := hrec'
    _ = g.openBodies .recursive - passes.toNat := hopen
    _ = r.maxRecursion - passes.toNat := by rw [hrec]

/-- **Both strategies draw the same**, when a walk opens closed bodies only and, above its two
last levels, no letter that gets a rule by being written in upper case. -/
theorem render_strategies (g : Grammar)
    (hclosed : ∀ depth s, g.Opens depth s → 0 < depth → depth ≤ g.evaluationDepth.toNat → Closed s)
    (hstable : ∀ depth s, g.Opens depth s → depth + 2 ≤ g.evaluationDepth.toNat →
      g.rules.CaseStable s) (sink : σ) :
    ∃ (r m : RenderStats) (out : σ),
      ({ strategy := .recursive } : RenderConfig σ).render g sink = (.ok r, out) ∧
      ({ strategy := .materialized } : RenderConfig σ).render g sink = (.ok m, out) ∧
      m.segments = r.segments ∧ m.moves = r.moves := by
  have hexpandable := Grammar.expandable_of_opens hclosed hstable g.evaluationDepth.toNat 0 g.start
    .start (Nat.zero_add _)
  obtain ⟨r, m, out, hr, hm, hsegments, hmoves, -⟩ :=
    render_of_expandable g hexpandable 0 g.evaluationDepth (Nat.zero_add _).symm .materialized sink
  exact ⟨r, m, out, hr, hm, hsegments, hmoves⟩

end

/-- Bodies that use their digits up, with a small letter that has a rule of its own and one that
has a rule in neither case. -/
def Grammar.ruledSmallLetter : Grammar :=
  (((Grammar.ofStart "F").withRule 'F' "F3-f").withRule 'f' "f2+g").withEvaluationDepth 4

/-- Four levels, so that both bodies are opened above the last two. -/
theorem render_strategies_small :
    ∃ (r m : RenderStats) (out : Array PathCommand),
      ({ strategy := .recursive } : RenderConfig _).render .ruledSmallLetter #[] = (.ok r, out) ∧
      ({ strategy := .materialized } : RenderConfig _).render .ruledSmallLetter #[] =
        (.ok m, out) ∧
      m.segments = r.segments ∧ m.moves = r.moves := by
  have hself : Grammar.ruledSmallLetter.SelfContained := by decide
  exact render_strategies _ (fun _ _ hs hpos _ => hself.closed_of_opens hs hpos)
    (fun _ _ hs _ => hself.stable_of_opens hs) #[]

/-- A small letter without a rule, whose upper case has one. -/
def Grammar.smallLetter : Grammar :=
  ((Grammar.ofStart "f").withRule 'F' "G").withEvaluationDepth 2

/-- Digits within a body, and a turn behind it. -/
def Grammar.innerDigits : Grammar :=
  ((Grammar.ofStart "A+F").withRule 'A' "2B").withEvaluationDepth 1

/-- **The strategies can differ**, though no body ends in a digit. The second pass replaces the
small letter that the first one has written in upper case, and what was a line is a move. And
digits within a body still reach the turn behind it, where a walk has forgotten them, so that the
line has another heading. -/
theorem strategies_differ :
    (∀ e ∈ Grammar.smallLetter.rules.entries ++ Grammar.innerDigits.rules.entries,
      e.2.toList.getLast?.any Char.isDigit = false) ∧
    (({ strategy := .recursive } : RenderConfig (Array PathCommand)).render .smallLetter #[]).2 ≠
      (({ strategy := .materialized } : RenderConfig (Array PathCommand)).render
        .smallLetter #[]).2 ∧
    ∃ (step : Float) (h h' : Angle), h ≠ h' ∧
      (({ strategy := .recursive } : RenderConfig (Array PathCommand)).render .innerDigits #[]).2 =
        #[.moveTo .origin, .lineTo (.origin + TurtleState.direction { heading := h } * step)] ∧
      (({ strategy := .materialized } : RenderConfig (Array PathCommand)).render
        .innerDigits #[]).2 =
        #[.moveTo .origin, .lineTo (.origin + TurtleState.direction { heading := h' } * step)] := by
  have hsmall : Grammar.smallLetter.figure .recursive = [.symbol 'f'] := by decide
  have hsmall' : Grammar.smallLetter.figure .materialized =
      [.enterScale, .symbol 'G', .exitScale] := by decide
  have hdigits : Grammar.innerDigits.figure .recursive =
      [.enterScale, .symbol 'B', .exitScale, .turn .right 0, .symbol 'F'] := by decide
  have hdigits' : Grammar.innerDigits.figure .materialized =
      [.enterScale, .symbol 'B', .exitScale, .turn .right 2, .symbol 'F'] := by decide
  refine ⟨by decide, ?_, 10 * power 1 0,
    Angle.zero + Angle.ofDegrees 90 * Direction.right.factor 0,
    Angle.zero + Angle.ofDegrees 90 * Direction.right.factor 2, by decide +kernel, ?_, ?_⟩
  · obtain ⟨p, hline⟩ : ∃ p : Point,
        (({ strategy := .recursive } : RenderConfig (Array PathCommand)).render
          .smallLetter #[]).2 = #[.moveTo .origin, .lineTo p] := by
      rw [sink_render, hsmall]
      exact ⟨_, rfl⟩
    obtain ⟨q, hmove⟩ : ∃ q : Point,
        (({ strategy := .materialized } : RenderConfig (Array PathCommand)).render
          .smallLetter #[]).2 = #[.moveTo .origin, .moveTo q] := by
      rw [sink_render, hsmall']
      exact ⟨_, rfl⟩
    rw [hline, hmove]
    simp
  · rw [sink_render, hdigits]
    rfl
  · rw [sink_render, hdigits']
    rfl

/-- **Levels can be expanded beforehand**: with passes made over its start and that many levels
less to open, a grammar draws the same by either strategy. The figures of the catalog can be
expanded so at every depth. -/
theorem render_expanded :
    (∀ (σ : Type) [LineSink σ] (g : Grammar), g.SelfContained →
      ∀ passes depth : UInt32, g.evaluationDepth.toNat = passes.toNat + depth.toNat →
      ∀ (strategy : Strategy) (sink : σ), ∃ (r r' : RenderStats) (out : σ),
        ({ strategy := .recursive } : RenderConfig σ).render g sink = (.ok r, out) ∧
        ({ strategy } : RenderConfig σ).render (g.expanded passes depth) sink = (.ok r', out) ∧
        r'.segments = r.segments ∧ r'.moves = r.moves ∧
        (strategy = .recursive → r'.maxRecursion = r.maxRecursion - passes.toNat)) ∧
    ∀ (p : Preset) (depth : UInt32), (p.grammar.withEvaluationDepth depth).SelfContained :=
  ⟨fun _ _ g h passes depth hdepth strategy sink =>
    render_of_expandable g (h.expandable _) passes depth hdepth strategy sink,
    Preset.selfContained_grammar⟩

/-- A third of the passes of a curve done beforehand. -/
theorem render_expanded_once :
    ((Grammar.ofStart "F").withRule 'F' "F+F--F+F").SelfContained ∧
    ∃ (r r' : RenderStats) (out : Array PathCommand),
      ({ strategy := .recursive } : RenderConfig _).render
        (((Grammar.ofStart "F").withRule 'F' "F+F--F+F").withEvaluationDepth 3) #[] = (.ok r, out) ∧
      ({ strategy := .materialized } : RenderConfig _).render
        ((((Grammar.ofStart "F").withRule 'F' "F+F--F+F").withEvaluationDepth 3).expanded 1 2) #[] =
          (.ok r', out) ∧
      r'.segments = r.segments ∧ r'.moves = r.moves ∧
      (Strategy.materialized = .recursive → r'.maxRecursion = r.maxRecursion - 1) :=
  ⟨by decide, render_expanded.1 _ _ (by decide) 1 2 rfl .materialized #[]⟩

end LSystem
