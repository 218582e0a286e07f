/-
# A branch leaves no trace behind

A branch stands between brackets. If the brackets in it are balanced, here and in every rule body,
it goes back to no state saved before it, so the closing bracket finds the state that the opening
one has saved. And if it exits as many scales as it enters, the scale depth behind it is the one
before it. Tokens of this kind are `Neutral`, and rule bodies of this kind can be opened in them
(`Neutral.unrolled`).

The pen is not brought back. But every step sets it first, so turtles that agree in all but the pen
make the same calls (`Turtle.Alike.calls`). What stands behind a branch is therefore drawn as if the
branch were not there: the branch adds its own calls and a move back (`render_branch`).

Key definitions: `Balanced`, `Token.track`, `Neutral`, `Turtle.Alike`.
Key theorems: `foldlM_track_tokensAfter`, `Balanced.neutral`, `Neutral.unrolled`,
`Turtle.follow_track`, `Turtle.Alike.calls`, `Turtle.alike_branch`, `walk_append`,
`render_branch`.
-/
import LSystem.Proofs.Calls
import LSystem.Proofs.PreExpansion

namespace LSystem

/-! ### Balanced strings -/

/-- A string closes the brackets that it opens and no others, and exits as many scales as it
enters. -/
structure Balanced (s : String) : Prop where
  /-- No beginning closes more brackets than it opens. -/
  nested : ∀ p, p <+: s.toList → p.count ']' ≤ p.count '['
  brackets : s.toList.count ']' = s.toList.count '['
  scales : s.toList.count '<' = s.toList.count '>'

instance (s : String) : Decidable (Balanced s) :=
  decidable_of_iff
    ((∀ n < s.toList.length + 1, (s.toList.take n).count ']' ≤ (s.toList.take n).count '[') ∧
      s.toList.count ']' = s.toList.count '[' ∧ s.toList.count '<' = s.toList.count '>') <| by
    constructor
    · rintro ⟨hnested, hbrackets, hscales⟩
      refine ⟨fun p hp => ?_, hbrackets, hscales⟩
      rw [List.prefix_iff_eq_take.mp hp]
      exact hnested p.length (Nat.lt_succ_of_le hp.length_le)
    · rintro ⟨hnested, hbrackets, hscales⟩
      exact ⟨fun n _ => hnested _ (List.take_prefix n _), hbrackets, hscales⟩

/-! ### Neutral tokens -/

/-- How many states are saved and how deep the scale is behind a token. There is no answer for a
token that goes back to a state saved before the first of these. -/
def Token.track : Nat × Int → Token → Option (Nat × Int)
  | (saved, depth), push => some (saved + 1, depth)
  | (0, _), pop => none
  | (saved + 1, depth), pop => some (saved, depth)
  | (saved, depth), enterScale => some (saved, depth + 1)
  | (saved, depth), exitScale => some (saved, depth - 1)
  | p, symbol _ | p, turn _ _ | p, forcedDraw => some p

/-- Tokens that go back to no state saved before them, and leave as many states and the scale depth
that they find. -/
def Neutral (ts : List Token) : Prop := ∀ p, ts.foldlM Token.track p = some p

theorem foldlM_track_ofChar? (pending : Nat) {saved : Nat} (depth : Int) {c : Char}
    (h : c = ']' → 0 < saved) :
    (Token.ofChar? pending c).toList.foldlM Token.track (saved, depth) =
      some (saved + [c].count '[' - [c].count ']', depth + [c].count '<' - [c].count '>') := by
  unfold Token.ofChar?
  split
  case h_4 =>
    obtain ⟨saved, rfl⟩ := Nat.exists_eq_succ_of_ne_zero (Nat.ne_of_gt (h rfl))
    simp [Token.track]
  case h_8 hleft hright hpush hpop henter hexit hdraw =>
    have hcount (d : Char) (hd : c ≠ d) : [c].count d = 0 := by simp [hd]
    rw [hcount _ hpush, hcount _ hpop, hcount _ henter, hcount _ hexit]
    split <;> simp [Token.track]
  all_goals simp [Token.track]

/-- The tokens of characters track what the characters count, as long as no beginning closes more
brackets than are open. -/
theorem foldlM_track_tokensAfter : ∀ (cs : List Char) (pending saved : Nat) (depth : Int),
    (∀ p, p <+: cs → p.count ']' ≤ saved + p.count '[') →
      (Scanner.tokensAfter pending cs).foldlM Token.track (saved, depth) =
        some (saved + cs.count '[' - cs.count ']', depth + cs.count '<' - cs.count '>')
  | [], _, _, _, _ => by simp
  | c :: cs, pending, saved, depth, h => by
    have hc : [c].count ']' ≤ saved + [c].count '[' := h [c] (by simp)
    have hpop : c = ']' → 0 < saved := by
      rintro rfl
      exact hc
    have hcons (d : Char) : (c :: cs).count d = [c].count d + cs.count d := by
      rw [← List.count_append, List.singleton_append]
    have hcs (p : List Char) (hp : p <+: cs) :
        p.count ']' ≤ saved + [c].count '[' - [c].count ']' + p.count '[' := by
      have hcp := h (c :: p) (List.cons_prefix_cons.mpr ⟨rfl, hp⟩)
      rw [← List.singleton_append, List.count_append, List.count_append] at hcp
      omega
    have hnested := hcs cs List.prefix_rfl
    rw [Scanner.tokensAfter_cons, List.foldlM_append, foldlM_track_ofChar? pending depth hpop]
    refine (foldlM_track_tokensAfter cs _ _ _ hcs).trans ?_
    have hall := h (c :: cs) List.prefix_rfl
    rw [hcons, hcons] at hall
    rw [hcons, hcons, hcons, hcons]
    congr 2 <;> omega

theorem Balanced.neutral {s : String} (h : Balanced s) : Neutral (Token.scan s) := by
  rintro ⟨saved, depth⟩
  have hnested (p : List Char) (hp : p <+: s.toList) : p.count ']' ≤ saved + p.count '[' :=
    Nat.le_trans (h.nested p hp) (Nat.le_add_left _ _)
  rw [Scanner.scan_eq_tokensAfter, foldlM_track_tokensAfter s.toList 0 saved depth hnested,
    h.brackets, h.scales, Nat.add_sub_cancel, Int.add_sub_cancel]

theorem foldlM_track_enclosed {ts : List Token} (h : Neutral ts) (p : Nat × Int) :
    (Token.enterScale :: (ts ++ [Token.exitScale])).foldlM Token.track p = some p := by
  obtain ⟨saved, depth⟩ := p
  have hexit : [Token.exitScale].foldlM Token.track (saved, depth + 1) = some (saved, depth) := by
    simp [Token.track]
  rw [List.foldlM_cons, Token.track]
  show (ts ++ [Token.exitScale]).foldlM Token.track (saved, depth + 1) = _
  rw [List.foldlM_append, h]
  exact hexit

theorem track_of_replacement? {rules : Rules} {t : Token} {body : String}
    (h : rules.replacement? t = some body) (p : Nat × Int) : t.track p = some p := by
  cases t with
  | symbol c => rfl
  | _ => cases h

/-- Neutral bodies opened in tokens change nothing of what the tokens track. -/
theorem foldlM_track_unrolled {rules : Rules}
    (h : ∀ t body, rules.replacement? t = some body → Neutral (Token.scan body)) (levels : Nat) :
    ∀ (ts : List Token) (p : Nat × Int),
      (rules.unrolled levels ts).foldlM Token.track p = ts.foldlM Token.track p := by
  induction levels with
  | zero => exact fun _ _ => rfl
  | succ levels ihlevels =>
    intro ts
    induction ts with
    | nil => exact fun _ => rfl
    | cons t ts ih =>
      intro p
      have htoken : (rules.unrolled (levels + 1) [t]).foldlM Token.track p = t.track p := by
        cases hbody : rules.replacement? t with
        | some body =>
          have hneutral : Neutral (rules.unrolled levels (Token.scan body)) := fun q => by
            rw [ihlevels, h t body hbody]
          rw [track_of_replacement? hbody]
          simpa [Rules.unrolled, hbody] using foldlM_track_enclosed hneutral p
        | none =>
          rw [Rules.unrolled_singleton hbody]
          simp
      rw [← List.singleton_append, Rules.unrolled_append, List.foldlM_append, htoken,
        List.singleton_append, List.foldlM_cons]
      congr 1
      funext q
      exact ih q

theorem Neutral.unrolled {rules : Rules} {ts : List Token}
    (h : ∀ t body, rules.replacement? t = some body → Neutral (Token.scan body)) (hts : Neutral ts)
    (levels : Nat) : Neutral (rules.unrolled levels ts) :=
  fun p => (foldlM_track_unrolled h levels ts p).trans (hts p)

section

variable {σ : Type} [LineSink σ] (g : Grammar)

/-! ### What tokens do to the stack and the scale depth -/

/-- What a token does to the stack and the scale depth is what it tracks. -/
theorem Token.act_track {t : Turtle σ} {own base : List TurtleState} {p : Nat × Int}
    (hstack : t.stack = own ++ base) (k : Token)
    (h : k.track (own.length, t.scaleDepth) = some p) :
    ∃ own', own'.length = p.1 ∧ (k.act g t).stack = own' ++ base ∧
      (k.act g t).scaleDepth = p.2 := by
  obtain ⟨hsaved, hdepth, -⟩ := k.act_frame g t
  rw [hsaved, hdepth, hstack]
  cases k with
  | push =>
    obtain rfl := Option.some.inj h
    exact ⟨t.state :: own, rfl, rfl, rfl⟩
  | pop =>
    cases own with
    | nil => cases h
    | cons s own =>
      obtain rfl := Option.some.inj h
      exact ⟨own, rfl, rfl, rfl⟩
  | _ =>
    obtain rfl := Option.some.inj h
    exact ⟨own, rfl, rfl, rfl⟩

/-- A turtle keeps the states below those that its tokens save, and its scale depth is the one that
they track. -/
theorem Turtle.follow_track {base : List TurtleState} {p : Nat × Int} :
    ∀ (ks : List Token) (t : Turtle σ) (own : List TurtleState), t.stack = own ++ base →
      ks.foldlM Token.track (own.length, t.scaleDepth) = some p →
        ∃ own', own'.length = p.1 ∧ (t.follow g ks).stack = own' ++ base ∧
          (t.follow g ks).scaleDepth = p.2
  | [], t, own, hstack, h => by
    obtain rfl := Option.some.inj h
    exact ⟨own, rfl, hstack, rfl⟩
  | k :: ks, t, own, hstack, h => by
    rw [List.foldlM_cons] at h
    obtain ⟨q, hk, hks⟩ := Option.bind_eq_some_iff.mp h
    obtain ⟨own', hlength, hstack', hdepth⟩ := Token.act_track g hstack k hk
    exact follow_track ks (k.act g t) own' hstack' (by rwa [hlength, hdepth])

theorem Turtle.depthScale_follow : ∀ (ks : List Token) (t : Turtle σ),
    (t.follow g ks).depthScale = t.depthScale
  | [], _ => rfl
  | k :: ks, t => (depthScale_follow ks (k.act g t)).trans (k.act_frame g t).2.2

/-! ### Turtles that agree in all but the pen -/

/-- Turtles that stand alike: only their pens and what they have drawn may differ. -/
structure Turtle.Alike (t t' : Turtle σ) : Prop where
  state : t.state = t'.state
  stack : t.stack = t'.stack
  scaleDepth : t.scaleDepth = t'.scaleDepth
  depthScale : t.depthScale = t'.depthScale

namespace Turtle.Alike

variable {g} {t t' : Turtle σ}

omit [LineSink σ] in
theorem ahead (h : t.Alike t') (distance : Float) : t.ahead distance = t'.ahead distance := by
  unfold Turtle.ahead Turtle.stepLength
  rw [h.state, h.scaleDepth, h.depthScale]

omit [LineSink σ] in
theorem call? (h : t.Alike t') (k : Token) : k.call? g t = k.call? g t' := by
  cases k with
  | symbol c =>
    unfold Token.call?
    rw [h.ahead]
  | pop =>
    unfold Token.call?
    rw [h.stack]
  | forcedDraw => exact congrArg (some ∘ PathCommand.lineTo) (h.ahead _)
  | _ => rfl

/-- A token keeps turtles alike, since it sets the pen before it steps. -/
theorem act (h : t.Alike t') (k : Token) : (k.act g t).Alike (k.act g t') := by
  obtain ⟨sink, state, pen, stack, scaleDepth, depthScale⟩ := t
  obtain ⟨sink', state', pen', stack', scaleDepth', depthScale'⟩ := t'
  obtain ⟨rfl, rfl, rfl, rfl⟩ := h
  cases k with
  | symbol c =>
    simp only [Token.act]
    cases Token.isDraw c with
    | true => exact ⟨rfl, rfl, rfl, rfl⟩
    | false => cases Token.isMove c <;> exact ⟨rfl, rfl, rfl, rfl⟩
  | pop => cases stack <;> exact ⟨rfl, rfl, rfl, rfl⟩
  | _ => exact ⟨rfl, rfl, rfl, rfl⟩

/-- **Turtles that stand alike draw alike.** -/
theorem calls : ∀ (ks : List Token) {t t' : Turtle σ}, t.Alike t' → t.calls g ks = t'.calls g ks
  | [], _, _, _ => rfl
  | k :: ks, _, _, h => by
    rw [Turtle.calls, Turtle.calls, h.call? k, calls ks (h.act k)]

end Turtle.Alike

/-! ### Branches -/

theorem Turtle.follow_neutral {ks : List Token} (h : Neutral ks) (t : Turtle σ) :
    (t.follow g ks).stack = t.stack ∧ (t.follow g ks).scaleDepth = t.scaleDepth := by
  obtain ⟨own, hlength, hstack, hdepth⟩ := follow_track g ks t [] rfl (h _)
  obtain rfl := List.length_eq_zero_iff.mp hlength
  exact ⟨hstack, hdepth⟩

/-- **A branch brings the turtle back**, by a move and with its pen as the branch has left it. -/
theorem Turtle.alike_branch {ks : List Token} (h : Neutral ks) (t : Turtle σ) :
    (t.follow g (.push :: (ks ++ [.pop]))).Alike t ∧
      t.calls g (.push :: (ks ++ [.pop])) =
        t.save.calls g ks ++ [.moveTo t.state.position] := by
  have hfollow : t.follow g (.push :: (ks ++ [.pop])) = (t.save.follow g ks).restore :=
    follow_append g ks [.pop] t.save
  have hcalls : t.calls g (.push :: (ks ++ [.pop])) =
      t.save.calls g ks ++ (Token.call? g (t.save.follow g ks) .pop).toList := by
    have happend := calls_append g [.pop] ks t.save
    rw [calls, calls, List.append_nil] at happend
    exact happend
  obtain ⟨hstack, hdepth⟩ := follow_neutral g h t.save
  have hscale := depthScale_follow g ks t.save
  rw [hfollow, hcalls, Token.call?, restore, hstack]
  exact ⟨⟨rfl, rfl, hdepth, hscale⟩, rfl⟩

theorem walk_append (config : RenderConfig σ) (levels : Nat) {a : String} (h : Closed a)
    (b : String) : walk config g levels 0 (a ++ b) =
      (do walk config g levels 0 a; walk config g levels 0 b) := by
  have hscript : g.walkScript levels 0 (a ++ b) =
      g.walkScript levels 0 a ++ (g.walkScript levels 0 b).tail := by
    cases levels <;> simp [Grammar.walkScript, scan_append_of_closed h]
  have hreach : perform config g (g.walkScript levels 0 b) =
      perform config g (g.walkScript levels 0 b).tail := by
    funext s
    have hperform : perform config g (g.walkScript levels 0 b) s =
        perform config g (g.walkScript levels 0 b).tail
          { s with maxRecursion := max s.maxRecursion 0 } := by
      cases levels <;> rfl
    -- no body is open between the strings, so there is nothing new to note
    rwa [Nat.max_zero] at hperform
  rw [walk_eq_perform, walk_eq_perform, walk_eq_perform, hscript, perform_append, hreach]

/-- A walk that nothing limits comes to its end, and has opened the bodies in their places. -/
theorem walk_unlimited (levels depth : Nat) (s : String) (state : RenderState σ) :
    ∃ state', walk {} g levels depth s state = .ok () state' ∧
      state'.turtle = state.turtle.follow g (g.rules.unrolled levels (Token.scan s)) := by
  have hwalk := walk_eq_perform ({} : RenderConfig σ) g levels depth s
  have hperform := perform_of_no_fail (σ := σ) .recursive g (g.walkScript levels depth s) state
    fun e => g.fail_notMem_walkScript e levels depth s
  rw [g.acted_walkScript] at hperform
  exact ⟨_, (congrFun hwalk state).trans hperform, rfl⟩

end

theorem Turtle.calls_start {σ : Type} [LineSink σ] (g : Grammar) (s : String) :
    ∀ (ks : List Token) (t : Turtle σ), t.calls { g with start := s } ks = t.calls g ks
  | [], _ => rfl
  | k :: ks, t => congrArg ((k.call? g t).toList ++ ·) (calls_start g s ks (k.act g t))

theorem toList_render_start (g : Grammar) (s : String) :
    (render { g with start := s } (#[] : Array PathCommand)).2.toList = .moveTo .origin ::
      (RenderState.initial g (#[] : Array PathCommand)).turtle.calls g
        (g.rules.unrolled g.evaluationDepth.toNat (Token.scan s)) := by
  obtain ⟨_, hok⟩ := render_eq_figure .recursive { g with start := s } (#[] : Array PathCommand)
  have hrecord := record_of_ok ({} : RenderConfig (Array PathCommand)) { g with start := s } #[]
    (congrArg Prod.fst hok)
  rw [record_array, Turtle.calls_start] at hrecord
  exact hrecord

theorem unrolled_branched (rules : Rules) (levels : Nat) {u w : String} (hu : Closed u)
    (hw : Closed w) :
    Closed (u ++ "[" ++ w) ∧ Closed (u ++ "[" ++ w ++ "]") ∧
      rules.unrolled levels (Token.scan (u ++ "[" ++ w)) =
        rules.unrolled levels (Token.scan u) ++
          .push :: rules.unrolled levels (Token.scan w) ∧
      rules.unrolled levels (Token.scan (u ++ "[" ++ w ++ "]")) =
        rules.unrolled levels (Token.scan u) ++
          .push :: (rules.unrolled levels (Token.scan w) ++ [.pop]) := by
  have hopen : Closed (u ++ "[") := (closed_append_iff hu "[").mpr rfl
  have hinner : Closed (u ++ "[" ++ w) := (closed_append_iff hopen w).mpr hw
  have hscan : Token.scan (u ++ "[" ++ w) = Token.scan u ++ ([.push] ++ Token.scan w) := by
    rw [scan_append_of_closed hopen, scan_append_of_closed hu, List.append_assoc]
    rfl
  have hclose : Token.scan (u ++ "[" ++ w ++ "]") =
      Token.scan u ++ ([.push] ++ (Token.scan w ++ [.pop])) := by
    rw [scan_append_of_closed hinner, hscan, List.append_assoc, List.append_assoc]
    rfl
  have hpush : rules.unrolled levels [.push] = [.push] := Rules.unrolled_singleton rfl levels
  have hpop : rules.unrolled levels [.pop] = [.pop] := Rules.unrolled_singleton rfl levels
  refine ⟨hinner, (closed_append_iff hinner "]").mpr rfl, ?_, ?_⟩
  · rw [hscan, Rules.unrolled_append, Rules.unrolled_append, hpush]
    rfl
  · rw [hclose, Rules.unrolled_append, Rules.unrolled_append, Rules.unrolled_append, hpush, hpop]
    rfl

/-- **A branch leaves no trace behind.** Let brackets be balanced and scales be exited as often as
entered, in every rule body and in the branch `w`, and let no digits wait behind `u` and `w`. The
turtle behind the branch stands as it stands behind `u`, and from there the rest `v` is walked.
With the branch, the rest draws what it draws without it, and what comes before it are the calls
made in the branch and one move back. It is the rest that makes up for the pen, which a bracket
does not bring back, and the branch itself for the scale depth. -/
theorem render_branch (g : Grammar) (hbodies : ∀ e ∈ g.rules.entries, Balanced e.2)
    (u w v : String) (hw : Balanced w) (hu : Closed u) (hclosed : Closed w) :
    let levels := g.evaluationDepth.toNat
    let start := RenderState.initial g (#[] : Array PathCommand)
    let drawn (s : String) : List PathCommand :=
      (render { g with start := s } (#[] : Array PathCommand)).2.toList
    let branched := u ++ "[" ++ w ++ "]"
    (∀ t : Turtle (Array PathCommand),
      t.restore.pen = t.pen ∧ t.restore.scaleDepth = t.scaleDepth) ∧
    ∃ (s s' : RenderState (Array PathCommand)) (branch rest : List PathCommand),
      walk {} g levels 0 u start = .ok () s ∧
      walk {} g levels 0 branched start = .ok () s' ∧
      s'.turtle.Alike s.turtle ∧
      walk {} g levels 0 (u ++ v) start = walk {} g levels 0 v s ∧
      walk {} g levels 0 (branched ++ v) start = walk {} g levels 0 v s' ∧
      drawn (u ++ v) = drawn u ++ rest ∧
      drawn (u ++ "[" ++ w) = drawn u ++ branch ∧
      drawn (branched ++ v) =
        drawn u ++ branch ++ [.moveTo s.turtle.state.position] ++ rest := by
  intro levels start drawn branched
  have hneutral (t : Token) (body : String) (h : g.rules.replacement? t = some body) :
      Neutral (Token.scan body) := by
    cases t with
    | symbol c =>
      obtain ⟨e, he, rfl⟩ := Grammar.exists_entry_of_body? h
      exact (hbodies e he).neutral
    | _ => cases h
  have hbranch : Neutral (g.rules.unrolled levels (Token.scan w)) :=
    Neutral.unrolled hneutral hw.neutral levels
  obtain ⟨-, hbehind, hscan, hscan'⟩ := unrolled_branched g.rules levels hu hclosed
  have hdrawn (x : String) : drawn x = .moveTo .origin ::
      start.turtle.calls g (g.rules.unrolled levels (Token.scan x)) := toList_render_start g x
  obtain ⟨s, hs, hturtle⟩ := walk_unlimited g levels 0 u start
  obtain ⟨s', hs', hturtle'⟩ := walk_unlimited g levels 0 branched start
  rw [hscan', Turtle.follow_append, ← hturtle] at hturtle'
  obtain ⟨halike, hcalls⟩ := Turtle.alike_branch g hbranch s.turtle
  rw [← hturtle'] at halike
  refine ⟨fun t => ?_, s, s', s.turtle.save.calls g (g.rules.unrolled levels (Token.scan w)),
    s.turtle.calls g (g.rules.unrolled levels (Token.scan v)), hs, hs', halike, ?_, ?_, ?_, ?_, ?_⟩
  · obtain ⟨sink, state, pen, stack, scaleDepth, depthScale⟩ := t
    cases stack <;> exact ⟨rfl, rfl⟩
  · rw [walk_append g _ levels hu, bind_apply, hs]
  · rw [walk_append g _ levels hbehind, bind_apply, hs']
  · rw [hdrawn, hdrawn, scan_append_of_closed hu, Rules.unrolled_append, Turtle.calls_append,
      ← hturtle]
    rfl
  · rw [hdrawn, hdrawn, hscan, Turtle.calls_append, ← hturtle]
    rfl
  · rw [hdrawn, hdrawn, scan_append_of_closed hbehind, Rules.unrolled_append, hscan',
      Turtle.calls_append, Turtle.calls_append, Turtle.follow_append, ← hturtle, ← hturtle',
      hcalls, halike.calls]
    simp

/-- A branch behind a bracket that the rest closes. -/
theorem render_branch_inner :
    let g := (Grammar.ofStart "[F").withRule 'F' "F[+<F>]3-G"
    let drawn (s : String) : List PathCommand :=
      (render { g with start := s } (#[] : Array PathCommand)).2.toList
    ((∀ e ∈ g.rules.entries, Balanced e.2) ∧ Balanced "<2+G>F" ∧ Closed "[F" ∧ Closed "<2+G>F") ∧
    ∃ (p : Point) (branch rest : List PathCommand),
      drawn "[F]F" = drawn "[F" ++ rest ∧
      drawn "[F[<2+G>F]]F" = drawn "[F" ++ branch ++ [.moveTo p] ++ rest := by
  intro g drawn
  have hbodies : ∀ e ∈ g.rules.entries, Balanced e.2 := by decide
  have hbranch : Balanced "<2+G>F" := by decide
  obtain ⟨-, s, -, branch, rest, -, -, -, -, -, hrest, -, h⟩ :=
    render_branch g hbodies "[F" "<2+G>F" "]F" hbranch (by decide) (by decide)
  exact ⟨⟨hbodies, hbranch, by decide, by decide⟩, s.turtle.state.position, branch, rest, hrest, h⟩

end LSystem
