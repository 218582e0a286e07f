/-
# Guarded derivations

A guarded derivation is stopped by a pass that writes too much, or by a poll that fails.

The length is measured behind every token that a pass writes, so it is within the limit in every
string that a pass ends with. Only the start is never measured: it comes back as it is when no
pass is asked for (`expansion_fits_iff`).

The poll is asked once for every token, and tokens do not get fewer from pass to pass
(`length_scan_le_length_scan_pass`). So every pass over a start that holds a token asks the poll,
and a poll that fails from some call on caps the passes. A start without tokens is never asked
about, and all its passes are made (`passes_capped_iff`).

Key definitions: `Rules.passStarts`, `FailsAfter`, `Token.isMark`.
Key theorems: `Rules.size_of_deriveGuarded`, `Rules.length_scan_le_length_scan_pass`,
`Rules.passStarts_of_ok`, `Rules.passStarts_of_error`, `Rules.length_passStarts_le`,
`expansion_fits_iff`, `passes_capped_iff`.
-/
import LSystem.Proofs.Closed
import LSystem.Proofs.CommandLimit

namespace LSystem

/-! ### Passes that succeed -/

namespace Rules

variable {π : Type} {rules : Rules} {limit : Option Nat} {poll : EStateM RenderError π Unit}

/-- A token that is passed over was polled, and what it wrote is within the limit. -/
theorem ok_of_passGuarded_cons {t : Token} {ts : List Token} {out out' : String} {p p' : π}
    (h : rules.passGuarded limit poll (t :: ts) out p = .ok out' p') :
    ∃ q, poll p = .ok () q ∧ (∀ l, limit = some l → (out ++ rules.image t).utf8ByteSize ≤ l) ∧
      rules.passGuarded limit poll ts (out ++ rules.image t) q = .ok out' p' := by
  obtain ⟨⟨⟩, q, hpoll, hrest⟩ := ok_of_bind_ok h
  refine ⟨q, hpoll, ?_⟩
  cases limit with
  | none => exact ⟨nofun, hrest⟩
  | some l =>
    by_cases hlong : l < (out ++ rules.image t).utf8ByteSize
    · simp only [if_pos hlong] at hrest
      cases hrest
    · simp only [if_neg hlong] at hrest
      refine ⟨fun l' hl => ?_, hrest⟩
      cases hl
      exact Nat.not_lt.mp hlong

theorem eq_of_passGuarded : ∀ {ts : List Token} {out out' : String} {p p' : π},
    rules.passGuarded limit poll ts out p = .ok out' p' →
      out' = ts.foldl (fun out t => out ++ rules.image t) out
  | [], _, _, _, _, h => by
    cases h
    rfl
  | _ :: _, _, _, _, _, h => by
    obtain ⟨_, -, -, hrest⟩ := ok_of_passGuarded_cons h
    rw [List.foldl_cons]
    exact eq_of_passGuarded hrest

theorem deriveGuarded_succ_of_ok {s next : String} {p q : π}
    (h : rules.passGuarded limit poll (Token.scan s) "" p = .ok next q) (n : Nat) :
    rules.deriveGuarded limit poll (n + 1) s p = rules.deriveGuarded limit poll n next q := by
  have hbind := bind_apply (rules.passGuarded limit poll (Token.scan s) "")
    (rules.deriveGuarded limit poll n) p
  rw [h] at hbind
  exact hbind

theorem deriveGuarded_succ_of_error {s : String} {e : RenderError} {p q : π}
    (h : rules.passGuarded limit poll (Token.scan s) "" p = .error e q) (n : Nat) :
    rules.deriveGuarded limit poll (n + 1) s p = .error e q := by
  have hbind := bind_apply (rules.passGuarded limit poll (Token.scan s) "")
    (rules.deriveGuarded limit poll n) p
  rw [h] at hbind
  exact hbind

/-! ### The length of what is written -/

theorem size_le_of_passGuarded {l : Nat} : ∀ {ts : List Token} {out out' : String} {p p' : π},
    rules.passGuarded (some l) poll ts out p = .ok out' p' → out.utf8ByteSize ≤ l →
      out'.utf8ByteSize ≤ l
  | [], _, _, _, _, h, hout => by
    cases h
    exact hout
  | _ :: _, _, _, _, _, h, _ => by
    obtain ⟨_, -, hsize, hrest⟩ := ok_of_passGuarded_cons h
    exact size_le_of_passGuarded hrest (hsize l rfl)

/-- **What a derivation ends with is within the limit**, but for a start that no pass is made
over. -/
theorem size_of_deriveGuarded {l : Nat} : ∀ {n : Nat} {s out : String} {p p' : π},
    rules.deriveGuarded (some l) poll n s p = .ok out p' →
      (n = 0 → out = s) ∧ (0 < n → out.utf8ByteSize ≤ l)
  | 0, _, _, _, _, h => by
    cases h
    exact ⟨fun _ => rfl, nofun⟩
  | n + 1, s, out, p, p', h => by
    obtain ⟨next, q, hpass, hrest⟩ := ok_of_bind_ok h
    have hnext : next.utf8ByteSize ≤ l := size_le_of_passGuarded hpass (Nat.zero_le l)
    obtain ⟨hnone, hsome⟩ := size_of_deriveGuarded hrest
    refine ⟨nofun, fun _ => ?_⟩
    rcases Nat.eq_zero_or_pos n with hn | hn
    · rw [hnone hn]
      exact hnext
    · exact hsome hn

theorem size_deriveGuarded_le_iff {l n : Nat} {s out : String} {p p' : π}
    (h : rules.deriveGuarded (some l) poll n s p = .ok out p') :
    out.utf8ByteSize ≤ l ↔ 0 < n ∨ s.utf8ByteSize ≤ l := by
  obtain ⟨hnone, hsome⟩ := size_of_deriveGuarded h
  rcases Nat.eq_zero_or_pos n with hn | hn
  · rw [hnone hn]
    simp [hn]
  · simp [hn, hsome hn]

end Rules

theorem Rules.deriveGuarded_of_deriveWithin {rules : Rules} {limit n : Nat} {s out : String}
    (h : rules.deriveWithin limit n s = .ok out) :
    rules.deriveGuarded (some limit) (pure ()) n s () = .ok out () := by
  unfold deriveWithin EStateM.run at h
  cases hrun : rules.deriveGuarded (some limit) (pure ()) n s () with
  | ok out' q =>
    rw [hrun] at h
    cases h
    rfl
  | error e q =>
    rw [hrun] at h
    cases h

/-- **A limit on the length holds for every expanded string**, and for a start over which no pass
is made if it is within the limit to begin with. So it does for the string that a rendering
expands and then walks. -/
theorem expansion_fits_iff (limit : Nat) :
    (∀ (π : Type) (rules : Rules) (n : Nat) (poll : EStateM RenderError π Unit) (s out : String)
        (p p' : π),
      rules.deriveGuarded (some limit) poll n s p = .ok out p' →
        (out.utf8ByteSize ≤ limit ↔ 0 < n ∨ s.utf8ByteSize ≤ limit)) ∧
    (∀ (rules : Rules) (n : Nat) (s out : String), rules.deriveWithin limit n s = .ok out →
      (out.utf8ByteSize ≤ limit ↔ 0 < n ∨ s.utf8ByteSize ≤ limit)) ∧
    ∀ (σ : Type) [LineSink σ] (maxCommands : Option Nat) (cancel : Option (σ → Bool)) (g : Grammar)
        (sink : σ),
      let config : RenderConfig σ :=
        { strategy := .materialized, maxCommands, maxExpansion := some limit, cancel }
      let expansion := g.rules.deriveGuarded (some limit) config.check g.evaluationDepth.toNat
        g.start (.initial g sink)
      (∀ e s, expansion = .error e s → walkGrammar config g (.initial g sink) = .error e s) ∧
      ∀ flat s, expansion = .ok flat s →
        walkGrammar config g (.initial g sink) = walk config g 0 0 flat s ∧
        (flat.utf8ByteSize ≤ limit ↔
          0 < g.evaluationDepth.toNat ∨ g.start.utf8ByteSize ≤ limit) := by
  refine ⟨?_, ?_, ?_⟩
  · intro π rules n poll s out p p' h
    exact Rules.size_deriveGuarded_le_iff h
  · intro rules n s out h
    exact Rules.size_deriveGuarded_le_iff (Rules.deriveGuarded_of_deriveWithin h)
  · intro σ _ maxCommands cancel g sink config expansion
    have hwalk := bind_apply
      (g.rules.deriveGuarded (some limit) config.check g.evaluationDepth.toNat g.start)
      (walk config g 0 0) (.initial g sink)
    constructor
    · intro e s h
      simp only [expansion] at h
      rw [h] at hwalk
      exact hwalk
    · intro flat s h
      have hsize := Rules.size_deriveGuarded_le_iff h
      simp only [expansion] at h
      rw [h] at hwalk
      exact ⟨hwalk, hsize⟩

/-- One pass over a curve, within a limit that it just meets. -/
theorem expansion_fits_once :
    ((Rules.empty.insert 'F' "F+F").deriveWithin 5 1 "F" = .ok "<F+F>") ∧
      ("<F+F>".utf8ByteSize ≤ 5 ↔ 0 < 1 ∨ "F".utf8ByteSize ≤ 5) := by
  have h : (Rules.empty.insert 'F' "F+F").deriveWithin 5 1 "F" = .ok "<F+F>" := rfl
  exact ⟨h, (expansion_fits_iff 5).2.1 _ _ _ _ h⟩

/-- **A start that no pass is made over can be longer than the limit**, and is walked all the
same. -/
theorem unexpanded_start_oversize :
    Rules.empty.deriveWithin 2 0 "FFFF" = .ok "FFFF" ∧ 2 < "FFFF".utf8ByteSize ∧
      ∃ stats out, ({ strategy := .materialized, maxExpansion := some 2 } :
          RenderConfig (Array PathCommand)).render
        ((Grammar.ofStart "FFFF").withEvaluationDepth 0) #[] = (.ok stats, out) ∧
      stats.segments = 4 :=
  ⟨rfl, by decide, _, _, rfl, rfl⟩

/-! ### Tokens do not get fewer -/

/-- A character that stands for a token. -/
def Token.isMark (c : Char) : Bool := (Token.ofChar? 0 c).isSome

theorem isSome_ofChar? (pending : Nat) (c : Char) :
    (Token.ofChar? pending c).isSome = Token.isMark c := by
  unfold Token.isMark Token.ofChar?
  split <;> rfl

theorem length_tokensAfter : ∀ (cs : List Char) (pending : Nat),
    (Scanner.tokensAfter pending cs).length = cs.countP Token.isMark
  | [], _ => rfl
  | c :: cs, pending => by
    have hfirst : (Token.ofChar? pending c).toList.length = if Token.isMark c then 1 else 0 := by
      rw [← isSome_ofChar? pending c]
      cases Token.ofChar? pending c <;> rfl
    rw [Scanner.tokensAfter_cons, List.length_append, length_tokensAfter cs, hfirst,
      List.countP_cons, Nat.add_comm]

theorem length_scan (s : String) : (Token.scan s).length = s.toList.countP Token.isMark :=
  length_tokensAfter s.toList 0

namespace Rules

variable (rules : Rules)

theorem toList_foldl_image : ∀ (ts : List Token) (out : String),
    (ts.foldl (fun out t => out ++ rules.image t) out).toList =
      out.toList ++ ts.flatMap fun t => (rules.image t).toList
  | [], out => by simp
  | t :: ts, out => by
    rw [List.foldl_cons, toList_foldl_image ts, String.toList_append, List.flatMap_cons,
      List.append_assoc]

theorem countP_image_pos {t : Token} (ht : t.Legible) :
    0 < (rules.image t).toList.countP Token.isMark := by
  have hwritten : 0 < t.written.toList.countP Token.isMark := by
    rw [← length_scan, (closed_and_scan_written ht).2]
    exact Nat.one_pos
  cases t with
  | symbol c =>
    cases hbody : rules.body? c with
    | some body =>
      have himage : rules.image (.symbol c) = "<" ++ body ++ ">" := by simp [image, hbody]
      have hmark : Token.isMark '<' = true := rfl
      rw [himage]
      simp [hmark]
    | none =>
      have himage : rules.image (.symbol c) = (Token.symbol c).written := by simp [image, hbody]
      rw [himage]
      exact hwritten
  | _ => exact hwritten

/-- **Tokens do not get fewer from pass to pass.** -/
theorem length_scan_le_length_scan_pass (s : String) :
    (Token.scan s).length ≤ (Token.scan (rules.pass s)).length := by
  have hlegible (t : Token) (ht : t ∈ Token.scan s) := legible_of_mem_scan ht
  rw [length_scan (rules.pass s), pass, toList_foldl_image, String.toList_empty, List.nil_append]
  -- only what holds token by token is left of `s`
  generalize Token.scan s = ts at hlegible ⊢
  induction ts with
  | nil => exact Nat.zero_le _
  | cons t ts ih =>
    have hfirst := rules.countP_image_pos (hlegible t (by simp))
    have hrest := ih fun u hu => hlegible u (by simp [hu])
    rw [List.flatMap_cons, List.countP_append, List.length_cons]
    omega

/-! ### The passes of a guarded derivation -/

/-- The strings that the passes of a guarded derivation start on, in order. A pass that is
stopped is the last one. -/
def passStarts {π : Type} (rules : Rules) (limit : Option Nat) (poll : EStateM RenderError π Unit) :
    Nat → String → π → List String
  | 0, _, _ => []
  | n + 1, s, p => s ::
    match rules.passGuarded limit poll (Token.scan s) "" p with
    | .ok next q => rules.passStarts limit poll n next q
    | .error _ _ => []

end Rules

/-- Call number `n + 1` of a poll fails, if no call before it does. -/
def FailsAfter {π : Type} (poll : EStateM RenderError π Unit) : Nat → π → Prop
  | 0, p => ∃ e q, poll p = .error e q
  | n + 1, p => ∀ q, poll p = .ok () q → FailsAfter poll n q

namespace Rules

variable {π : Type} {rules : Rules} {limit : Option Nat} {poll : EStateM RenderError π Unit}

/-- A derivation that succeeds has made all its passes, one over each string of the plain
derivation. -/
theorem passStarts_of_ok : ∀ {n : Nat} {s out : String} {p p' : π},
    rules.deriveGuarded limit poll n s p = .ok out p' →
      rules.passStarts limit poll n s p = (List.range n).map (rules.derive · s) ∧
        out = rules.derive n s
  | 0, _, _, _, _, h => by
    cases h
    exact ⟨rfl, rfl⟩
  | n + 1, s, out, p, p', h => by
    obtain ⟨next, q, hpass, hrest⟩ := ok_of_bind_ok h
    obtain ⟨hstarts, hout⟩ := passStarts_of_ok hrest
    have hnext : next = rules.pass s := eq_of_passGuarded hpass
    subst hnext
    refine ⟨?_, hout⟩
    rw [passStarts, hpass, List.range_succ_eq_map, List.map_cons, List.map_map]
    exact congrArg (s :: ·) hstarts

/-- A derivation that fails has made passes over the first strings of the plain derivation, and
the pass over the last of them is the one that fails. -/
theorem passStarts_of_error : ∀ {n : Nat} {s : String} {e : RenderError} {p p' : π},
    rules.deriveGuarded limit poll n s p = .error e p' →
      ∃ k < n, rules.passStarts limit poll n s p =
          (List.range (k + 1)).map (rules.derive · s) ∧
        ∃ q, rules.deriveGuarded limit poll k s p = .ok (rules.derive k s) q ∧
          rules.passGuarded limit poll (Token.scan (rules.derive k s)) "" q = .error e p'
  | 0, _, _, _, _, h => nomatch h
  | n + 1, s, e, p, p', h => by
    cases hpass : rules.passGuarded limit poll (Token.scan s) "" p with
    | error e' q =>
      rw [deriveGuarded_succ_of_error hpass] at h
      cases h
      refine ⟨0, Nat.succ_pos n, ?_, p, rfl, hpass⟩
      rw [passStarts, hpass]
      rfl
    | ok next q =>
      have hnext : next = rules.pass s := eq_of_passGuarded hpass
      subst hnext
      rw [deriveGuarded_succ_of_ok hpass] at h
      obtain ⟨k, hk, hstarts, r, hmade, hfails⟩ := passStarts_of_error h
      refine ⟨k + 1, Nat.succ_lt_succ hk, ?_, r, ?_, hfails⟩
      · rw [passStarts, hpass, List.range_succ_eq_map, List.map_cons, List.map_map]
        exact congrArg (s :: ·) hstarts
      · rw [deriveGuarded_succ_of_ok hpass]
        exact hmade

/-- A pass that succeeds has called the poll once for each token. -/
theorem FailsAfter.passGuarded : ∀ {ts : List Token} {calls : Nat} {out out' : String} {p p' : π},
    FailsAfter poll calls p → rules.passGuarded limit poll ts out p = .ok out' p' →
      ts.length ≤ calls ∧ FailsAfter poll (calls - ts.length) p'
  | [], calls, _, _, _, _, hpoll, h => by
    cases h
    exact ⟨Nat.zero_le _, hpoll⟩
  | t :: ts, calls, out, out', p, p', hpoll, h => by
    obtain ⟨q, hcall, -, hrest⟩ := ok_of_passGuarded_cons h
    cases calls with
    | zero =>
      obtain ⟨e, r, hfail⟩ := hpoll
      rw [hcall] at hfail
      cases hfail
    | succ calls =>
      obtain ⟨hle, hafter⟩ := FailsAfter.passGuarded (hpoll q hcall) hrest
      rw [List.length_cons, Nat.add_sub_add_right]
      exact ⟨Nat.succ_le_succ hle, hafter⟩

/-- **A poll that fails from some call on caps the passes**, when there is a token to be asked
about: each pass that goes through uses up a call, and there is a token for the next pass. -/
theorem length_passStarts_le : ∀ {n calls : Nat} {s : String} {p : π}, FailsAfter poll calls p →
    Token.scan s ≠ [] → (rules.passStarts limit poll n s p).length ≤ calls + 1
  | 0, _, _, _, _, _ => Nat.zero_le _
  | n + 1, calls, s, p, hpoll, hs => by
    have hpos : 0 < (Token.scan s).length := List.length_pos_iff.mpr hs
    unfold passStarts
    cases hpass : rules.passGuarded limit poll (Token.scan s) "" p with
    | error e q => simp
    | ok next q =>
      obtain ⟨hle, hafter⟩ := FailsAfter.passGuarded hpoll hpass
      have hnext : next = rules.pass s := eq_of_passGuarded hpass
      have hmore := rules.length_scan_le_length_scan_pass s
      have hnext' : Token.scan next ≠ [] := by
        rw [hnext]
        exact List.length_pos_iff.mp (by omega)
      have ih : (rules.passStarts limit poll n next q).length ≤ calls - (Token.scan s).length + 1 :=
        length_passStarts_le hafter hnext'
      show (rules.passStarts limit poll n next q).length + 1 ≤ calls + 1
      omega

theorem length_passStarts_of_scan_eq_nil : ∀ {n : Nat} {s : String} {p : π}, Token.scan s = [] →
    (rules.passStarts limit poll n s p).length = n
  | 0, _, _, _ => rfl
  | n + 1, s, p, h => by
    have ih : (rules.passStarts limit poll n "" p).length = n :=
      length_passStarts_of_scan_eq_nil rfl
    unfold passStarts
    rw [h]
    exact congrArg (· + 1) ih

end Rules

section

variable {σ : Type} {config : RenderConfig σ}

theorem failsAfter_check {limit : Nat} (hlimit : config.maxCommands = some limit) :
    ∀ {calls : Nat} {s : RenderState σ}, limit ≤ s.commands + calls →
      FailsAfter config.check calls s
  | 0, s, h => by
    have hover : config.overrun (s.commands + 1) = some (.commandLimitExceeded limit) :=
      (config.overrun_eq_some_iff _ _).mpr ⟨limit, hlimit, by omega, rfl⟩
    exact ⟨_, _, RenderConfig.check_of_overrun hover⟩
  | calls + 1, s, h => by
    intro q hq
    obtain ⟨-, rfl⟩ := (config.check_eq_ok_iff s q).mp hq
    apply failsAfter_check hlimit
    show limit ≤ s.commands + 1 + calls
    omega

theorem failsAfter_check_of_raised {s : RenderState σ}
    (hraised : config.cancel.any (· s.turtle.sink.sink) = true) : FailsAfter config.check 0 s := by
  have hverdict : config.verdict (s.commands + 1) s.turtle.sink.sink ≠ none := by
    unfold RenderConfig.verdict
    rw [if_pos hraised]
    cases config.overrun (s.commands + 1) <;> simp
  obtain ⟨e, he⟩ := Option.ne_none_iff_exists'.mp hverdict
  refine ⟨e, { s with commands := s.commands + 1 }, ?_⟩
  rw [config.check_eq_verdict, he]

end

/-- **A failing poll caps the passes of an expansion that holds a token**: when each call after
the first `calls` ones fails, no more than `calls + 1` passes are started, however many are asked
for. So a rendering that expands first starts one pass more than its limit on commands at most,
and one pass at most if its flag is up. Over a start without tokens the poll is never called, and
all passes are made. The passes counted are those of the derivation: all that are asked for if it
succeeds, and the ones up to the pass it fails in if it does not. -/
theorem passes_capped_iff (g : Grammar) :
    (∀ (π : Type) (limit : Option Nat) (poll : EStateM RenderError π Unit) (n : Nat) (p : π),
      (∀ out p', g.rules.deriveGuarded limit poll n g.start p = .ok out p' →
        g.rules.passStarts limit poll n g.start p =
            (List.range n).map (g.rules.derive · g.start) ∧
          out = g.rules.derive n g.start) ∧
      ∀ e p', g.rules.deriveGuarded limit poll n g.start p = .error e p' →
        ∃ k < n, g.rules.passStarts limit poll n g.start p =
            (List.range (k + 1)).map (g.rules.derive · g.start) ∧
          ∃ q, g.rules.deriveGuarded limit poll k g.start p =
              .ok (g.rules.derive k g.start) q ∧
            g.rules.passGuarded limit poll (Token.scan (g.rules.derive k g.start)) "" q =
              .error e p') ∧
    (∀ (π : Type) (limit : Option Nat) (poll : EStateM RenderError π Unit) (calls : Nat) (p : π),
      FailsAfter poll calls p →
        ((∀ n, (g.rules.passStarts limit poll n g.start p).length ≤ calls + 1) ↔
          Token.scan g.start ≠ [])) ∧
    ∀ (σ : Type) [LineSink σ] (config : RenderConfig σ) (sink : σ), Token.scan g.start ≠ [] →
      let passes := (g.rules.passStarts config.maxExpansion config.check
        g.evaluationDepth.toNat g.start (.initial g sink)).length
      (∀ limit, config.maxCommands = some limit → passes ≤ limit + 1) ∧
      (config.cancel.any (· (LineSink.moveTo sink .origin)) = true → passes ≤ 1) := by
  refine ⟨?_, ?_, ?_⟩
  · intro π limit poll n p
    exact ⟨fun _ _ => Rules.passStarts_of_ok, fun _ _ => Rules.passStarts_of_error⟩
  · intro π limit poll calls p hpoll
    constructor
    · intro hcapped hs
      have hle := hcapped (calls + 2)
      rw [Rules.length_passStarts_of_scan_eq_nil hs] at hle
      omega
    · intro hs n
      exact Rules.length_passStarts_le hpoll hs
  · intro σ _ config sink hs passes
    constructor
    · intro limit hlimit
      have hpoll : FailsAfter config.check limit (RenderState.initial g sink) :=
        failsAfter_check hlimit (Nat.le_add_left _ _)
      exact Rules.length_passStarts_le hpoll hs
    · intro hraised
      have hpoll : FailsAfter config.check 0 (RenderState.initial g sink) :=
        failsAfter_check_of_raised hraised
      exact Rules.length_passStarts_le hpoll hs

/-- A poll that always fails, and a start with one token: the derivation fails in its first pass. -/
theorem passes_capped_first :
    let g := (Grammar.ofStart "F").withRule 'F' "FF"
    let poll : EStateM RenderError Unit Unit := throw .cancelled
    FailsAfter poll 0 () ∧ Token.scan g.start ≠ [] ∧
      g.rules.deriveGuarded none poll 3 g.start () = .error .cancelled () ∧
      (∃ k < 3, g.rules.passStarts none poll 3 g.start () =
        (List.range (k + 1)).map (g.rules.derive · g.start)) ∧
      ∀ n, (g.rules.passStarts none poll n g.start ()).length ≤ 1 := by
  intro g poll
  have hpoll : FailsAfter poll 0 () := ⟨_, _, rfl⟩
  have hscan : Token.scan g.start = [.symbol 'F'] := by decide
  have hs : Token.scan g.start ≠ [] := by simp [hscan]
  have hfirst : g.rules.passGuarded none poll (Token.scan g.start) "" () =
      .error .cancelled () := by
    rw [hscan]
    rfl
  have hfails : g.rules.deriveGuarded none poll 3 g.start () = .error .cancelled () :=
    Rules.deriveGuarded_succ_of_error hfirst 2
  obtain ⟨hmade, hcapped, -⟩ := passes_capped_iff g
  obtain ⟨k, hk, hstarts, -⟩ := (hmade Unit none poll 3 ()).2 _ _ hfails
  exact ⟨hpoll, hs, hfails, ⟨k, hk, hstarts⟩, (hcapped Unit none poll 0 () hpoll).mpr hs⟩

/-- **Passes over a start without tokens cannot be stopped**: neither a poll that always fails
nor a raised flag ends one of four thousand million passes. -/
theorem passes_without_tokens :
    FailsAfter (throw .cancelled : EStateM RenderError Unit Unit) 0 () ∧
    (Rules.empty.passStarts none (throw .cancelled : EStateM RenderError Unit Unit) 3 "" ()).length =
      3 ∧
    (∃ out, (Rules.empty.deriveGuarded none (throw .cancelled : EStateM RenderError Unit Unit) 3
      "" ()) = .ok out ()) ∧
    let g := (Grammar.ofStart "").withEvaluationDepth 4294967295
    let config : RenderConfig (Array PathCommand) :=
      { strategy := .materialized, maxCommands := some 0, cancel := some fun _ => true }
    (g.rules.passStarts none config.check g.evaluationDepth.toNat g.start (.initial g #[])).length =
      4294967295 :=
  ⟨⟨_, _, rfl⟩, rfl, ⟨_, rfl⟩, Rules.length_passStarts_of_scan_eq_nil rfl⟩

end LSystem
