/-
# The outcome of a bounded derivation

A derivation with a limit on its length and nothing else to stop it either gives the string of the
plain derivation, or reports the first pass that writes too much. Which of the two is said by the
plain derivation alone: it succeeds if and only if the string behind every pass fits (`Rules.Fits`).

The length is measured behind every token, and what has been written never gets shorter within a
pass. So a pass that writes too much is stopped at the token that crosses the limit, and the length
that is reported overshoots by no more than what one token is written as
(`Rules.passGuarded_outcome`): a body between its marks, or a turn with its digits, of which a machine
word has twenty. Passes follow by induction (`Rules.deriveGuarded_outcome`).

Key definitions: `Rules.longestBody`, `Rules.Overshoots`, `Rules.Fits`.
Key theorems: `Rules.size_image_le`, `Rules.passGuarded_outcome`, `Rules.deriveGuarded_outcome`,
`bounded_outcome`.
-/
import LSystem.Proofs.GuardedDerivation

namespace LSystem

/-! ### How long a written token is -/

/-- A written token is a character, or the digits of a machine word and a character. -/
theorem Token.size_written_le : ∀ {t : Token}, t.Legible → t.written.utf8ByteSize ≤ 21
  | .symbol c, h => by
    have hletter : (canonical c).isAlpha = true := isAlpha_canonical h
    have hsmall : (canonical c).utf8Size ≤ 4 := Char.utf8Size_le_four _
    rw [written, String.utf8ByteSize_singleton]
    omega
  | .turn d multiplier, h => by
    have hsign : (String.singleton d.symbol).utf8ByteSize = 1 := by cases d <;> rfl
    have hdigits : (Decimal.digits multiplier).length ≤ 20 := by
      have hword : multiplier ≤ 18446744073709551615 := h
      have hpow : Nat.pow 10 20 = 100000000000000000000 := rfl
      exact Decimal.length_digits_le (by decide) (by omega)
    rw [written, String.utf8ByteSize_append, hsign]
    by_cases hzero : multiplier = 0
    · simp [hzero]
    · rw [if_neg hzero, Decimal.utf8ByteSize_digits]
      omega
  | .push, _ | .pop, _ | .enterScale, _ | .exitScale, _ | .forcedDraw, _ => by decide

namespace Rules

variable {rules : Rules}

variable (rules) in
/-- The length of the longest body in bytes; zero without rules. -/
def longestBody : Nat := rules.entries.foldr (fun e longest => max e.2.utf8ByteSize longest) 0

theorem size_le_foldr_max {e : Char × String} : ∀ {es : List (Char × String)}, e ∈ es →
    e.2.utf8ByteSize ≤ es.foldr (fun e longest => max e.2.utf8ByteSize longest) 0
  | d :: es, h => by
    rw [List.foldr_cons]
    rcases List.mem_cons.mp h with rfl | h
    · exact Nat.le_max_left _ _
    · exact Nat.le_trans (size_le_foldr_max h) (Nat.le_max_right _ _)

theorem size_body_le {c : Char} {body : String} (h : rules.body? c = some body) :
    body.utf8ByteSize ≤ rules.longestBody := by
  obtain ⟨e, he, rfl⟩ := Option.map_eq_some_iff.mp h
  exact size_le_foldr_max (List.mem_of_find?_eq_some he)

/-- **What a pass writes for one token** is a body between its marks, or a written token. -/
theorem size_image_le {t : Token} (ht : t.Legible) :
    (rules.image t).utf8ByteSize ≤ max (rules.longestBody + 2) 21 := by
  have hwritten := Token.size_written_le ht
  cases t with
  | symbol c =>
    cases hbody : rules.body? c with
    | some body =>
      have himage : rules.image (.symbol c) = "<" ++ body ++ ">" := by simp [image, hbody]
      have hmarks : "<".utf8ByteSize = 1 ∧ ">".utf8ByteSize = 1 := by decide
      have hsize := size_body_le hbody
      rw [himage, String.utf8ByteSize_append, String.utf8ByteSize_append]
      omega
    | none =>
      have himage : rules.image (.symbol c) = (Token.symbol c).written := by simp [image, hbody]
      rw [himage]
      omega
  | _ => exact Nat.le_trans hwritten (Nat.le_max_right _ _)

theorem size_le_foldl_image : ∀ (ts : List Token) (out : String),
    out.utf8ByteSize ≤ (ts.foldl (fun out t => out ++ rules.image t) out).utf8ByteSize
  | [], _ => Nat.le_refl _
  | t :: ts, out => by
    have hfirst : out.utf8ByteSize ≤ (out ++ rules.image t).utf8ByteSize := by
      rw [String.utf8ByteSize_append]
      omega
    exact Nat.le_trans hfirst (size_le_foldl_image ts _)

/-! ### One pass -/

/-- A length is reported for a string that is too long: it is the first one measured beyond the
limit, hence beyond it by one token at most. -/
structure Overshoots (rules : Rules) (limit length : Nat) (full : String) : Prop where
  beyond : limit < length
  within : length ≤ full.utf8ByteSize
  by_one_token : length ≤ limit + max (rules.longestBody + 2) 21

variable {π : Type} {limit : Nat}

/-- **The outcome of a pass.** It writes all it has to write if that fits, and stops at the token
that does not fit otherwise. -/
theorem passGuarded_outcome : ∀ {ts : List Token} {out full : String} (p : π),
    (∀ t ∈ ts, t.Legible) → out.utf8ByteSize ≤ limit →
    full = ts.foldl (fun out t => out ++ rules.image t) out →
      (full.utf8ByteSize ≤ limit →
        rules.passGuarded (some limit) (pure ()) ts out p = .ok full p) ∧
      (limit < full.utf8ByteSize → ∃ length, rules.Overshoots limit length full ∧
        rules.passGuarded (some limit) (pure ()) ts out p =
          .error (.expansionLimitExceeded length limit) p)
  | [], out, full, p, _, hout, hfull => by
    have hsame : full = out := hfull
    subst hsame
    exact ⟨fun _ => rfl, fun hlong => absurd hout (Nat.not_le.mpr hlong)⟩
  | t :: ts, out, full, p, hts, hout, hfull => by
    rw [List.foldl_cons] at hfull
    have hstep : rules.passGuarded (some limit) (pure ()) (t :: ts) out p =
        if limit < (out ++ rules.image t).utf8ByteSize then
          .error (.expansionLimitExceeded (out ++ rules.image t).utf8ByteSize limit) p
        else rules.passGuarded (some limit) (pure ()) ts (out ++ rules.image t) p := by
      rw [passGuarded]
      show (if limit < (out ++ rules.image t).utf8ByteSize then _ else _ :
        EStateM RenderError π String) p = _
      split <;> rfl
    have hgrow : (out ++ rules.image t).utf8ByteSize ≤ full.utf8ByteSize :=
      hfull ▸ size_le_foldl_image ts _
    rw [hstep]
    by_cases hlong : limit < (out ++ rules.image t).utf8ByteSize
    · rw [if_pos hlong]
      have himage : (rules.image t).utf8ByteSize ≤ max (rules.longestBody + 2) 21 :=
        size_image_le (hts t (by simp))
      have hby : (out ++ rules.image t).utf8ByteSize ≤ limit + max (rules.longestBody + 2) 21 := by
        rw [String.utf8ByteSize_append]
        omega
      exact ⟨fun hfits => by omega, fun _ => ⟨_, ⟨hlong, hgrow, hby⟩, rfl⟩⟩
    · rw [if_neg hlong]
      exact passGuarded_outcome p (fun u hu => hts u (by simp [hu])) (Nat.not_lt.mp hlong) hfull

/-! ### All passes -/

variable (rules limit) in
/-- Every pass writes a string within the limit. -/
def Fits (n : Nat) (s : String) : Prop :=
  ∀ k, 0 < k → k ≤ n → (rules.derive k s).utf8ByteSize ≤ limit

theorem fits_succ_iff {n : Nat} {s : String} : rules.Fits limit (n + 1) s ↔
    (rules.pass s).utf8ByteSize ≤ limit ∧ rules.Fits limit n (rules.pass s) := by
  constructor
  · intro h
    exact ⟨h 1 (by omega) (by omega), fun k hk hkn => h (k + 1) (by omega) (by omega)⟩
  · rintro ⟨hfirst, hrest⟩ k hk hkn
    obtain ⟨k, rfl⟩ : ∃ j, k = j + 1 := ⟨k - 1, by omega⟩
    rcases Nat.eq_zero_or_pos k with rfl | hpos
    · exact hfirst
    · exact hrest k hpos (by omega)

/-- **The outcome of all passes.** They go through if every string fits; else the first one that
does not is reported. -/
theorem deriveGuarded_outcome : ∀ (n : Nat) (s : String) (p : π),
    (rules.Fits limit n s →
      rules.deriveGuarded (some limit) (pure ()) n s p = .ok (rules.derive n s) p) ∧
    (¬ rules.Fits limit n s → ∃ k length, k < n ∧ rules.Fits limit k s ∧
      rules.Overshoots limit length (rules.derive (k + 1) s) ∧
      rules.deriveGuarded (some limit) (pure ()) n s p =
        .error (.expansionLimitExceeded length limit) p)
  | 0, s, p => ⟨fun _ => rfl, fun h => absurd (fun k hk hkn => by omega) h⟩
  | n + 1, s, p => by
    have hempty : "".utf8ByteSize ≤ limit := Nat.zero_le limit
    have hfull : rules.pass s = (Token.scan s).foldl (fun out t => out ++ rules.image t) "" := rfl
    obtain ⟨hpass, hover⟩ := passGuarded_outcome p (fun t ht => legible_of_mem_scan ht) hempty hfull
    by_cases hfirst : (rules.pass s).utf8ByteSize ≤ limit
    · obtain ⟨hok, herror⟩ := deriveGuarded_outcome n (rules.pass s) p
      rw [deriveGuarded_succ_of_ok (hpass hfirst), fits_succ_iff]
      refine ⟨fun h => hok h.2, fun h => ?_⟩
      have hrest : ¬ rules.Fits limit n (rules.pass s) := fun hrest => h ⟨hfirst, hrest⟩
      obtain ⟨k, length, hkn, hfits, hlength, hrun⟩ := herror hrest
      exact ⟨k + 1, length, by omega, fits_succ_iff.mpr ⟨hfirst, hfits⟩, hlength, hrun⟩
    · obtain ⟨length, hlength, hrun⟩ := hover (Nat.not_le.mp hfirst)
      rw [deriveGuarded_succ_of_error hrun]
      refine ⟨fun h => absurd (fits_succ_iff.mp h).1 hfirst, fun _ => ?_⟩
      exact ⟨0, length, by omega, fun k hk hk0 => by omega, hlength, rfl⟩

/-- The outcome with nothing asked, as a value. -/
theorem deriveWithin_outcome (n : Nat) (s : String) :
    (rules.Fits limit n s → rules.deriveWithin limit n s = .ok (rules.derive n s)) ∧
    (¬ rules.Fits limit n s → ∃ k length, k < n ∧ rules.Fits limit k s ∧
      rules.Overshoots limit length (rules.derive (k + 1) s) ∧
      rules.deriveWithin limit n s = .error (.expansionLimitExceeded length limit)) := by
  obtain ⟨hok, herror⟩ := deriveGuarded_outcome n s ()
  unfold deriveWithin EStateM.run
  refine ⟨fun h => by rw [hok h], fun h => ?_⟩
  obtain ⟨k, length, hkn, hfits, hlength, hrun⟩ := herror h
  exact ⟨k, length, hkn, hfits, hlength, by rw [hrun]⟩

end Rules

/-- **The exact outcome of a bounded derivation.** It returns a string if and only if the string
behind every pass is within the limit, and then the one of the plain derivation. Otherwise it
reports, with the limit, the first pass whose string is too long, by a length beyond the limit that
is no greater than that of the whole string and overshoots by one token at most: the longest body
between its marks, or twenty digits and a sign. -/
theorem bounded_outcome (rules : Rules) (limit n : Nat) (s : String) :
    let fits := ∀ k, 0 < k → k ≤ n → (rules.derive k s).utf8ByteSize ≤ limit
    ((∃ out, rules.deriveWithin limit n s = .ok out) ↔ fits) ∧
    (fits → rules.deriveWithin limit n s = .ok (rules.derive n s)) ∧
    (¬ fits → ∃ k length, 0 < k ∧ k ≤ n ∧
      (∀ j, 0 < j → j < k → (rules.derive j s).utf8ByteSize ≤ limit) ∧
      limit < (rules.derive k s).utf8ByteSize ∧
      rules.deriveWithin limit n s = .error (.expansionLimitExceeded length limit) ∧
      limit < length ∧ length ≤ (rules.derive k s).utf8ByteSize ∧
      length ≤ limit + max (rules.longestBody + 2) 21) := by
  intro fits
  obtain ⟨hreturns, hreports⟩ := Rules.deriveWithin_outcome n s
  refine ⟨⟨?_, fun h => ⟨_, hreturns h⟩⟩, hreturns, fun h => ?_⟩
  · rintro ⟨out, hout⟩
    by_cases h : fits
    · exact h
    · obtain ⟨k, length, -, -, -, hrun⟩ := hreports h
      rw [hrun] at hout
      cases hout
  · obtain ⟨k, length, hkn, hfits, hlength, hrun⟩ := hreports h
    have hearlier : ∀ j, 0 < j → j < k + 1 → (rules.derive j s).utf8ByteSize ≤ limit :=
      fun j hj hjk => hfits j hj (by omega)
    have hlong : limit < (rules.derive (k + 1) s).utf8ByteSize :=
      Nat.lt_of_lt_of_le hlength.beyond hlength.within
    exact ⟨k + 1, length, by omega, by omega, hearlier, hlong, hrun, hlength.beyond, hlength.within,
      hlength.by_one_token⟩

/-- A curve whose first pass meets the limit and whose second one crosses it. -/
theorem bounded_outcome_curve :
    let rules := Rules.empty.insert 'F' "F+F"
    rules.deriveWithin 5 1 "F" = .ok (rules.derive 1 "F") ∧
      ∃ k length, 0 < k ∧ k ≤ 2 ∧
        (∀ j, 0 < j → j < k → (rules.derive j "F").utf8ByteSize ≤ 5) ∧
        5 < (rules.derive k "F").utf8ByteSize ∧
        rules.deriveWithin 5 2 "F" = .error (.expansionLimitExceeded length 5) ∧
        5 < length ∧ length ≤ (rules.derive k "F").utf8ByteSize ∧
        length ≤ 5 + max (rules.longestBody + 2) 21 := by
  intro rules
  have hfirst : (rules.derive 1 "F").utf8ByteSize = 5 := by decide
  have hsecond : (rules.derive 2 "F").utf8ByteSize = 13 := by decide
  obtain ⟨-, hreturns, -⟩ := bounded_outcome rules 5 1 "F"
  obtain ⟨-, -, hreports⟩ := bounded_outcome rules 5 2 "F"
  refine ⟨hreturns fun k hk hk1 => ?_, hreports fun h => ?_⟩
  · obtain rfl : k = 1 := by omega
    omega
  · have hfits := h 2 (by decide) (by decide)
    omega

end LSystem
