/-
# Parallel derivation

A step of an L-system replaces every letter that has a rule at once and keeps the others. A pass does
so too, but for one thing: a drawing or moving letter without a rule is written in upper case
(`letters_pass`). So the letters of a derived string are those of the parallel derivation in which a
letter without a rule is kept in its written form (`letters_derive`).

With its letter in upper case, the next pass may find a rule that the letter itself does not have.
What comes out is the parallel derivation all the same, as long as that rule gives back the letter
alone (`Rules.Settled`): then a letter kept and the letter written for it stay beside each other
(`Rules.Beside.offspring`), and both derivations show the same letters up to the case of drawing and
moving ones. A table with an unsettled letter derives something else from that letter in two passes
(`letters_derive_iff`), as the rule `F → G` does from an `f` (`small_letter_replaced`).

Key definitions: `letters`, `Rules.offspring`, `Rules.parallel`, `Rules.Settled`, `Rules.Beside`.
Key theorems: `letters_pass`, `letters_derive`, `Rules.Beside.offspring`, `forall₂_parallel`,
`letters_derive_iff`.
-/
import Mathlib.Data.List.Forall2
import LSystem.Proofs.GuardedDerivation
import LSystem.Proofs.PreExpansion

namespace LSystem

/-! ### The letters of a string -/

/-- The letters of a string, in order. -/
def letters (s : String) : List Char := s.toList.filter Char.isAlpha

/-- The letter of a symbol. -/
def Token.letter? : Token → Option Char
  | symbol c => some c
  | _ => none

theorem letter?_ofChar? (pending : Nat) (c : Char) :
    (Token.ofChar? pending c).toList.filterMap Token.letter? = [c].filter Char.isAlpha := by
  by_cases hc : c.isAlpha = true
  · rw [ofChar?_of_isAlpha pending hc]
    simp [Token.letter?, hc]
  · have hnot : ∀ t, Token.ofChar? pending c = some t → t.letter? = none := by
      intro t ht
      cases t with
      | symbol d =>
        obtain ⟨rfl, hd⟩ := (ofChar?_eq_symbol_iff pending d c).mp ht
        exact absurd hd hc
      | _ => rfl
    cases ht : Token.ofChar? pending c with
    | none => simp [hc]
    | some t => simp [hc, hnot t ht]

theorem filterMap_tokensAfter : ∀ (cs : List Char) (pending : Nat),
    (Scanner.tokensAfter pending cs).filterMap Token.letter? = cs.filter Char.isAlpha
  | [], _ => rfl
  | c :: cs, pending => by
    rw [Scanner.tokensAfter_cons, List.filterMap_append, letter?_ofChar?, filterMap_tokensAfter cs,
      ← List.filter_append, List.singleton_append]

theorem filterMap_scan (s : String) : (Token.scan s).filterMap Token.letter? = letters s :=
  filterMap_tokensAfter s.toList 0

/-! ### Derivations of letters -/

namespace Rules

variable (rules : Rules)

/-- What a step makes of a letter: the letters of its body if it has a rule, and else the letter as
it is kept. -/
def offspring (kept : Char → Char) (c : Char) : List Char :=
  match rules.body? c with
  | some body => letters body
  | none => [kept c]

/-- A number of steps, in each of which all letters are replaced at once. -/
def parallel (kept : Char → Char) : Nat → List Char → List Char
  | 0, cs => cs
  | n + 1, cs => parallel kept n (cs.flatMap (rules.offspring kept))

theorem letters_image {t : Token} (ht : t.Legible) :
    letters (rules.image t) = t.letter?.toList.flatMap (rules.offspring Token.canonical) := by
  cases t with
  | symbol c =>
    have hc : (Token.canonical c).isAlpha = true := isAlpha_canonical ht
    cases hbody : rules.body? c with
    | some body => simp [letters, image, offspring, Token.letter?, hbody]
    | none => simp [letters, image, offspring, Token.letter?, Token.written, hbody, hc]
  | turn d multiplier =>
    have hdigits : (Decimal.digits multiplier).filter Char.isAlpha = [] := by
      rw [List.filter_eq_nil_iff]
      intro c hc halpha
      have hdigit : c.isDigit = true := Decimal.isDigit_of_mem_digits hc
      rw [isDigit_of_isAlpha halpha] at hdigit
      cases hdigit
    have hsign : d.symbol.isAlpha = false := by cases d <;> rfl
    by_cases hzero : multiplier = 0
    · simp [letters, image, Token.letter?, Token.written, hzero, hsign]
    · simp [letters, image, Token.letter?, Token.written, hzero, hsign, hdigits]
  | push | pop | enterScale | exitScale | forcedDraw => simp [letters, image, Token.letter?, Token.written]

theorem letters_flatMap_image : ∀ ts : List Token, (∀ t ∈ ts, t.Legible) →
    (ts.flatMap fun t => (rules.image t).toList).filter Char.isAlpha =
      (ts.filterMap Token.letter?).flatMap (rules.offspring Token.canonical)
  | [], _ => rfl
  | t :: ts, h => by
    have hfirst : (rules.image t).toList.filter Char.isAlpha =
        t.letter?.toList.flatMap (rules.offspring Token.canonical) :=
      rules.letters_image (h t (by simp))
    have hrest := letters_flatMap_image ts fun u hu => h u (by simp [hu])
    rw [List.flatMap_cons, List.filter_append, hfirst, hrest]
    cases ht : t.letter? <;> simp [ht]

/-- **The letters of a pass**: one step, in which a letter without a rule is kept in its written
form. -/
theorem letters_pass (s : String) :
    letters (rules.pass s) = (letters s).flatMap (rules.offspring Token.canonical) := by
  rw [← filterMap_scan s, ← rules.letters_flatMap_image _ fun _ => legible_of_mem_scan, letters, pass,
    toList_foldl_image, String.toList_empty, List.nil_append]

/-- **The letters of a derivation.** -/
theorem letters_derive : ∀ (n : Nat) (s : String),
    letters (rules.derive n s) = rules.parallel Token.canonical n (letters s)
  | 0, _ => rfl
  | n + 1, s => by rw [derive, letters_derive n, letters_pass, parallel]

/-! ### Letters that stay beside each other -/

/-- If a letter has no rule, but its written form has one, this rule gives back the letter alone. -/
def Settled (c : Char) : Prop :=
  rules.body? c = none → ∀ body, rules.body? (Token.canonical c) = some body →
    (letters body).map Token.canonical = [Token.canonical c]

instance (c : Char) : Decidable (rules.Settled c) :=
  decidable_of_iff
    (rules.body? c = none → ∀ body ∈ (rules.body? (Token.canonical c)).toList,
      (letters body).map Token.canonical = [Token.canonical c])
    (by simp only [Option.mem_toList]; exact Iff.rfl)

/-- All letters of a string are settled. -/
def AllSettled (s : String) : Prop := ∀ c ∈ letters s, rules.Settled c

instance (s : String) : Decidable (rules.AllSettled s) := List.decidableBAll ..

/-- A letter of the one derivation and the letter of the other one in its place: the same settled
letter, or one without a rule and its written form. -/
def Beside (c d : Char) : Prop :=
  rules.Settled c ∧ (d = c ∨ (rules.body? c = none ∧ d = Token.canonical c))

variable {rules}

theorem Beside.canonical_eq {c d : Char} (h : rules.Beside c d) :
    Token.canonical c = Token.canonical d := by
  rcases h.2 with rfl | ⟨-, rfl⟩
  · rfl
  · exact (Token.canonical_canonical c).symm

theorem eq_or_eq_canonical {c d : Char} (hsmall : Token.canonical c ≠ c)
    (h : Token.canonical d = Token.canonical c) : d = c ∨ d = Token.canonical c := by
  unfold Token.canonical at hsmall h ⊢
  grind [Token.isDraw, Token.isMove]

theorem AllSettled.beside {s : String} (h : rules.AllSettled s) :
    List.Forall₂ rules.Beside (letters s) (letters s) :=
  List.forall₂_same.mpr fun c hc => ⟨h c hc, .inl rfl⟩

/-- **Letters beside each other have offspring beside each other**, if the letters of all bodies are
settled. -/
theorem Beside.offspring (hbodies : ∀ e ∈ rules.entries, rules.AllSettled e.2) {c d : Char}
    (h : rules.Beside c d) :
    List.Forall₂ rules.Beside (rules.offspring id c) (rules.offspring Token.canonical d) := by
  obtain ⟨hsettled, hcd⟩ := h
  unfold Rules.offspring
  cases hc : rules.body? c with
  | some body =>
    have hsame : d = c := by
      rcases hcd with hsame | ⟨hnone, -⟩
      · exact hsame
      · rw [hc] at hnone
        cases hnone
    rw [hsame, hc]
    obtain ⟨e, he, rfl⟩ := Option.map_eq_some_iff.mp hc
    exact (hbodies e (List.mem_of_find?_eq_some he)).beside
  | none =>
    cases hd : rules.body? d with
    | none =>
      have hwritten : Token.canonical d = Token.canonical c := by
        rcases hcd with rfl | ⟨-, rfl⟩
        · rfl
        · exact Token.canonical_canonical c
      exact .cons ⟨hsettled, .inr ⟨hc, hwritten⟩⟩ .nil
    | some body =>
      -- the written form has a rule, so it is not the letter, and the rule gives back the letter
      have hne : d ≠ c := by
        rintro rfl
        rw [hc] at hd
        cases hd
      have hdc : d = Token.canonical c := (hcd.resolve_left hne).2
      have hbody := hsettled hc body (hdc ▸ hd)
      obtain ⟨x, hletters, hx⟩ := List.map_eq_singleton_iff.mp hbody
      have hsmall : Token.canonical c ≠ c := hdc ▸ hne
      have hxc : x = c ∨ x = Token.canonical c := eq_or_eq_canonical hsmall hx
      simp only [hletters]
      exact .cons ⟨hsettled, hxc.imp_right fun hx => ⟨hc, hx⟩⟩ .nil

/-- **Both derivations stay beside each other.** -/
theorem forall₂_parallel (hbodies : ∀ e ∈ rules.entries, rules.AllSettled e.2) :
    ∀ {n : Nat} {cs ds : List Char}, List.Forall₂ rules.Beside cs ds →
      List.Forall₂ rules.Beside (rules.parallel id n cs) (rules.parallel Token.canonical n ds)
  | 0, _, _, h => h
  | n + 1, cs, ds, h => by
    have hstep : List.Forall₂ rules.Beside (cs.flatMap (rules.offspring id))
        (ds.flatMap (rules.offspring Token.canonical)) :=
      List.rel_flatMap h fun _ _ hcd => hcd.offspring hbodies
    exact forall₂_parallel hbodies (n := n) hstep

/-- A derivation over settled letters is the parallel one, up to the case of drawing and moving
letters. -/
theorem letters_derive_of_settled {s : String} (hs : rules.AllSettled s)
    (hbodies : ∀ e ∈ rules.entries, rules.AllSettled e.2) (n : Nat) :
    (letters (rules.derive n s)).map Token.canonical =
      (rules.parallel id n (letters s)).map Token.canonical := by
  rw [letters_derive]
  have hbeside := forall₂_parallel hbodies (n := n) hs.beside
  have hwritten : List.Forall₂ (fun c d => Token.canonical c = Token.canonical d)
      (rules.parallel id n (letters s)) (rules.parallel Token.canonical n (letters s)) :=
    hbeside.imp fun _ _ => Beside.canonical_eq
  rw [← List.forall₂_eq_eq_eq, List.forall₂_map_left_iff, List.forall₂_map_right_iff]
  exact hwritten.flip.imp fun _ _ => Eq.symm

/-- Two passes over a letter without a rule show what the rule of its written form makes of it. -/
theorem letters_derive_two {c : Char} {body : String} (hc : rules.body? c = none)
    (hbody : rules.body? (Token.canonical c) = some body) :
    letters (rules.derive 2 (.singleton c)) = letters body ∧
      rules.parallel id 2 (letters (.singleton c)) = [c] := by
  have halpha : c.isAlpha = true := by
    have hsmall : Token.canonical c ≠ c := by
      intro hsame
      rw [hsame, hc] at hbody
      cases hbody
    have hcase : c = 'f' ∨ c = 'g' := by
      unfold Token.canonical at hsmall
      grind [Token.isDraw, Token.isMove]
    rcases hcase with rfl | rfl <;> rfl
  have hletter : letters (.singleton c) = [c] := by simp [letters, halpha]
  rw [letters_derive, hletter]
  constructor
  · simp [parallel, offspring, hc, hbody]
  · simp [parallel, offspring, hc]

end Rules

/-- **What a derivation makes of letters.** Its letters are those of the parallel derivation that
keeps a letter without a rule in its written form. They are those of the parallel derivation that
keeps it as it is, up to the case of drawing and moving letters, if all letters of the start and of
the bodies are settled. And for all starts and numbers of passes they are if and only if every letter
is settled. -/
theorem letters_derive_iff (rules : Rules) :
    (∀ n s, letters (rules.derive n s) = rules.parallel Token.canonical n (letters s)) ∧
    (∀ s, rules.AllSettled s → (∀ e ∈ rules.entries, rules.AllSettled e.2) →
      ∀ n, (letters (rules.derive n s)).map Token.canonical =
        (rules.parallel id n (letters s)).map Token.canonical) ∧
    ((∀ n s, (letters (rules.derive n s)).map Token.canonical =
        (rules.parallel id n (letters s)).map Token.canonical) ↔
      ∀ c, rules.Settled c) := by
  refine ⟨rules.letters_derive, fun s hs hbodies n => ?_, fun h c hc body hbody => ?_, fun h n s => ?_⟩
  · exact Rules.letters_derive_of_settled hs hbodies n
  · obtain ⟨hderived, hkept⟩ := Rules.letters_derive_two hc hbody
    have hequal := h 2 (.singleton c)
    rwa [hderived, hkept] at hequal
  · exact Rules.letters_derive_of_settled (fun c _ => h c) (fun _ _ c _ => h c) n

/-- Small letters that stay what they are: one whose written form has no rule, and one that the rule
of its written form gives back. -/
theorem letters_derive_kept :
    let rules := (Rules.empty.insert 'X' "f+Xg").insert 'G' "3g"
    rules.AllSettled "Xf" ∧ (∀ e ∈ rules.entries, rules.AllSettled e.2) ∧
      (letters (rules.derive 3 "Xf")).map Token.canonical =
        (rules.parallel id 3 (letters "Xf")).map Token.canonical := by
  intro rules
  have hs : rules.AllSettled "Xf" := by decide
  have hbodies : ∀ e ∈ rules.entries, rules.AllSettled e.2 := by decide
  exact ⟨hs, hbodies, (letters_derive_iff rules).2.1 "Xf" hs hbodies 3⟩

/-- **A rule for `F` replaces an `f` that has none**: the first pass writes the small letter in upper
case, and the second one finds the rule. -/
theorem small_letter_replaced :
    let rules := Rules.empty.insert 'F' "G"
    rules.body? 'f' = none ∧ rules.derive 2 "f" = "<G>" ∧
      (letters (rules.derive 2 "f")).map Token.canonical ≠
        (rules.parallel id 2 (letters "f")).map Token.canonical := by
  decide

end LSystem
