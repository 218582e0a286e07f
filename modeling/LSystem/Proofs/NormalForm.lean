/-
# Printing and reading back

Tokens printed one behind the other are read back, all of them and with their multipliers
(`scan_print`): the digits of a multiplier stand right before their sign, and no printed token
leaves digits for the next one. Only a drawing or moving letter is read back in upper case, since it is
printed so.

A pass over a string none of whose letters has a rule prints its tokens. What it prints holds the
same letters again, up to that case, so a second pass prints the same string: one pass brings such a
string into its normal form (`pass_normalizes`).

Key definitions: `Token.print`, `Rules.Inert`.
Key theorems: `scan_print`, `Rules.pass_eq_print`, `Rules.Inert.derive`, `pass_normalizes`.
-/
import Mathlib.Data.List.Basic
import LSystem.Proofs.PreExpansion

namespace LSystem

/-! ### Printing tokens -/

/-- Tokens written one behind the other. -/
def Token.print (ts : List Token) : String := ts.foldl (fun out t => out ++ t.written) ""

theorem closed_and_scan_foldl_written : ∀ (ts : List Token) (out : String), Closed out →
    (∀ t ∈ ts, t.Legible) →
      Closed (ts.foldl (fun out t => out ++ t.written) out) ∧
        Token.scan (ts.foldl (fun out t => out ++ t.written) out) =
          Token.scan out ++ ts.map Token.plain
  | [], out, hout, _ => ⟨hout, (List.append_nil _).symm⟩
  | t :: ts, out, hout, h => by
    obtain ⟨hclosed, hscan⟩ := closed_and_scan_written (h t (by simp))
    have hnext : Closed (out ++ t.written) := (closed_append_iff hout _).mpr hclosed
    have ih := closed_and_scan_foldl_written ts (out ++ t.written) hnext fun u hu =>
      h u (by simp [hu])
    rw [scan_append_of_closed hout, hscan, List.append_assoc] at ih
    exact ih

/-- **Printed tokens are read back**, in their plain form, and leave no digits behind. -/
theorem scan_print {ts : List Token} (h : ∀ t ∈ ts, t.Legible) :
    Closed (Token.print ts) ∧ Token.scan (Token.print ts) = ts.map Token.plain :=
  closed_and_scan_foldl_written ts "" closed_empty h

theorem Token.written_plain : ∀ t : Token, t.plain.written = t.written
  | symbol c => congrArg String.singleton (canonical_canonical c)
  | turn _ _ | push | pop | enterScale | exitScale | forcedDraw => rfl

theorem Token.print_map_plain (ts : List Token) : print (ts.map plain) = print ts := by
  simp only [print, List.foldl_map, written_plain]

namespace Rules

/-! ### Passes that only print -/

/-- No rule replaces a token or what it is read back as. -/
def Inert (rules : Rules) (s : String) : Prop :=
  ∀ t ∈ Token.scan s, rules.replacement? t = none ∧ rules.replacement? t.plain = none

variable {rules : Rules} {s : String}

theorem pass_eq_print (h : rules.Inert s) : rules.pass s = Token.print (Token.scan s) := by
  unfold pass Token.print
  refine List.foldl_ext _ _ _ fun out t ht => ?_
  rw [image_of_replacement?_eq_none (h t ht).1]

/-- What such a pass prints is read as the tokens it was read from, in their plain form. -/
theorem scan_pass_of_inert (h : rules.Inert s) :
    Closed (rules.pass s) ∧ Token.scan (rules.pass s) = (Token.scan s).map Token.plain := by
  rw [pass_eq_print h]
  exact scan_print fun _ => legible_of_mem_scan

theorem Inert.pass (h : rules.Inert s) : rules.Inert (rules.pass s) := by
  intro u hu
  rw [(scan_pass_of_inert h).2] at hu
  obtain ⟨t, ht, rfl⟩ := List.mem_map.mp hu
  rw [Token.plain_plain]
  exact ⟨(h t ht).2, (h t ht).2⟩

theorem Inert.pass_pass (h : rules.Inert s) : rules.pass (rules.pass s) = rules.pass s :=
  calc rules.pass (rules.pass s)
    _ = Token.print (Token.scan (rules.pass s)) := pass_eq_print h.pass
    _ = Token.print ((Token.scan s).map Token.plain) := by rw [(scan_pass_of_inert h).2]
    _ = Token.print (Token.scan s) := Token.print_map_plain _
    _ = rules.pass s := (pass_eq_print h).symm

/-- **One pass or more make the same string.** -/
theorem Inert.derive : ∀ (n : Nat) {s : String}, rules.Inert s →
    rules.derive (n + 1) s = rules.pass s
  | 0, _, _ => rfl
  | n + 1, _, h => by rw [Rules.derive, Inert.derive n h.pass, h.pass_pass]

theorem inert_of_letters (hletters : ∀ c ∈ s.toList, c.isAlpha = true → rules.body? c = none)
    (hdraw : 'f' ∈ s.toList → rules.body? 'F' = none)
    (hmove : 'g' ∈ s.toList → rules.body? 'G' = none) : rules.Inert s := by
  intro t ht
  cases t with
  | symbol c =>
    obtain ⟨hc, halpha⟩ := (mem_scan_symbol_iff c s).mp ht
    have hrule : rules.body? c = none := hletters c hc halpha
    refine ⟨hrule, ?_⟩
    show rules.body? (Token.canonical c) = none
    by_cases hf : c = 'f'
    · subst hf
      exact hdraw hc
    · by_cases hg : c = 'g'
      · subst hg
        exact hmove hc
      · have hsame : Token.canonical c = c := by
          unfold Token.canonical Token.isDraw Token.isMove
          grind
        rw [hsame, hrule]
  | _ => exact ⟨rfl, rfl⟩

end Rules

/-- **Printing and reading are inverse.** Over a string none of whose letters has a rule, one pass
writes what is read as the same tokens again, with all multipliers and with `f` and `g` in upper
case, and leaves no digits at its end. Any further passes write the same string. -/
theorem pass_normalizes (rules : Rules) (s : String)
    (hletters : ∀ c ∈ s.toList, c.isAlpha = true → rules.body? c = none)
    (hdraw : 'f' ∈ s.toList → rules.body? 'F' = none)
    (hmove : 'g' ∈ s.toList → rules.body? 'G' = none) :
    Token.scan (rules.derive 1 s) = (Token.scan s).map Token.plain ∧
      Closed (rules.derive 1 s) ∧ ∀ n, 0 < n → rules.derive n s = rules.derive 1 s := by
  have hinert : rules.Inert s := Rules.inert_of_letters hletters hdraw hmove
  obtain ⟨hclosed, hscan⟩ := Rules.scan_pass_of_inert hinert
  refine ⟨hscan, hclosed, fun n hn => ?_⟩
  obtain ⟨n, rfl⟩ := Nat.exists_eq_succ_of_ne_zero (Nat.ne_of_gt hn)
  exact Rules.Inert.derive n hinert

/-- Digits far from their turn, a multiplier of zero and one beyond a machine word. -/
theorem pass_normalizes_digits :
    let rules := Rules.empty.insert 'X' "FF"
    let s := "1f0+00-é[99999999999999999999G]+7"
    rules.derive 1 s = "F10+-[G]18446744073709551615+" ∧
      Token.scan (rules.derive 1 s) = (Token.scan s).map Token.plain ∧
      Closed (rules.derive 1 s) ∧ ∀ n, 0 < n → rules.derive n s = rules.derive 1 s := by
  intro rules s
  refine ⟨by decide +kernel, pass_normalizes rules s ?_ ?_ ?_⟩
  · intro c hc _
    have hne : c ≠ 'X' := by
      rintro rfl
      exact absurd hc (by decide)
    exact Rules.body?_insert_ne Rules.empty hne "FF"
  · exact fun _ => by decide
  · exact fun _ => by decide

end LSystem
