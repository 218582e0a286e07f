/-
# Derivations of strings in a row

A derivation of two strings in a row is the derivation of the one before the derivation of the other,
if no digits of the first one wait for a turn in the second, and if no rule body leaves digits
waiting. A pass reads the whole string again with the digits carried along, so this has to be seen
anew for each pass: what a pass writes for a token is closed, hence all that it writes is
(`Rules.closed_pass`), and the next pass finds two strings of which the first one is closed again.

Key theorems: `Rules.closed_pass`, `Rules.pass_append`, `derive_append`.
-/
import LSystem.Proofs.PreExpansion

namespace LSystem

namespace Rules

variable {rules : Rules}

/-! ### What a pass leaves waiting -/

theorem closed_foldl_image : ∀ (ts : List Token) (out : String), Closed out →
    (∀ t ∈ ts, Closed (rules.image t)) → Closed (ts.foldl (fun out t => out ++ rules.image t) out)
  | [], _, hout, _ => hout
  | t :: ts, out, hout, h => by
    have hnext : Closed (out ++ rules.image t) :=
      (closed_append_iff hout _).mpr (h t List.mem_cons_self)
    exact closed_foldl_image ts _ hnext fun u hu => h u (List.mem_cons_of_mem t hu)

/-- **A pass leaves no digits waiting**, if no rule body does: the digits that the string itself
leaves at its end are lost. -/
theorem closed_pass (hbodies : ∀ e ∈ rules.entries, Closed e.2) (s : String) :
    Closed (rules.pass s) := by
  refine closed_foldl_image (Token.scan s) "" closed_empty fun t ht => ?_
  refine (closed_and_scan_image (legible_of_mem_scan ht) fun body hbody => ?_).1
  obtain ⟨e, he, rfl⟩ := exists_entry_of_replacement? hbody
  exact hbodies e he

/-! ### Passes over strings in a row -/

theorem foldl_image_eq_append : ∀ (ts : List Token) (out : String),
    ts.foldl (fun out t => out ++ rules.image t) out =
      out ++ ts.foldl (fun out t => out ++ rules.image t) ""
  | [], out => String.append_empty.symm
  | t :: ts, out => by
    rw [List.foldl_cons, List.foldl_cons, foldl_image_eq_append ts (out ++ _),
      foldl_image_eq_append ts ("" ++ _), String.empty_append, String.append_assoc]

theorem pass_append {a : String} (ha : Closed a) (b : String) :
    rules.pass (a ++ b) = rules.pass a ++ rules.pass b := by
  rw [pass, scan_append_of_closed ha, List.foldl_append, foldl_image_eq_append (Token.scan b)]
  rfl

end Rules

/-- **A derivation is a morphism** on strings that leave no digits waiting: if no rule body leaves
any, the derivation of a string behind a closed one stands behind the derivation of that one. -/
theorem derive_append (rules : Rules) (hbodies : ∀ e ∈ rules.entries, Closed e.2) {a : String}
    (ha : Closed a) (b : String) (n : Nat) :
    rules.derive n (a ++ b) = rules.derive n a ++ rules.derive n b := by
  induction n generalizing a b with
  | zero => rfl
  | succ n ih =>
    calc rules.derive (n + 1) (a ++ b)
      _ = rules.derive n (rules.pass (a ++ b)) := rfl
      _ = rules.derive n (rules.pass a ++ rules.pass b) := by rw [Rules.pass_append ha]
      _ = rules.derive n (rules.pass a) ++ rules.derive n (rules.pass b) :=
        ih (Rules.closed_pass hbodies a) (rules.pass b)

/-- Digits that are used up by a turn, in the first string and in a body, and some that are left
waiting behind the second string. -/
theorem derive_append_turns :
    let rules := (Rules.empty.insert 'F' "F2+G").insert 'G' ""
    (∀ e ∈ rules.entries, Closed e.2) ∧ Closed "3-F" ∧
      rules.derive 4 ("3-F" ++ "2G+f7") = rules.derive 4 "3-F" ++ rules.derive 4 "2G+f7" := by
  intro rules
  have hbodies : ∀ e ∈ rules.entries, Closed e.2 := by decide
  have ha : Closed "3-F" := by decide
  exact ⟨hbodies, ha, derive_append rules hbodies ha "2G+f7" 4⟩

end LSystem
