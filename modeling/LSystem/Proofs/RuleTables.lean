/-
# Rule tables and their lookups

A table keeps its rules in the order of their characters, so it is known by what it looks up
(`Rules.eq_of_body?`). The table of a list of rules looks up the last one for a character
(`Rules.body?_ofList`), and if the list holds the rules of a table in any order, it makes that table
again (`Rules.ofList_eq_of_perm`).

Key definitions: `Rules.lastBody?`.
Key theorems: `find?_eq_of_perm`, `Rules.mem_entries_iff`, `Rules.eq_of_body?`, `Rules.body?_ofList`,
`Rules.ofList_eq_of_perm`.
-/
import LSystem.Rules

namespace LSystem

section

variable {κ α : Type} [DecidableEq κ] {es es' : List (κ × α)}

theorem find?_of_mem {e : κ × α} (h : es.Pairwise (·.1 ≠ ·.1)) (he : e ∈ es) :
    es.find? (·.1 = e.1) = some e := by
  induction es with
  | nil => simp at he
  | cons x es ih =>
    obtain ⟨hx, hes⟩ := List.pairwise_cons.mp h
    rcases List.mem_cons.mp he with rfl | he
    · simp
    · have hne : x.1 ≠ e.1 := hx e he
      rw [List.find?_cons_of_neg (by simpa using hne), ih hes he]

theorem find?_eq_of_perm (hperm : es.Perm es') (h : es.Pairwise (·.1 ≠ ·.1)) (k : κ) :
    es.find? (·.1 = k) = es'.find? (·.1 = k) := by
  cases hfind : es'.find? (·.1 = k) with
  | some e =>
    have hkey : e.1 = k := by simpa using List.find?_some hfind
    rw [← hkey, find?_of_mem h (hperm.mem_iff.mpr (List.mem_of_find?_eq_some hfind))]
  | none =>
    rw [List.find?_eq_none] at hfind ⊢
    exact fun e he => hfind e (hperm.mem_iff.mp he)

end

namespace Rules

variable {es : List (Char × String)} {rules : Rules} {c : Char} {body : String}

theorem pairwise_ne (rules : Rules) : rules.entries.Pairwise (·.1 ≠ ·.1) := by
  refine rules.ordered.imp fun {a b} (h : a.1 < b.1) (heq : a.1 = b.1) => ?_
  rw [heq] at h
  exact Char.lt_irrefl b.1 h

theorem mem_entries_iff : (c, body) ∈ rules.entries ↔ rules.body? c = some body := by
  constructor
  · intro h
    have hfind := find?_of_mem rules.pairwise_ne h
    rw [body?, hfind]
    rfl
  · intro h
    obtain ⟨e, hfind, rfl⟩ := Option.map_eq_some_iff.mp h
    have hchar : e.1 = c := by simpa using List.find?_some hfind
    rw [← hchar]
    exact List.mem_of_find?_eq_some hfind

theorem ext : ∀ {rules other : Rules}, rules.entries = other.entries → rules = other
  | ⟨_, _⟩, ⟨_, _⟩, rfl => rfl

/-- **A table is known by its lookups.** -/
theorem eq_of_body? {rules other : Rules} (h : ∀ c, rules.body? c = other.body? c) :
    rules = other := by
  have hnodup (r : Rules) : r.entries.Nodup := r.pairwise_ne.imp fun hne heq => hne (by rw [heq])
  have hperm : rules.entries.Perm other.entries := by
    rw [List.perm_ext_iff_of_nodup (hnodup rules) (hnodup other)]
    rintro ⟨c, body⟩
    rw [mem_entries_iff, mem_entries_iff, h]
  apply ext
  refine List.Perm.eq_of_pairwise (fun a b _ _ hab hba => ?_) rules.ordered other.ordered hperm
  exact absurd (Char.lt_trans hab hba) (Char.lt_irrefl _)

/-- The body of the last rule for a character in a list. -/
def lastBody? (es : List (Char × String)) (c : Char) : Option String :=
  (es.reverse.find? (·.1 = c)).map (·.2)

theorem body?_insert (rules : Rules) (c d : Char) (body : String) :
    (rules.insert c body).body? d = if d = c then some body else rules.body? d := by
  by_cases h : d = c
  · rw [if_pos h, h, body?_insert_self]
  · rw [if_neg h, body?_insert_ne rules h]

theorem body?_foldl_insert (es : List (Char × String)) (c : Char) (rules : Rules) :
    (es.foldl (fun r e => r.insert e.1 e.2) rules).body? c =
      (lastBody? es c).or (rules.body? c) := by
  induction es generalizing rules with
  | nil => rfl
  | cons e es ih =>
    rw [List.foldl_cons, ih, body?_insert]
    unfold lastBody?
    rw [List.reverse_cons, List.find?_append]
    cases es.reverse.find? (·.1 = c) with
    | some x => rfl
    | none =>
      by_cases h : e.1 = c
      · simp [h]
      · simp [h, Ne.symm h]

/-- **In a list of rules, the last one for a character counts.** -/
theorem body?_ofList (es : List (Char × String)) (c : Char) :
    (ofList es).body? c = lastBody? es c := by
  rw [ofList, body?_foldl_insert, body?_empty, Option.or_none]

/-- **The rules of a table make the table, in any order.** -/
theorem ofList_eq_of_perm (h : es.Perm rules.entries) : ofList es = rules := by
  have hperm : es.reverse.Perm rules.entries := (List.reverse_perm es).trans h
  have hne : es.reverse.Pairwise (·.1 ≠ ·.1) :=
    (hperm.pairwise_iff fun hab => Ne.symm hab).mpr rules.pairwise_ne
  apply eq_of_body?
  intro c
  rw [body?_ofList, lastBody?, find?_eq_of_perm hperm hne]
  rfl

end Rules
end LSystem
