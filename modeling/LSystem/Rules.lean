/-
# Production rules

A rule table maps characters to the strings that replace them. Its entries are kept
in the order of their characters, each character once, so that two tables with the
same rules are equal.

Key definitions: `Rules`, `Rules.body?`, `Rules.insert`, `Rules.ofList`.
Key theorems: `Rules.body?_insert_self`, `Rules.body?_insert_ne`, `Rules.body?_empty`.
-/
namespace LSystem

/-- A table of production rules, ordered by the characters they replace. -/
structure Rules where
  /-- The characters with a rule, each with the body that replaces it. -/
  entries : List (Char × String)
  /-- The characters go up, so none occurs twice. -/
  ordered : entries.Pairwise (·.1 < ·.1)
  deriving DecidableEq

namespace Rules

/-- The table without rules. -/
def empty : Rules := ⟨[], .nil⟩

instance : Inhabited Rules := ⟨empty⟩

/-- The body that replaces `c`, if `c` has a rule. -/
def body? (rules : Rules) (c : Char) : Option String :=
  (rules.entries.find? (·.1 = c)).map (·.2)

/-- Puts a rule at its place, over one that is there. -/
def insertEntry (c : Char) (body : String) : List (Char × String) → List (Char × String)
  | [] => [(c, body)]
  | e :: es =>
    if c < e.1 then (c, body) :: e :: es
    else if e.1 < c then e :: insertEntry c body es
    else (c, body) :: es

theorem mem_insertEntry {c : Char} {body : String} {es : List (Char × String)} {x : Char × String}
    (h : x ∈ insertEntry c body es) : x = (c, body) ∨ x ∈ es := by
  induction es with
  | nil => simpa [insertEntry] using h
  | cons e es ih =>
    rw [insertEntry] at h
    split at h
    · simpa using h
    · split at h
      · rcases List.mem_cons.mp h with h | h
        · simp [h]
        · rcases ih h with h | h <;> simp [h]
      · rcases List.mem_cons.mp h with h | h <;> simp [h]

theorem pairwise_insertEntry {c : Char} {body : String} {es : List (Char × String)}
    (h : es.Pairwise (·.1 < ·.1)) : (insertEntry c body es).Pairwise (·.1 < ·.1) := by
  induction es with
  | nil => simp [insertEntry]
  | cons e es ih =>
    obtain ⟨he, hes⟩ := List.pairwise_cons.mp h
    rw [insertEntry]
    split
    · next hc =>
      refine List.pairwise_cons.mpr ⟨fun x hx => ?_, h⟩
      rcases List.mem_cons.mp hx with rfl | hx
      · exact hc
      · exact Char.lt_trans hc (he x hx)
    · split
      · next hc =>
        refine List.pairwise_cons.mpr ⟨fun x hx => ?_, ih hes⟩
        rcases mem_insertEntry hx with rfl | hx
        · exact hc
        · exact he x hx
      · next h1 h2 =>
        have hc : c = e.1 := Char.le_antisymm (Char.not_lt.mp h2) (Char.not_lt.mp h1)
        exact List.pairwise_cons.mpr ⟨fun x hx => hc ▸ he x hx, hes⟩

/-- The table with the rule for `c` added, or replaced if there is one. -/
def insert (rules : Rules) (c : Char) (body : String) : Rules :=
  ⟨insertEntry c body rules.entries, pairwise_insertEntry rules.ordered⟩

/-- The rules of a list, of which a later one replaces an earlier one of the same character. -/
def ofList (rules : List (Char × String)) : Rules :=
  rules.foldl (fun r e => r.insert e.1 e.2) empty

@[simp] theorem body?_empty (c : Char) : empty.body? c = none := rfl

theorem find?_insertEntry (c d : Char) (body : String) (es : List (Char × String)) :
    (insertEntry c body es).find? (·.1 = d) =
      if d = c then some (c, body) else es.find? (·.1 = d) := by
  induction es with
  | nil => by_cases h : c = d <;> simp [insertEntry, h, eq_comm]
  | cons e es ih =>
    rw [insertEntry]
    split
    · by_cases h : c = d <;> simp [h, eq_comm]
    · split
      · next h =>
        by_cases hd : e.1 = d
        · have hc : d ≠ c := by
            rintro rfl
            exact Char.lt_irrefl e.1 (hd ▸ h)
          simp [hd, hc]
        · simp [hd, ih]
      · next h1 h2 =>
        have hc : c = e.1 := Char.le_antisymm (Char.not_lt.mp h2) (Char.not_lt.mp h1)
        by_cases h : c = d
        · simp [h]
        · have he : e.1 ≠ d := hc ▸ h
          simp [h, Ne.symm h, he]

@[simp] theorem body?_insert_self (rules : Rules) (c : Char) (body : String) :
    (rules.insert c body).body? c = some body := by
  simp [insert, body?, find?_insertEntry]

theorem body?_insert_ne (rules : Rules) {c d : Char} (h : d ≠ c) (body : String) :
    (rules.insert c body).body? d = rules.body? d := by
  simp [insert, body?, find?_insertEntry, h]

end Rules
end LSystem
