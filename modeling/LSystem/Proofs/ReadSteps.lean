/-
# Steps of readers

What a reader does with a text is one equation: it ends with a value and the rest of the text, or
with an error. A chain of readers goes on with the value and the rest (`bind_ok`), and ends with the
first error (`bind_error`). The equations of the steps that look at single characters follow, for
texts that start with a character that is no blank.

Key theorems: `Json.bind_ok`, `Json.bind_error`, `Json.peek_cons`, `Json.punctuation_cons`,
`Json.word_append`.
-/
import LSystem.Json.Container

namespace LSystem.Json

variable {α β : Type} {cs rest : List Char} {a : α} {e : ReadError}

/-! ### Chains -/

theorem bind_ok {r : Reader α} {f : α → Reader β} (h : r cs = .ok (a, rest)) :
    (r >>= f) cs = f a rest := by
  show (r cs >>= fun p => f p.1 p.2) = f a rest
  rw [h]
  rfl

theorem bind_error {r : Reader α} {f : α → Reader β} (h : r cs = .error e) :
    (r >>= f) cs = .error e := by
  show (r cs >>= fun p => f p.1 p.2) = .error e
  rw [h]
  rfl

theorem map_ok {r : Reader α} {f : α → β} (h : r cs = .ok (a, rest)) :
    (f <$> r) cs = .ok (f a, rest) := by
  show (r cs >>= fun p => pure (f p.1, p.2)) = .ok (f a, rest)
  rw [h]
  rfl

theorem map_error {r : Reader α} {f : α → β} (h : r cs = .error e) :
    (f <$> r) cs = .error e := by
  show (r cs >>= fun p => pure (f p.1, p.2)) = .error e
  rw [h]
  rfl

theorem discard_ok {r : Reader α} (h : r cs = .ok (a, rest)) :
    discard r cs = .ok (PUnit.unit, rest) := map_ok h

@[simp] theorem get_apply (cs : List Char) : (get : Reader (List Char)) cs = .ok (cs, cs) := rfl

theorem repeated_apply (step : Nat → Reader α) (cs : List Char) :
    repeated step cs = step (cs.length + 1) cs := rfl

/-! ### Single characters -/

@[simp] theorem next_cons (c : Char) (cs : List Char) : next (c :: cs) = .ok (c, cs) := rfl

theorem peek_cons {c : Char} (h : isBlank c = false) (cs : List Char) :
    peek (c :: cs) = .ok (c, c :: cs) := by
  have hskip : skipBlanks (c :: cs) = .ok (⟨⟩, c :: cs) := by
    show Except.ok (PUnit.unit, (c :: cs).dropWhile isBlank) = _
    rw [List.dropWhile_cons_of_neg (by simp [h])]
  rw [peek, bind_ok hskip]
  rfl

theorem takeIf_of_pos {p : Char → Bool} {c : Char} (h : p c = true) (cs : List Char) :
    takeIf p (c :: cs) = .ok (some c, cs) := by
  show (if p c then (do set cs; return some c : Reader (Option Char)) else _) (c :: cs) = _
  rw [if_pos h]
  rfl

theorem takeIf_of_neg {p : Char → Bool} (h : ∀ c ∈ cs.head?, p c = false) :
    takeIf p cs = .ok (none, cs) := by
  cases cs with
  | nil => rfl
  | cons c cs =>
    have hc : ¬ p c = true := by simp [h c rfl]
    show (if p c then _ else (return none : Reader (Option Char))) (c :: cs) = _
    rw [if_neg hc]
    rfl

theorem punctuation_cons {c : Char} (h : isBlank c = false) (cs : List Char) :
    punctuation c (c :: cs) = .ok (⟨⟩, cs) := by
  rw [punctuation, bind_ok (peek_cons h cs), if_pos rfl]
  exact discard_ok (next_cons c cs)

theorem word_append : ∀ w cs : List Char, word w (w ++ cs) = .ok (⟨⟩, cs)
  | [], _ => rfl
  | c :: w, cs => by
    have hnext : next (c :: w ++ cs) = .ok (c, w ++ cs) := rfl
    rw [word, bind_ok hnext, if_pos rfl]
    exact word_append w cs

/-! ### Closing brackets -/

theorem atItem_close (first : Bool) (rest : List Char) :
    atItem first (']' :: rest) = .ok (false, ']' :: rest) := by
  rw [atItem, bind_ok (peek_cons (by decide) _)]
  rfl

theorem atKey_close (first : Bool) (rest : List Char) :
    atKey first ('}' :: rest) = .ok (false, '}' :: rest) := by
  rw [atKey, bind_ok (peek_cons (by decide) _)]
  rfl

end LSystem.Json
