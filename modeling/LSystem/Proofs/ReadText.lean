/-
# Strings are read back

Each character of a string is written by itself: as it is, behind a backslash, or as four hexadecimal
digits. One step of the reader takes what one character is written as and finds that character
(`Json.textFrom_writeChar`); so the whole string is read back from its opening quote to its closing
one (`Json.text_writeText`), for any characters at all.

Key theorems: `Json.hexQuad_writeHexQuad`, `Json.textFrom_writeChar`, `Json.text_writeText`.
-/
import LSystem.Json.Text
import LSystem.Proofs.ReadSteps

namespace LSystem.Json

variable {rest : List Char}

/-! ### Escapes by number -/

/-- The digit an escape by number is written with. -/
def hexDigit (d : Nat) : Char := Char.ofNat (if d < 10 then '0'.toNat + d else 'a'.toNat + (d - 10))

theorem hexValue?_hexDigit {d : Nat} (h : d < 16) : hexValue? (hexDigit d) = some d := by
  have hall : ∀ d : Fin 16, hexValue? (hexDigit d.val) = some d.val := by decide
  exact hall ⟨d, h⟩

/-- **Four hexadecimal digits are read back.** -/
theorem hexQuad_writeHexQuad {n : Nat} (h : n < 65536) :
    hexQuad (writeHexQuad n ++ rest) = .ok (n, rest) := by
  have htext : writeHexQuad n = [hexDigit (n / 4096 % 16), hexDigit (n / 256 % 16),
    hexDigit (n / 16 % 16), hexDigit (n % 16)] := rfl
  have hvalue (k : Nat) : hexValue? (hexDigit (k % 16)) = some (k % 16) :=
    hexValue?_hexDigit (Nat.mod_lt k (by decide))
  rw [htext, hexQuad, bind_ok (get_apply _)]
  simp only [List.cons_append, List.nil_append, hvalue]
  have hdigits : ((n / 4096 % 16 * 16 + n / 256 % 16) * 16 + n / 16 % 16) * 16 + n % 16 = n := by
    omega
  rw [hdigits]
  rfl

/-- An escape by number is read back, if it stands for a character by itself. -/
theorem numberedChar_writeHexQuad {n : Nat} (h : n < 0xD800) :
    numberedChar (writeHexQuad n ++ rest) = .ok (Char.ofNat n, rest) := by
  have htrailing : isTrailingSurrogate n = false := by
    simp only [isTrailingSurrogate, Bool.and_eq_false_iff, decide_eq_false_iff_not]
    omega
  have hleading : isLeadingSurrogate n = false := by
    simp only [isLeadingSurrogate, Bool.and_eq_false_iff, decide_eq_false_iff_not]
    omega
  rw [numberedChar, bind_ok (hexQuad_writeHexQuad (by omega)), htrailing, hleading]
  rfl

/-! ### Characters and strings -/

/-- **What a character is written as is read as that character**, in one step. -/
theorem textFrom_writeChar (c : Char) (found : List Char) (fuel : Nat) (rest : List Char) :
    textFrom escape found (fuel + 1) (writeChar c ++ rest) =
      textFrom escape (c :: found) fuel rest := by
  have hescaped (d : Char) (hd : escape (d :: rest) = .ok (c, rest)) :
      textFrom escape found (fuel + 1) ('\\' :: d :: rest) =
        textFrom escape (c :: found) fuel rest := by
    rw [textFrom, bind_ok (next_cons _ _)]
    exact bind_ok hd
  unfold writeChar
  split
  · exact hescaped '"' rfl
  · exact hescaped '\\' rfl
  · exact hescaped 'b' rfl
  · exact hescaped 'f' rfl
  · exact hescaped 'n' rfl
  · exact hescaped 'r' rfl
  · exact hescaped 't' rfl
  · -- a character without an escape of its own: a control by its number, any other as it is
    next hquote hbackslash _ _ _ _ _ =>
    by_cases hcontrol : c.toNat < 0x20
    · rw [if_pos hcontrol]
      have hnumbered : escape ('u' :: (writeHexQuad c.toNat ++ rest)) = .ok (c, rest) := by
        rw [escape, escapeWith, bind_ok (next_cons _ _)]
        show numberedChar (writeHexQuad c.toNat ++ rest) = _
        rw [numberedChar_writeHexQuad (by omega), Char.ofNat_toNat]
      show textFrom escape found (fuel + 1) ('\\' :: 'u' :: (writeHexQuad c.toNat ++ rest)) = _
      rw [textFrom, bind_ok (next_cons _ _)]
      exact bind_ok hnumbered
    · rw [if_neg hcontrol]
      show textFrom escape found (fuel + 1) (c :: rest) = _
      rw [textFrom, bind_ok (next_cons _ _)]
      split
      · exact absurd rfl hquote
      · exact absurd rfl hbackslash
      · rw [if_neg hcontrol]

theorem textFrom_flatMap (rest : List Char) : ∀ (cs found : List Char) (fuel : Nat),
    cs.length < fuel → textFrom escape found fuel (cs.flatMap writeChar ++ '"' :: rest) =
      .ok (.ofList (found.reverse ++ cs), rest)
  | [], found, fuel + 1, _ => by
    rw [List.append_nil]
    rfl
  | c :: cs, found, fuel + 1, h => by
    have hcs : cs.length < fuel := Nat.lt_of_succ_lt_succ h
    rw [List.flatMap_cons, List.append_assoc, textFrom_writeChar, textFrom_flatMap rest cs _ fuel hcs,
      List.reverse_cons, List.append_assoc, List.singleton_append]

theorem length_le_length_flatMap : ∀ cs : List Char, cs.length ≤ (cs.flatMap writeChar).length
  | [] => Nat.le_refl 0
  | c :: cs => by
    have hcs := length_le_length_flatMap cs
    have hc : 1 ≤ (writeChar c).length := by
      unfold writeChar
      split <;> try decide
      split
      · exact Nat.le_add_left 1 _
      · exact Nat.le_refl 1
    rw [List.flatMap_cons, List.length_append, List.length_cons]
    omega

/-- **A string is read back.** -/
theorem text_writeText (s : String) (rest : List Char) : text (writeText s ++ rest) = .ok (s, rest) := by
  have htext : writeText s ++ rest = ['"'] ++ (s.toList.flatMap writeChar ++ '"' :: rest) := by
    simp [writeText]
  have hfuel : s.toList.length < (s.toList.flatMap writeChar ++ '"' :: rest).length + 1 := by
    have hlength := length_le_length_flatMap s.toList
    rw [List.length_append]
    omega
  rw [htext, text, bind_ok (word_append _ _), repeated_apply, textFrom_flatMap rest _ _ _ hfuel,
    List.reverse_nil, List.nil_append, String.ofList_toList]

theorem peek_writeText (s : String) (rest : List Char) :
    peek (writeText s ++ rest) = .ok ('"', writeText s ++ rest) := peek_cons (by decide) _

end LSystem.Json
