/-
# Closed strings

A string is closed when no multiplier waits at its end. What stands behind a closed string is
read as if it stood alone (`scan_append_of_closed`). Every written token is closed and is read
back, a drawing or moving letter in upper case (`closed_and_scan_written`). So if the rule
bodies that a pass inserts are closed, its string is read token by token: the tokens of what it
writes for the first token, then those for the second one, and so on (`Rules.scan_pass`).

Key definitions: `Scanner.tokensAfter`, `Closed`, `Token.Legible`, `Token.plain`.
Key theorems: `scan_append_of_closed`, `legible_of_mem_scan`, `mem_scan_symbol_iff`,
`closed_and_scan_written`, `Rules.scan_pass`.
-/
import LSystem.Derivation

namespace LSystem

/-! ### Reading on behind a multiplier -/

namespace Scanner

/-- The tokens that characters give behind digits that spell `pending`. -/
def tokensAfter (pending : Nat) (cs : List Char) : List Token :=
  (cs.foldl feed ⟨pending, #[]⟩).tokens.toList

@[simp] theorem tokensAfter_nil (pending : Nat) : tokensAfter pending [] = [] := rfl

theorem tokensAfter_cons (pending : Nat) (c : Char) (cs : List Char) :
    tokensAfter pending (c :: cs) =
      (Token.ofChar? pending c).toList ++ tokensAfter (pendingAfter pending c) cs := by
  have h := tokens_foldl_feed cs (pendingAfter pending c) (feed ⟨pending, #[]⟩ c).tokens
  rw [toList_tokens_feed] at h
  have hfeed : feed ⟨pending, #[]⟩ c =
      ⟨pendingAfter pending c, (feed ⟨pending, #[]⟩ c).tokens⟩ := by
    rw [← pending_feed ⟨pending, #[]⟩ c]
  rw [tokensAfter, List.foldl_cons, hfeed, h]
  rfl

theorem tokensAfter_append (b : List Char) : ∀ (a : List Char) (pending : Nat),
    tokensAfter pending (a ++ b) =
      tokensAfter pending a ++ tokensAfter (a.foldl pendingAfter pending) b
  | [], _ => rfl
  | c :: a, pending => by
    rw [List.cons_append, tokensAfter_cons, tokensAfter_append b a, tokensAfter_cons,
      List.append_assoc, List.foldl_cons]

theorem scan_eq_tokensAfter (s : String) : Token.scan s = tokensAfter 0 s.toList := rfl

theorem pending_run (s : String) : (run s).pending = s.toList.foldl pendingAfter 0 :=
  pending_foldl_feed s.toList {}

theorem pendingAfter_le {pending : Nat} (h : pending ≤ Token.maxMultiplier) (c : Char) :
    pendingAfter pending c ≤ Token.maxMultiplier := by
  unfold pendingAfter
  split
  · exact Nat.min_le_right _ _
  · split
    · exact Nat.zero_le _
    · exact h

end Scanner

open Scanner (tokensAfter tokensAfter_cons tokensAfter_append pendingAfter pendingAfter_le)

/-- No multiplier waits at the end. -/
def Closed (s : String) : Prop := (Scanner.run s).pending = 0

instance (s : String) : Decidable (Closed s) := inferInstanceAs (Decidable (_ = 0))

theorem closed_iff (s : String) : Closed s ↔ s.toList.foldl pendingAfter 0 = 0 := by
  rw [Closed, Scanner.pending_run]

theorem closed_empty : Closed "" := rfl

theorem closed_append_iff {a : String} (h : Closed a) (b : String) :
    Closed (a ++ b) ↔ Closed b := by
  rw [closed_iff, closed_iff, String.toList_append, List.foldl_append, (closed_iff a).mp h]

theorem scan_append_of_closed {a : String} (h : Closed a) (b : String) :
    Token.scan (a ++ b) = Token.scan a ++ Token.scan b := by
  rw [Scanner.scan_eq_tokensAfter, String.toList_append, tokensAfter_append, (closed_iff a).mp h]
  rfl

/-! ### The tokens that are read -/

/-- Tokens as a scanner finds them: symbols are letters, and a multiplier is a machine word. -/
def Token.Legible : Token → Prop
  | symbol c => c.isAlpha = true
  | turn _ multiplier => multiplier ≤ maxMultiplier
  | _ => True

theorem legible_of_ofChar? {pending : Nat} (h : pending ≤ Token.maxMultiplier) {c : Char}
    {t : Token} (ht : Token.ofChar? pending c = some t) : t.Legible := by
  unfold Token.ofChar? at ht
  grind [Token.Legible]

theorem legible_of_mem_tokensAfter {t : Token} : ∀ (cs : List Char) (pending : Nat),
    pending ≤ Token.maxMultiplier → t ∈ tokensAfter pending cs → t.Legible
  | [], _, _, ht => by simp at ht
  | c :: cs, pending, h, ht => by
    rw [tokensAfter_cons, List.mem_append] at ht
    rcases ht with ht | ht
    · exact legible_of_ofChar? h (by simpa using ht)
    · exact legible_of_mem_tokensAfter cs _ (pendingAfter_le h c) ht

theorem legible_of_mem_scan {t : Token} {s : String} (h : t ∈ Token.scan s) : t.Legible :=
  legible_of_mem_tokensAfter s.toList 0 (Nat.zero_le _) h

/-! ### Letters -/

theorem isDigit_of_isAlpha {c : Char} (h : c.isAlpha = true) : c.isDigit = false := by
  have hletter : (decide ('A'.val ≤ c.val ∧ c.val ≤ 'Z'.val) ||
      ('a'.val ≤ c.val && c.val ≤ 'z'.val)) = true := h
  have hdigit : c.isDigit = ('0'.val ≤ c.val && c.val ≤ '9'.val) := rfl
  rw [hdigit]
  simp [UInt32.le_iff_toNat_le] at hletter ⊢
  omega

theorem ofChar?_of_isAlpha (pending : Nat) {c : Char} (h : c.isAlpha = true) :
    Token.ofChar? pending c = some (.symbol c) := by
  unfold Token.ofChar?
  split
  case h_8 => exact if_pos h
  all_goals exact absurd h (by decide)

theorem ofChar?_eq_symbol_iff (pending : Nat) (c d : Char) :
    Token.ofChar? pending d = some (.symbol c) ↔ d = c ∧ c.isAlpha = true := by
  constructor
  · intro h
    unfold Token.ofChar? at h
    grind
  · rintro ⟨rfl, h⟩
    exact ofChar?_of_isAlpha pending h

theorem pendingAfter_of_isAlpha (pending : Nat) {c : Char} (h : c.isAlpha = true) :
    pendingAfter pending c = pending := by
  have hplus : c ≠ '+' := by
    rintro rfl
    exact absurd h (by decide)
  have hminus : c ≠ '-' := by
    rintro rfl
    exact absurd h (by decide)
  simp [pendingAfter, isDigit_of_isAlpha h, hplus, hminus]

theorem mem_tokensAfter_symbol_iff (c : Char) : ∀ (cs : List Char) (pending : Nat),
    .symbol c ∈ tokensAfter pending cs ↔ c ∈ cs ∧ c.isAlpha = true
  | [], _ => by simp
  | d :: cs, pending => by
    rw [tokensAfter_cons, List.mem_append, mem_tokensAfter_symbol_iff c cs, Option.mem_toList,
      ofChar?_eq_symbol_iff, List.mem_cons]
    grind

theorem mem_scan_symbol_iff (c : Char) (s : String) :
    .symbol c ∈ Token.scan s ↔ c ∈ s.toList ∧ c.isAlpha = true :=
  mem_tokensAfter_symbol_iff c s.toList 0

/-! ### Reading what was written -/

/-- The token that a written token is read as: drawing and moving letters are in upper case. -/
def Token.plain : Token → Token
  | symbol c => symbol (canonical c)
  | t => t

theorem isAlpha_canonical {c : Char} (h : c.isAlpha = true) :
    (Token.canonical c).isAlpha = true := by
  unfold Token.canonical
  split
  · decide
  · split
    · decide
    · exact h

/-- A run of digits waits as the number it spells, as far as the largest multiplier. -/
theorem foldl_pendingAfter_of_isDigit : ∀ (ds : List Char) (n : Nat),
    (∀ d ∈ ds, d.isDigit = true) →
      ds.foldl pendingAfter (min n Token.maxMultiplier) =
        min (Decimal.extend n ds) Token.maxMultiplier
  | [], _, _ => rfl
  | d :: ds, n, h => by
    have hd : pendingAfter (min n Token.maxMultiplier) d =
        min (10 * n + Decimal.digitValue d) Token.maxMultiplier := by
      rw [pendingAfter, if_pos (h d (by simp))]
      omega
    rw [List.foldl_cons, hd, foldl_pendingAfter_of_isDigit ds _ fun x hx => h x (by simp [hx])]
    rfl

theorem foldl_pendingAfter_digits {n : Nat} (h : n ≤ Token.maxMultiplier) :
    (Decimal.digits n).foldl pendingAfter 0 = n := by
  have hrun := foldl_pendingAfter_of_isDigit (Decimal.digits n) 0
    fun _ => Decimal.isDigit_of_mem_digits
  rwa [Nat.zero_min, ← Decimal.ofDigits, Decimal.ofDigits_digits, Nat.min_eq_left h] at hrun

theorem ofChar?_of_isDigit (pending : Nat) {c : Char} (h : c.isDigit = true) :
    Token.ofChar? pending c = none := by
  unfold Token.ofChar?
  split
  case h_8 =>
    refine if_neg fun hc => ?_
    simp [isDigit_of_isAlpha hc] at h
  all_goals exact absurd h (by decide)

theorem tokensAfter_of_isDigit : ∀ (ds : List Char) (pending : Nat),
    (∀ d ∈ ds, d.isDigit = true) → tokensAfter pending ds = []
  | [], _, _ => rfl
  | d :: ds, pending, h => by
    rw [tokensAfter_cons, ofChar?_of_isDigit pending (h d (by simp)),
      tokensAfter_of_isDigit ds _ fun x hx => h x (by simp [hx])]
    rfl

/-- **A written token is closed and is read back**, in its plain form. -/
theorem closed_and_scan_written : ∀ {t : Token}, t.Legible →
    Closed t.written ∧ Token.scan t.written = [t.plain]
  | .symbol c, h => by
    have hc := isAlpha_canonical h
    rw [closed_iff, Scanner.scan_eq_tokensAfter, Token.written, String.toList_singleton,
      tokensAfter_cons, ofChar?_of_isAlpha 0 hc, List.foldl_cons, pendingAfter_of_isAlpha 0 hc]
    exact ⟨rfl, rfl⟩
  | .turn d 0, _ => by cases d <;> exact ⟨rfl, rfl⟩
  | .turn d (n + 1), h => by
    have hdigits : ∀ c ∈ Decimal.digits (n + 1), c.isDigit = true :=
      fun _ => Decimal.isDigit_of_mem_digits
    rw [closed_iff, Scanner.scan_eq_tokensAfter, Token.written, if_neg (Nat.succ_ne_zero n),
      String.toList_append, String.toList_ofList, String.toList_singleton, List.foldl_append,
      tokensAfter_append, tokensAfter_of_isDigit _ 0 hdigits, foldl_pendingAfter_digits h]
    cases d <;> exact ⟨rfl, rfl⟩
  | .push, _ | .pop, _ | .enterScale, _ | .exitScale, _ | .forcedDraw, _ => ⟨rfl, rfl⟩

/-! ### Reading what a pass wrote -/

theorem closed_and_scan_enclosed {body : String} (h : Closed body) :
    Closed ("<" ++ body ++ ">") ∧
      Token.scan ("<" ++ body ++ ">") = .enterScale :: (Token.scan body ++ [.exitScale]) := by
  have hmark : Closed "<" := rfl
  have hopen : Closed ("<" ++ body) := (closed_append_iff hmark body).mpr h
  refine ⟨(closed_append_iff hopen ">").mpr rfl, ?_⟩
  rw [scan_append_of_closed hopen, scan_append_of_closed hmark, List.append_assoc]
  rfl

namespace Rules

theorem scan_foldl_image (rules : Rules) : ∀ (ts : List Token) (out : String), Closed out →
    (∀ t ∈ ts, Closed (rules.image t)) →
      Token.scan (ts.foldl (fun out t => out ++ rules.image t) out) =
        Token.scan out ++ ts.flatMap fun t => Token.scan (rules.image t)
  | [], out, _, _ => by simp
  | t :: ts, out, hout, h => by
    have ht : Closed (out ++ rules.image t) := (closed_append_iff hout _).mpr (h t (by simp))
    rw [List.foldl_cons, scan_foldl_image rules ts _ ht fun x hx => h x (by simp [hx]),
      scan_append_of_closed hout, List.flatMap_cons, List.append_assoc]

/-- **A pass over closed bodies is read token by token.** -/
theorem scan_pass (rules : Rules) (s : String) (h : ∀ t ∈ Token.scan s, Closed (rules.image t)) :
    Token.scan (rules.pass s) = (Token.scan s).flatMap fun t => Token.scan (rules.image t) :=
  scan_foldl_image rules (Token.scan s) "" closed_empty h

end Rules
end LSystem
