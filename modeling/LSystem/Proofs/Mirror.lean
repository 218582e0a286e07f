/-
# Swapping right and left

Swap `+` and `-` in the start and in every rule body of a grammar and negate its turn angle, and every
rendering stays as it is, bit by bit. The two signs are read alike and take one byte each, so the
tokens, the passes and the whole script of the mirrored grammar are those of the grammar with the
turns mirrored (`scan_mirrorText`, `Rules.image_mirror`, `Grammar.script_mirror`). A mirrored turn by
the negated angle changes the heading as the turn does (`Token.act_mirror`), since signs are exact in
products of doubles. So both grammars lead through the same states, and no limit and no flag can tell
them apart.

Key definitions: `mirrorChar`, `mirrorText`, `Token.mirror`, `Rules.mirror`, `Grammar.mirror`.
Key theorems: `scan_mirrorText`, `Rules.image_mirror`, `Grammar.script_mirror`, `Token.act_mirror`,
`render_mirror`.
-/
import LSystem.Proofs.Calls
import LSystem.Proofs.Closed
import LSystem.Proofs.DoubleWords

namespace LSystem

open Scanner (tokensAfter tokensAfter_cons pendingAfter)

/-! ### The mirrored grammar -/

/-- `+` for `-` and `-` for `+`. -/
def mirrorChar (c : Char) : Char := if c = '+' then '-' else if c = '-' then '+' else c

/-- A command string with its turns to the other side. -/
def mirrorText (s : String) : String := .ofList (s.toList.map mirrorChar)

/-- The other side. -/
def Direction.opposite : Direction → Direction
  | right => left
  | left => right

/-- A turn to the other side; every other token is its own mirror image. -/
def Token.mirror : Token → Token
  | turn d multiplier => turn d.opposite multiplier
  | t => t

/-- The rules for the same characters, with all bodies mirrored. -/
def Rules.mirror (rules : Rules) : Rules where
  entries := rules.entries.map fun e => (e.1, mirrorText e.2)
  ordered := List.pairwise_map.mpr rules.ordered

/-- The grammar with right and left swapped, and its turn angle negated. -/
def Grammar.mirror (g : Grammar) : Grammar :=
  { g with start := mirrorText g.start, rules := g.rules.mirror, turnAngle := -g.turnAngle }

/-! ### Mirrored strings -/

theorem toList_mirrorText (s : String) : (mirrorText s).toList = s.toList.map mirrorChar :=
  String.toList_ofList

theorem mirrorText_append (a b : String) : mirrorText (a ++ b) = mirrorText a ++ mirrorText b := by
  simp [← String.toList_inj, toList_mirrorText]

theorem mirrorText_singleton (c : Char) :
    mirrorText (.singleton c) = .singleton (mirrorChar c) := by
  simp [← String.toList_inj, toList_mirrorText]

theorem mirrorChar_of_ne {c : Char} (hplus : c ≠ '+') (hminus : c ≠ '-') : mirrorChar c = c := by
  rw [mirrorChar, if_neg hplus, if_neg hminus]

theorem mirrorChar_of_isAlpha {c : Char} (h : c.isAlpha = true) : mirrorChar c = c := by
  refine mirrorChar_of_ne ?_ ?_ <;> rintro rfl <;> exact absurd h (by decide)

theorem mirrorChar_of_isDigit {c : Char} (h : c.isDigit = true) : mirrorChar c = c := by
  refine mirrorChar_of_ne ?_ ?_ <;> rintro rfl <;> exact absurd h (by decide)

theorem utf8Len_map_mirrorChar : ∀ cs : List Char,
    String.utf8Len (cs.map mirrorChar) = String.utf8Len cs
  | [] => rfl
  | c :: cs => by
    have hsize : (mirrorChar c).utf8Size = c.utf8Size := by
      unfold mirrorChar
      split
      · next h => rw [h]; rfl
      · split
        · next h => rw [h]; rfl
        · rfl
    rw [List.map_cons, String.utf8Len_cons, String.utf8Len_cons, hsize, utf8Len_map_mirrorChar cs]

theorem utf8ByteSize_mirrorText (s : String) : (mirrorText s).utf8ByteSize = s.utf8ByteSize := by
  rw [← String.utf8Len_toList, toList_mirrorText, utf8Len_map_mirrorChar, String.utf8Len_toList]

/-! ### Mirrored tokens -/

theorem ofChar?_mirrorChar (pending : Nat) (c : Char) :
    Token.ofChar? pending (mirrorChar c) = (Token.ofChar? pending c).map Token.mirror := by
  by_cases hplus : c = '+'
  · rw [hplus]
    rfl
  · by_cases hminus : c = '-'
    · rw [hminus]
      rfl
    · rw [mirrorChar_of_ne hplus hminus]
      unfold Token.ofChar?
      split <;> try rfl
      · exact absurd rfl hplus
      · exact absurd rfl hminus
      · split <;> rfl

theorem pendingAfter_mirrorChar (pending : Nat) (c : Char) :
    pendingAfter pending (mirrorChar c) = pendingAfter pending c := by
  by_cases hplus : c = '+'
  · rw [hplus]
    rfl
  · by_cases hminus : c = '-'
    · rw [hminus]
      rfl
    · rw [mirrorChar_of_ne hplus hminus]

theorem tokensAfter_map_mirrorChar : ∀ (cs : List Char) (pending : Nat),
    tokensAfter pending (cs.map mirrorChar) = (tokensAfter pending cs).map Token.mirror
  | [], _ => rfl
  | c :: cs, pending => by
    rw [List.map_cons, tokensAfter_cons, tokensAfter_cons, ofChar?_mirrorChar,
      pendingAfter_mirrorChar, tokensAfter_map_mirrorChar cs, Option.toList_map, List.map_append]

/-- **A mirrored string is read as the mirrored tokens.** -/
theorem scan_mirrorText (s : String) :
    Token.scan (mirrorText s) = (Token.scan s).map Token.mirror := by
  rw [Scanner.scan_eq_tokensAfter, toList_mirrorText, tokensAfter_map_mirrorChar]
  rfl

theorem mirrorText_ofList_of_isDigit {ds : List Char} (h : ∀ d ∈ ds, d.isDigit = true) :
    mirrorText (.ofList ds) = .ofList ds := by
  have hmap : ds.map mirrorChar = ds.map id :=
    List.map_congr_left fun d hd => mirrorChar_of_isDigit (h d hd)
  rw [mirrorText, String.toList_ofList, hmap, List.map_id]

theorem Token.written_mirror : ∀ {t : Token}, t.Legible → t.mirror.written = mirrorText t.written
  | symbol c, h => by
    show String.singleton (canonical c) = mirrorText (.singleton (canonical c))
    rw [mirrorText_singleton, mirrorChar_of_isAlpha (isAlpha_canonical h)]
  | turn d multiplier, _ => by
    have hsign : mirrorText (.singleton d.symbol) = .singleton d.opposite.symbol := by
      cases d <;> rfl
    rw [mirror, written, written, mirrorText_append, hsign]
    congr 1
    split
    · rfl
    · exact (mirrorText_ofList_of_isDigit fun _ => Decimal.isDigit_of_mem_digits).symm
  | push, _ | pop, _ | enterScale, _ | exitScale, _ | forcedDraw, _ => rfl

/-! ### Mirrored passes -/

namespace Rules

theorem body?_mirror (rules : Rules) (c : Char) :
    rules.mirror.body? c = (rules.body? c).map mirrorText := by
  unfold body? mirror
  rw [List.find?_map, Option.map_map, Option.map_map]
  rfl

/-- **A mirrored pass writes the mirrored text for a token.** -/
theorem image_mirror (rules : Rules) {t : Token} (h : t.Legible) :
    rules.mirror.image t.mirror = mirrorText (rules.image t) := by
  cases t with
  | symbol c =>
    simp only [Token.mirror, image, body?_mirror]
    cases rules.body? c with
    | some body =>
      show "<" ++ mirrorText body ++ ">" = mirrorText ("<" ++ body ++ ">")
      rw [mirrorText_append, mirrorText_append]
      rfl
    | none => exact Token.written_mirror h
  | _ => exact Token.written_mirror h

end Rules

/-! ### Mirrored scripts -/

/-- An event with its turn to the other side. -/
def Event.mirror : Event → Event
  | act t => act t.mirror
  | e => e

theorem passScript_mirror (rules : Rules) (limit : Option Nat) {next next' : String → List Event}
    (hnext : ∀ s, next' (mirrorText s) = (next s).map Event.mirror) :
    ∀ (ts : List Token) (out : String), (∀ t ∈ ts, t.Legible) →
      rules.mirror.passScript limit next' (ts.map Token.mirror) (mirrorText out) =
        (rules.passScript limit next ts out).map Event.mirror
  | [], out, _ => hnext out
  | t :: ts, out, h => by
    have ih := passScript_mirror rules limit hnext ts (out ++ rules.image t) fun u hu =>
      h u (List.mem_cons_of_mem t hu)
    have hout : mirrorText out ++ rules.mirror.image t.mirror =
        mirrorText (out ++ rules.image t) := by
      rw [rules.image_mirror (h t List.mem_cons_self), mirrorText_append]
    cases limit with
    | none =>
      simp only [List.map_cons, Rules.passScript, hout, ih]
      rfl
    | some l =>
      simp only [List.map_cons, Rules.passScript, hout, utf8ByteSize_mirrorText, ih]
      split <;> rfl

theorem deriveScript_mirror (rules : Rules) (limit : Option Nat) {next next' : String → List Event}
    (hnext : ∀ s, next' (mirrorText s) = (next s).map Event.mirror) : ∀ (n : Nat) (s : String),
      rules.mirror.deriveScript limit next' n (mirrorText s) =
        (rules.deriveScript limit next n s).map Event.mirror
  | 0, s => hnext s
  | n + 1, s => by
    have hempty : mirrorText "" = "" := rfl
    have hpass := passScript_mirror rules limit (deriveScript_mirror rules limit hnext n)
      (Token.scan s) "" fun _ => legible_of_mem_scan
    rw [Rules.deriveScript, scan_mirrorText, ← hempty, hpass]
    rfl

namespace Grammar

theorem walkScript_mirror (g : Grammar) : ∀ (levels depth : Nat) (s : String),
    g.mirror.walkScript levels depth (mirrorText s) =
      (g.walkScript levels depth s).map Event.mirror
  | 0, depth, s => by
    rw [walkScript, scan_mirrorText, List.flatMap_map, walkScript, List.map_cons, List.map_flatMap]
    rfl
  | levels + 1, depth, s => by
    rw [walkScript, scan_mirrorText, List.flatMap_map, walkScript, List.map_cons, List.map_flatMap]
    congr 1
    refine List.flatMap_congr fun t ht => ?_
    have hbody : t.mirror.body? g.mirror = (t.body? g).map mirrorText := by
      cases t with
      | symbol c => exact g.rules.body?_mirror c
      | _ => rfl
    rw [hbody]
    cases t.body? g with
    | some body => simp [walkScript_mirror g levels, Event.mirror, Token.mirror]
    | none => rfl

/-- **The script of the mirrored grammar is the mirrored script.** -/
theorem script_mirror (g : Grammar) (strategy : Strategy) (maxExpansion : Option Nat) :
    g.mirror.script strategy maxExpansion = (g.script strategy maxExpansion).map Event.mirror := by
  cases strategy with
  | recursive => exact g.walkScript_mirror _ 0 g.start
  | materialized =>
    exact deriveScript_mirror g.rules maxExpansion (g.walkScript_mirror 0 0) _ g.start

end Grammar

/-! ### Mirrored renderings -/

/-- The negated angle times the turns to the other side is the same angle. -/
theorem Direction.angle_mul_factor_opposite (a : Angle) (d : Direction) (multiplier : Nat) :
    -a * d.opposite.factor multiplier = a * d.factor multiplier := by
  have hleft (m : Float) : (-1 : Float) * m = -(1 * m) := neg_mul 1 m
  cases d with
  | right =>
    show (⟨-a.radians * (-1 * _)⟩ : Angle) = ⟨a.radians * (1 * _)⟩
    rw [hleft, neg_mul_neg]
  | left =>
    show (⟨-a.radians * (1 * _)⟩ : Angle) = ⟨a.radians * (-1 * _)⟩
    rw [hleft, neg_mul, mul_neg]

section

variable {σ : Type} [LineSink σ]

/-- **A mirrored token acts for the mirrored grammar as the token does for the grammar.** -/
theorem Token.act_mirror {τ : Type} [LineSink τ] (g : Grammar) (t : Turtle τ) :
    ∀ k : Token, k.mirror.act g.mirror t = k.act g t
  | turn d multiplier => by
    show t.turn (-g.turnAngle * d.opposite.factor multiplier) =
      t.turn (g.turnAngle * d.factor multiplier)
    rw [Direction.angle_mul_factor_opposite]
  | symbol _ | push | pop | enterScale | exitScale | forcedDraw => rfl

theorem perform_mirror (config : RenderConfig σ) (g : Grammar) : ∀ es : List Event,
    perform config g.mirror (es.map Event.mirror) = perform config g es
  | [] => rfl
  | e :: es => by
    have he : e.mirror.perform config g.mirror = e.perform config g := by
      cases e with
      | act k => exact congrArg drive (funext fun t => Token.act_mirror g t k)
      | _ => rfl
    rw [List.map_cons, perform, he, perform_mirror config g es, perform]

theorem render_mirror_eq (config : RenderConfig σ) (g : Grammar) (sink : σ) :
    config.render g.mirror sink = config.render g sink := by
  rw [render_eq_outcome, render_eq_outcome, g.script_mirror, perform_mirror]
  rfl

/-- **Right and left can be swapped.** The mirrored grammar is drawn as the grammar is: by either
strategy and under any limits and any flag, the sink gets the same calls, bit by bit, and the
rendering ends with the same sink and the same counts or the same error. -/
theorem render_mirror (config : RenderConfig σ) (g : Grammar) (sink : σ) :
    config.record g.mirror sink = config.record g sink ∧
      config.render g.mirror sink = config.render g sink := by
  refine ⟨?_, render_mirror_eq config g sink⟩
  unfold RenderConfig.record
  rw [render_mirror_eq]

end
end LSystem
