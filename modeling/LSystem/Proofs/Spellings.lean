/-
# How JSON values may be spelled

One value has many texts: blanks stand around it and around its parts, a character of a string is
written as it is or escaped, a number has fractions and exponents. A spelling keeps all of this
(`Json.ValueSpelling`), so that the texts of spellings are the JSON texts. The readers go past blanks
(`Json.SkipsBlanks`), and a string is read as the characters its units stand for, if every surrogate
finds its other half (`Json.text_quoted`). A value that is skipped need not have a meaning, only a
spelling: it is skipped whole, with everything in it (`Json.skip_text`).

Key definitions: `Json.Blanks`, `Json.SkipsBlanks`, `Json.TextUnit`, `Json.decode`,
`Json.ValueSpelling`, `Json.ValueSpelling.text`, `Json.ValueSpelling.trail`.
Key theorems: `Json.SkipsBlanks.dropWhile`, `Json.text_quoted`, `Json.skipValue_text`,
`Json.skip_text`.
-/
import LSystem.Json.Record
import LSystem.Proofs.ReadNumber

namespace LSystem.Json

variable {α β : Type}

/-! ### Blanks -/

/-- Blanks, one after the other. -/
structure Blanks where
  text : List Char
  blank : ∀ c ∈ text, isBlank c = true

namespace Blanks

/-- No blank. -/
def none : Blanks := ⟨[], nofun⟩

/-- Blanks behind blanks. -/
def append (v w : Blanks) : Blanks where
  text := v.text ++ w.text
  blank := fun c hc => (List.mem_append.mp hc).elim (v.blank c) (w.blank c)

/-- The blanks that a text starts with. -/
def leading (cs : List Char) : Blanks where
  text := cs.takeWhile isBlank
  blank := fun _ hc => List.all_eq_true.mp List.all_takeWhile _ hc

theorem leading_append_dropWhile (cs : List Char) :
    (leading cs).text ++ cs.dropWhile isBlank = cs :=
  List.takeWhile_append_dropWhile

theorem dropWhile_append (w : Blanks) (cs : List Char) :
    (w.text ++ cs).dropWhile isBlank = cs.dropWhile isBlank :=
  List.dropWhile_append_of_pos w.blank

end Blanks

/-- A reader that goes past the blanks before a value. -/
def SkipsBlanks (r : Reader α) : Prop := ∀ (w : Blanks) (cs : List Char), r (w.text ++ cs) = r cs

theorem skipsBlanks_peek : SkipsBlanks peek := by
  intro w cs
  have hskip (cs : List Char) : skipBlanks cs = .ok (⟨⟩, cs.dropWhile isBlank) := rfl
  rw [peek, bind_ok (hskip _), bind_ok (hskip _), w.dropWhile_append]

namespace SkipsBlanks

variable {r : Reader α}

theorem bind (h : SkipsBlanks r) (f : α → Reader β) : SkipsBlanks (r >>= f) := by
  intro w cs
  show (r (w.text ++ cs) >>= fun p => f p.1 p.2) = (r cs >>= fun p => f p.1 p.2)
  rw [h w cs]

theorem map (h : SkipsBlanks r) (f : α → β) : SkipsBlanks (f <$> r) := by
  intro w cs
  show (r (w.text ++ cs) >>= fun p => pure (f p.1, p.2)) = (r cs >>= fun p => pure (f p.1, p.2))
  rw [h w cs]

/-- Such a reader does not mind whether blanks have been taken before it. -/
theorem dropWhile (h : SkipsBlanks r) (cs : List Char) : r (cs.dropWhile isBlank) = r cs := by
  conv_rhs => rw [← Blanks.leading_append_dropWhile cs]
  exact (h _ _).symm

end SkipsBlanks

theorem skipsBlanks_punctuation (c : Char) : SkipsBlanks (punctuation c) := skipsBlanks_peek.bind _

theorem skipsBlanks_atItem (first : Bool) : SkipsBlanks (atItem first) := skipsBlanks_peek.bind _

theorem skipsBlanks_atKey (first : Bool) : SkipsBlanks (atKey first) := skipsBlanks_peek.bind _

theorem skipsBlanks_skipValue : ∀ fuel : Nat, SkipsBlanks (skipValue fuel)
  | 0 => fun _ _ => rfl
  | fuel + 1 => by
    rw [skipValue]
    exact skipsBlanks_peek.bind _

theorem Blanks.endsNumber_append (w : Blanks) {rest : List Char} (h : EndsNumber rest) :
    EndsNumber (w.text ++ rest) := by
  obtain ⟨cs, hblank⟩ := w
  cases cs with
  | nil => exact h
  | cons c cs =>
    have hc : c = ' ' ∨ c = '\n' ∨ c = '\t' ∨ c = '\r' := by
      simpa [isBlank, or_assoc] using hblank c List.mem_cons_self
    refine endsNumber_cons ?_ _
    rcases hc with rfl | rfl | rfl | rfl <;> decide

/-! ### Strings -/

/-- Four hexadecimal digits, small or capital. -/
structure HexSpelling where
  first : Char
  second : Char
  third : Char
  fourth : Char
  isHex : ∀ c ∈ [first, second, third, fourth], (hexValue? c).isSome = true

namespace HexSpelling

def text (q : HexSpelling) : List Char := [q.first, q.second, q.third, q.fourth]

/-- The number that is spelled. -/
def value (q : HexSpelling) : Nat := q.text.foldl (fun n c => n * 16 + (hexValue? c).getD 0) 0

theorem hexQuad_append (q : HexSpelling) (rest : List Char) :
    hexQuad (q.text ++ rest) = .ok (q.value, rest) := by
  obtain ⟨a, b, c, d, isHex⟩ := q
  obtain ⟨m, hm⟩ := Option.isSome_iff_exists.mp (isHex a (by simp))
  obtain ⟨n, hn⟩ := Option.isSome_iff_exists.mp (isHex b (by simp))
  obtain ⟨k, hk⟩ := Option.isSome_iff_exists.mp (isHex c (by simp))
  obtain ⟨l, hl⟩ := Option.isSome_iff_exists.mp (isHex d (by simp))
  rw [hexQuad, bind_ok (get_apply _)]
  simp [text, value, hm, hn, hk, hl]
  rfl

end HexSpelling

/-- The character that a mark behind a backslash stands for. -/
def shortEscape? : Char → Option Char
  | '"' => some '"'
  | '\\' => some '\\'
  | '/' => some '/'
  | 'b' => some '\x08'
  | 'f' => some '\x0c'
  | 'n' => some '\n'
  | 'r' => some '\r'
  | 't' => some '\t'
  | _ => none

/-- A character that needs no escape. -/
def isPlain (c : Char) : Bool := c ≠ '"' && c ≠ '\\' && 0x20 ≤ c.toNat

/-- One unit of a string between its quotes. -/
inductive TextUnit where
  /-- A character as it is. -/
  | plain (c : Char) (needsNone : isPlain c = true)
  /-- An escape by a mark. -/
  | marked (mark meaning : Char) (isEscape : shortEscape? mark = some meaning)
  /-- An escape by number. -/
  | numbered (number : HexSpelling)
  /-- Two escapes by number that stand for one character. -/
  | paired (leading trailing : HexSpelling) (isLeading : isLeadingSurrogate leading.value = true)
    (isTrailing : isTrailingSurrogate trailing.value = true)

namespace TextUnit

/-- The text of a unit. -/
def text : TextUnit → List Char
  | plain c _ => [c]
  | marked mark _ _ => ['\\', mark]
  | numbered q => '\\' :: 'u' :: q.text
  | paired q q' _ _ => '\\' :: 'u' :: (q.text ++ '\\' :: 'u' :: q'.text)

/-- The character that a unit stands for; a surrogate alone stands for none. -/
def char? : TextUnit → Option Char
  | plain c _ => some c
  | marked _ c _ => some c
  | numbered q =>
    if isTrailingSurrogate q.value || isLeadingSurrogate q.value then none
    else some (Char.ofNat q.value)
  | paired q q' _ _ => some (pairedChar q.value q'.value)

end TextUnit

/-- The characters that units stand for, if each of them stands for one. -/
def decode : List TextUnit → Option (List Char)
  | [] => some []
  | u :: us => do return (← u.char?) :: (← decode us)

/-- Characters that need no escape, as they are. -/
def asIs (cs : List Char) (h : ∀ c ∈ cs, isPlain c = true) : List TextUnit :=
  cs.pmap TextUnit.plain h

/-- Units between quotes. -/
def quoted (us : List TextUnit) : List Char := '"' :: (us.flatMap TextUnit.text ++ ['"'])

theorem quoted_append (us : List TextUnit) (rest : List Char) :
    quoted us ++ rest = ['"'] ++ (us.flatMap TextUnit.text ++ '"' :: rest) := by
  simp [quoted]

theorem peek_quoted (us : List TextUnit) (rest : List Char) :
    peek (quoted us ++ rest) = .ok ('"', quoted us ++ rest) := peek_cons (by decide) _

theorem length_le_length_units : ∀ us : List TextUnit,
    us.length ≤ (us.flatMap TextUnit.text).length
  | [] => Nat.le_refl 0
  | u :: us => by
    have hus := length_le_length_units us
    have hu : 1 ≤ u.text.length := by cases u <;> simp [TextUnit.text]
    rw [List.flatMap_cons, List.length_append, List.length_cons]
    omega

section Units

variable {found rest : List Char} {fuel : Nat}

theorem textFrom_plain (escape : Reader Char) {c : Char} (h : isPlain c = true) :
    textFrom escape found (fuel + 1) (c :: rest) = textFrom escape (c :: found) fuel rest := by
  rw [textFrom, bind_ok (next_cons _ _)]
  split
  · exact absurd h (by decide)
  · exact absurd h (by decide)
  · have hcontrol : ¬ c.toNat < 0x20 := by
      simp only [isPlain, Bool.and_eq_true, decide_eq_true_eq] at h
      omega
    rw [if_neg hcontrol]

theorem textFrom_escape {escape : Reader Char} {c : Char} {cs : List Char}
    (h : escape cs = .ok (c, rest)) :
    textFrom escape found (fuel + 1) ('\\' :: cs) = textFrom escape (c :: found) fuel rest := by
  rw [textFrom, bind_ok (next_cons _ _)]
  exact bind_ok h

theorem escapeWith_marked (numbered : Reader Char) {mark meaning : Char}
    (h : shortEscape? mark = some meaning) (rest : List Char) :
    escapeWith numbered (mark :: rest) = .ok (meaning, rest) := by
  rw [escapeWith, bind_ok (next_cons _ _)]
  unfold shortEscape? at h
  split at h
  case h_9 => cases h
  all_goals
    obtain rfl := Option.some.inj h
    rfl

/-- **A unit is read as the character it stands for**, in one step. -/
theorem textFrom_unit {u : TextUnit} {c : Char} (h : u.char? = some c) :
    textFrom escape found (fuel + 1) (u.text ++ rest) = textFrom escape (c :: found) fuel rest := by
  cases u with
  | plain d needsNone =>
    obtain rfl := Option.some.inj h
    exact textFrom_plain escape needsNone
  | marked mark d isEscape =>
    obtain rfl := Option.some.inj h
    exact textFrom_escape (escapeWith_marked numberedChar isEscape rest)
  | numbered q =>
    obtain ⟨hsurrogate, hc⟩ := Option.ite_none_left_eq_some.mp h
    obtain ⟨htrailing, hleading⟩ := Bool.or_eq_false_iff.mp (Bool.not_eq_true _ ▸ hsurrogate)
    obtain rfl := Option.some.inj hc
    have hread : numberedChar (q.text ++ rest) = .ok (Char.ofNat q.value, rest) := by
      rw [numberedChar, bind_ok (q.hexQuad_append rest), htrailing, hleading]
      rfl
    exact textFrom_escape hread
  | paired q q' isLeading isTrailing =>
    obtain rfl := Option.some.inj h
    have hfirst : isTrailingSurrogate q.value = false := by
      simp only [isLeadingSurrogate, isTrailingSurrogate, Bool.and_eq_true, decide_eq_true_eq,
        Bool.and_eq_false_iff, decide_eq_false_iff_not] at isLeading ⊢
      omega
    have hread : numberedChar (q.text ++ (['\\', 'u'] ++ (q'.text ++ rest))) =
        .ok (pairedChar q.value q'.value, rest) := by
      rw [numberedChar, bind_ok (q.hexQuad_append _), hfirst, isLeading, if_neg Bool.false_ne_true,
        if_pos rfl, bind_ok (word_append _ _), bind_ok (q'.hexQuad_append rest), isTrailing]
      rfl
    exact textFrom_escape hread

theorem textFrom_units (rest : List Char) : ∀ (us : List TextUnit) {cs : List Char}
    (found : List Char) (fuel : Nat), decode us = some cs → us.length < fuel →
      textFrom escape found fuel (us.flatMap TextUnit.text ++ '"' :: rest) =
        .ok (.ofList (found.reverse ++ cs), rest)
  | [], cs, found, fuel + 1, hdecode, _ => by
    obtain rfl : [] = cs := Option.some.inj hdecode
    rw [List.append_nil]
    rfl
  | u :: us, cs, found, fuel + 1, hdecode, hfuel => by
    rw [decode] at hdecode
    obtain ⟨c, hc, hdecode⟩ := Option.bind_eq_some_iff.mp hdecode
    obtain ⟨ds, hds, hcs⟩ := Option.bind_eq_some_iff.mp hdecode
    obtain rfl : c :: ds = cs := Option.some.inj hcs
    rw [List.flatMap_cons, List.append_assoc, textFrom_unit hc,
      textFrom_units rest us _ fuel hds (Nat.lt_of_succ_lt_succ hfuel), List.reverse_cons,
      List.append_assoc, List.singleton_append]

/-- **A string is read as the characters its units stand for.** -/
theorem text_quoted {us : List TextUnit} {cs : List Char} (h : decode us = some cs)
    (rest : List Char) : text (quoted us ++ rest) = .ok (.ofList cs, rest) := by
  have hfuel : us.length < (us.flatMap TextUnit.text ++ '"' :: rest).length + 1 := by
    have hlength := length_le_length_units us
    rw [List.length_append]
    omega
  rw [quoted_append, text, bind_ok (word_append _ _), repeated_apply,
    textFrom_units rest us [] _ h hfuel]
  rfl

/-- An escape as it is skipped: one by number may be any. -/
def anyEscape : Reader Char := escapeWith do discard hexQuad; return ' '

theorem anyEscape_numbered (q : HexSpelling) (rest : List Char) :
    anyEscape ('u' :: (q.text ++ rest)) = .ok (' ', rest) := by
  show (discard hexQuad >>= fun _ => pure ' ' : Reader Char) (q.text ++ rest) = _
  rw [bind_ok (discard_ok (q.hexQuad_append rest))]
  rfl

/-- A unit is skipped in no more steps than it has characters. -/
theorem textFrom_anyUnit (u : TextUnit) (found rest : List Char) (n : Nat) :
    ∃ found' m, n ≤ m ∧ textFrom anyEscape found (u.text.length + n) (u.text ++ rest) =
      textFrom anyEscape found' m rest := by
  cases u with
  | plain c needsNone =>
    refine ⟨c :: found, n, Nat.le_refl n, ?_⟩
    rw [Nat.add_comm]
    exact textFrom_plain anyEscape needsNone
  | marked mark c isEscape =>
    refine ⟨c :: found, n + 1, Nat.le_add_right n 1, ?_⟩
    rw [Nat.add_comm]
    exact textFrom_escape (escapeWith_marked _ isEscape rest)
  | numbered q =>
    refine ⟨' ' :: found, n + 5, Nat.le_add_right n 5, ?_⟩
    rw [Nat.add_comm]
    exact textFrom_escape (anyEscape_numbered q rest)
  | paired q q' isLeading isTrailing =>
    -- the two halves are skipped one after the other
    refine ⟨' ' :: ' ' :: found, n + 10, Nat.le_add_right n 10, ?_⟩
    have hfirst : textFrom anyEscape found (n + 10 + 1 + 1)
        ('\\' :: 'u' :: (q.text ++ ('\\' :: 'u' :: (q'.text ++ rest)))) =
          textFrom anyEscape (' ' :: found) (n + 10 + 1) ('\\' :: 'u' :: (q'.text ++ rest)) :=
      textFrom_escape (anyEscape_numbered q _)
    rw [Nat.add_comm]
    exact hfirst.trans (textFrom_escape (anyEscape_numbered q' rest))

theorem textFrom_anyUnits (rest : List Char) : ∀ (us : List TextUnit) (found : List Char)
    (fuel : Nat), (us.flatMap TextUnit.text).length < fuel →
      ∃ s, textFrom anyEscape found fuel (us.flatMap TextUnit.text ++ '"' :: rest) = .ok (s, rest)
  | [], found, fuel + 1, _ => ⟨.ofList found.reverse, rfl⟩
  | u :: us, found, fuel, hfuel => by
    rw [List.flatMap_cons, List.length_append] at hfuel
    obtain ⟨n, rfl⟩ := Nat.exists_eq_add_of_le (by omega : u.text.length ≤ fuel)
    obtain ⟨found', m, hm, hstep⟩ :=
      textFrom_anyUnit u found (us.flatMap TextUnit.text ++ '"' :: rest) n
    rw [List.flatMap_cons, List.append_assoc, hstep]
    exact textFrom_anyUnits rest us found' m (by omega)

/-- **Any string is skipped**, whatever its units stand for. -/
theorem skipText_quoted (us : List TextUnit) (rest : List Char) :
    skipText (quoted us ++ rest) = .ok (⟨⟩, rest) := by
  obtain ⟨s, hs⟩ := textFrom_anyUnits rest us []
    ((us.flatMap TextUnit.text ++ '"' :: rest).length + 1) (by
      rw [List.length_append]
      omega)
  rw [quoted_append, skipText, bind_ok (word_append _ _)]
  exact discard_ok hs

end Units

/-! ### Values -/

/-- How the key of an entry is spelled, with the blanks around it. -/
structure KeySpelling where
  before : Blanks
  units : List TextUnit
  after : Blanks

/-- The key, if its units stand for characters. -/
def KeySpelling.name? (k : KeySpelling) : Option String := (decode k.units).map .ofList

/-- How a value is spelled. -/
inductive ValueSpelling where
  | null
  | boolean (value : Bool)
  | number (spelling : Spelling)
  | string (units : List TextUnit)
  /-- The items of a sequence, with blanks behind its opening bracket. -/
  | sequence (inner : Blanks) (items : List ValueSpelling)
  /-- The entries of a map, with blanks behind its opening bracket. -/
  | map (inner : Blanks) (members : List (KeySpelling × ValueSpelling))
  /-- A value with blanks around it. -/
  | spaced (before : Blanks) (value : ValueSpelling) (after : Blanks)

namespace ValueSpelling

/-- The comma that stands before an item, unless it is the first one. -/
def separator (first : Bool) : List Char := if first then [] else [',']

mutual

/-- The text of a value. -/
def text : ValueSpelling → List Char
  | null => "null".toList
  | boolean true => "true".toList
  | boolean false => "false".toList
  | number s => s.text
  | string us => quoted us
  | sequence inner items => '[' :: (inner.text ++ (itemsText true items ++ [']']))
  | map inner members => '{' :: (inner.text ++ (membersText true members ++ ['}']))
  | spaced before v after => before.text ++ (v.text ++ after.text)

/-- Items with commas between them. -/
def itemsText (first : Bool) : List ValueSpelling → List Char
  | [] => []
  | v :: vs => separator first ++ (v.text ++ itemsText false vs)

/-- Entries with commas between them. -/
def membersText (first : Bool) : List (KeySpelling × ValueSpelling) → List Char
  | [] => []
  | (k, v) :: ms => separator first ++ (k.before.text ++ (quoted k.units ++
      (k.after.text ++ ':' :: (v.text ++ membersText false ms))))

end

/-- The value without the blanks around it. -/
def core : ValueSpelling → ValueSpelling
  | spaced _ v _ => v.core
  | v => v

/-- The blanks behind a value. -/
def trail : ValueSpelling → Blanks
  | spaced _ v after => v.trail.append after
  | _ => .none

/-- The text of a value as a string. -/
def toText (v : ValueSpelling) : String := .ofList v.text

end ValueSpelling

open ValueSpelling (separator itemsText membersText)

theorem length_le_length_membersText (first : Bool) : ∀ ms : List (KeySpelling × ValueSpelling),
    ms.length ≤ (membersText first ms).length
  | [] => Nat.le_refl 0
  | (k, v) :: ms => by
    have hms := length_le_length_membersText false ms
    simp only [membersText, List.length_cons, List.length_append]
    omega

theorem endsNumber_itemsText (vs : List ValueSpelling) (rest : List Char) :
    EndsNumber (itemsText false vs ++ ']' :: rest) := by
  cases vs <;> exact endsNumber_cons (by decide) _

theorem endsNumber_membersText (ms : List (KeySpelling × ValueSpelling)) (rest : List Char) :
    EndsNumber (membersText false ms ++ '}' :: rest) := by
  cases ms <;> exact endsNumber_cons (by decide) _

theorem ValueSpelling.exists_head : ∀ (v : ValueSpelling) (rest : List Char),
    ∃ c cs, (v.text ++ rest).dropWhile isBlank = c :: cs ∧ isBlank c = false ∧ c ≠ ']'
  | null, rest => ⟨'n', _, rfl, rfl, by decide⟩
  | boolean true, rest => ⟨'t', _, rfl, rfl, by decide⟩
  | boolean false, rest => ⟨'f', _, rfl, rfl, by decide⟩
  | number s, rest => by
    obtain ⟨c, cs, hs, hstart, hblank⟩ := s.exists_head
    refine ⟨c, cs ++ rest, ?_, hblank, ?_⟩
    · rw [text, hs, List.cons_append, List.dropWhile_cons_of_neg (by simp [hblank])]
    · rintro rfl
      exact absurd hstart (by decide)
  | string us, rest => ⟨'"', _, rfl, rfl, by decide⟩
  | sequence inner items, rest => ⟨'[', _, by rw [text]; rfl, rfl, by decide⟩
  | map inner members, rest => ⟨'{', _, by rw [text]; rfl, rfl, by decide⟩
  | spaced before v after, rest => by
    rw [text, List.append_assoc, List.append_assoc, before.dropWhile_append]
    exact v.exists_head (after.text ++ rest)

/-! ### Going from item to item -/

theorem punctuation_blanks {c : Char} (h : isBlank c = false) (w : Blanks) (rest : List Char) :
    punctuation c (w.text ++ c :: rest) = .ok (⟨⟩, rest) := by
  rw [skipsBlanks_punctuation c w, punctuation_cons h]

theorem atItem_blanks_close (first : Bool) (w : Blanks) (rest : List Char) :
    atItem first (w.text ++ ']' :: rest) = .ok (false, ']' :: rest) := by
  rw [skipsBlanks_atItem first w, atItem_close]

theorem atKey_blanks_close (first : Bool) (w : Blanks) (rest : List Char) :
    atKey first (w.text ++ '}' :: rest) = .ok (false, '}' :: rest) := by
  rw [skipsBlanks_atKey first w, atKey_close]

theorem atItem_separator (first : Bool) (w : Blanks) (v : ValueSpelling) (rest : List Char) :
    atItem first (w.text ++ (separator first ++ (v.text ++ rest))) =
      .ok (true, (v.text ++ rest).dropWhile isBlank) := by
  obtain ⟨c, cs, hcs, hblank, hclose⟩ := v.exists_head rest
  have hpeek : peek (v.text ++ rest) = .ok (c, c :: cs) := by
    rw [← skipsBlanks_peek.dropWhile, hcs, peek_cons hblank]
  rw [skipsBlanks_atItem first w, hcs, atItem]
  cases first with
  | true =>
    show (peek >>= _) (v.text ++ rest) = _
    rw [bind_ok hpeek]
    split
    · exact absurd rfl hclose
    · rfl
    · rfl
  | false =>
    show (peek >>= _) (',' :: (v.text ++ rest)) = _
    rw [bind_ok (peek_cons (by decide) _)]
    show (discard next >>= _) _ = _
    rw [bind_ok (discard_ok (next_cons _ _)), bind_ok hpeek, if_neg hclose]
    rfl

theorem atKey_separator (first : Bool) (v w : Blanks) (us : List TextUnit) (rest : List Char) :
    atKey first (v.text ++ (separator first ++ (w.text ++ (quoted us ++ rest)))) =
      .ok (true, quoted us ++ rest) := by
  have hpeek : peek (w.text ++ (quoted us ++ rest)) = .ok ('"', quoted us ++ rest) := by
    rw [skipsBlanks_peek w, peek_quoted]
  rw [skipsBlanks_atKey first v, atKey]
  cases first with
  | true =>
    show (peek >>= _) (w.text ++ (quoted us ++ rest)) = _
    rw [bind_ok hpeek]
    rfl
  | false =>
    show (peek >>= _) (',' :: (w.text ++ (quoted us ++ rest))) = _
    rw [bind_ok (peek_cons (by decide) _)]
    show (discard next >>= _) _ = _
    rw [bind_ok (discard_ok (next_cons _ _)), bind_ok hpeek]
    rfl

theorem atItem_itemsText (first : Bool) (w : Blanks) (v : ValueSpelling) (vs : List ValueSpelling)
    (rest : List Char) :
    atItem first (w.text ++ (itemsText first (v :: vs) ++ ']' :: rest)) =
      .ok (true, (v.text ++ (itemsText false vs ++ ']' :: rest)).dropWhile isBlank) := by
  simp only [itemsText, List.append_assoc]
  exact atItem_separator first w v _

theorem atKey_membersText (first : Bool) (w : Blanks) (k : KeySpelling) (v : ValueSpelling)
    (ms : List (KeySpelling × ValueSpelling)) (rest : List Char) :
    atKey first (w.text ++ (membersText first ((k, v) :: ms) ++ '}' :: rest)) =
      .ok (true, quoted k.units ++
        (k.after.text ++ ':' :: (v.text ++ (membersText false ms ++ '}' :: rest)))) := by
  simp only [membersText, List.append_assoc, List.cons_append]
  exact atKey_separator first w k.before k.units _

theorem text_sequence_append (inner : Blanks) (items : List ValueSpelling) (rest : List Char) :
    (ValueSpelling.sequence inner items).text ++ rest =
      '[' :: (inner.text ++ (itemsText true items ++ ']' :: rest)) := by
  simp [ValueSpelling.text]

theorem text_map_append (inner : Blanks) (members : List (KeySpelling × ValueSpelling))
    (rest : List Char) : (ValueSpelling.map inner members).text ++ rest =
      '{' :: (inner.text ++ (membersText true members ++ '}' :: rest)) := by
  simp [ValueSpelling.text]

/-! ### Skipping -/

section Skipping

variable {rest : List Char} {fuel : Nat}

theorem skipValue_number (s : Spelling) (hrest : EndsNumber rest)
    (hfuel : 2 * s.text.length ≤ fuel) : skipValue fuel (s.text ++ rest) = .ok (⟨⟩, rest) := by
  obtain ⟨c, cs, hs, hstart, hblank⟩ := s.exists_head
  rw [hs, List.length_cons] at hfuel
  obtain ⟨fuel, rfl⟩ : ∃ n, fuel = n + 1 := ⟨fuel - 1, by omega⟩
  have hpeek : peek (s.text ++ rest) = .ok (c, s.text ++ rest) := by
    rw [hs]
    exact peek_cons hblank _
  rw [skipValue, bind_ok hpeek]
  split
  case h_7 => rw [if_pos hstart, s.skipNumber_append hrest]
  all_goals exact absurd hstart (by decide)

end Skipping

mutual

/-- **A value is skipped whole**, up to the blanks behind it. Each character pays for two steps: one
for what it opens, and one for the item it belongs to. -/
theorem skipValue_text : ∀ (v : ValueSpelling) {rest : List Char} {fuel : Nat}, EndsNumber rest →
    2 * v.text.length ≤ fuel → skipValue fuel (v.text ++ rest) = .ok (⟨⟩, v.trail.text ++ rest)
  | .null, rest, fuel + 1, _, _ => by
    have hpeek : peek ("null".toList ++ rest) = .ok ('n', "null".toList ++ rest) :=
      peek_cons (by decide) _
    rw [ValueSpelling.text, skipValue, bind_ok hpeek]
    exact word_append "null".toList rest
  | .boolean true, rest, fuel + 1, _, _ => by
    have hpeek : peek ("true".toList ++ rest) = .ok ('t', "true".toList ++ rest) :=
      peek_cons (by decide) _
    rw [ValueSpelling.text, skipValue, bind_ok hpeek]
    exact word_append "true".toList rest
  | .boolean false, rest, fuel + 1, _, _ => by
    have hpeek : peek ("false".toList ++ rest) = .ok ('f', "false".toList ++ rest) :=
      peek_cons (by decide) _
    rw [ValueSpelling.text, skipValue, bind_ok hpeek]
    exact word_append "false".toList rest
  | .number s, rest, fuel, hrest, hfuel => by
    rw [ValueSpelling.text] at hfuel ⊢
    exact skipValue_number s hrest hfuel
  | .string us, rest, fuel + 1, _, _ => by
    rw [ValueSpelling.text, skipValue, bind_ok (peek_quoted us rest)]
    exact skipText_quoted us rest
  | .sequence inner items, rest, fuel + 1, _, hfuel => by
    have hitems : 2 * ((itemsText true items).length + 1) < fuel := by
      simp only [ValueSpelling.text, List.length_cons, List.length_append] at hfuel
      omega
    rw [text_sequence_append, skipValue, bind_ok (peek_cons (by decide) _)]
    show (discard next >>= _) _ = _
    rw [bind_ok (discard_ok (next_cons _ _))]
    exact skipItems_text true items inner rest hitems
  | .map inner members, rest, fuel + 1, _, hfuel => by
    have hmembers : 2 * ((membersText true members).length + 1) < fuel := by
      simp only [ValueSpelling.text, List.length_cons, List.length_append] at hfuel
      omega
    rw [text_map_append, skipValue, bind_ok (peek_cons (by decide) _)]
    show (discard next >>= _) _ = _
    rw [bind_ok (discard_ok (next_cons _ _))]
    exact skipEntries_text true members inner rest hmembers
  | .spaced before v after, rest, fuel, hrest, hfuel => by
    have hv : 2 * v.text.length ≤ fuel := by
      simp only [ValueSpelling.text, List.length_append] at hfuel
      omega
    rw [ValueSpelling.text, List.append_assoc, List.append_assoc, skipsBlanks_skipValue fuel before,
      skipValue_text v (after.endsNumber_append hrest) hv, ValueSpelling.trail, Blanks.append,
      List.append_assoc]

theorem skipItems_text : ∀ (first : Bool) (vs : List ValueSpelling) (w : Blanks) (rest : List Char)
    {fuel : Nat}, 2 * ((itemsText first vs).length + first.toNat) < fuel →
      skipItems first fuel (w.text ++ (itemsText first vs ++ ']' :: rest)) = .ok (⟨⟩, rest)
  | first, [], w, rest, fuel + 1, _ => by
    rw [itemsText, List.nil_append, skipItems, bind_ok (atItem_blanks_close first w rest),
      if_neg Bool.false_ne_true]
    exact punctuation_cons (by decide) rest
  | first, v :: vs, w, rest, fuel + 1, hfuel => by
    have hlength : (itemsText first (v :: vs)).length + first.toNat =
        v.text.length + (itemsText false vs).length + 1 := by
      cases first <;> simp [itemsText, separator]
    have hv : skipValue fuel ((v.text ++ (itemsText false vs ++ ']' :: rest)).dropWhile isBlank) =
        .ok (⟨⟩, v.trail.text ++ (itemsText false vs ++ ']' :: rest)) := by
      rw [(skipsBlanks_skipValue fuel).dropWhile]
      exact skipValue_text v (endsNumber_itemsText vs rest) (by omega)
    rw [skipItems, bind_ok (atItem_itemsText first w v vs rest), if_pos rfl, bind_ok hv]
    exact skipItems_text false vs v.trail rest (by rw [Bool.toNat_false]; omega)

theorem skipEntries_text : ∀ (first : Bool) (ms : List (KeySpelling × ValueSpelling)) (w : Blanks)
    (rest : List Char) {fuel : Nat}, 2 * ((membersText first ms).length + first.toNat) < fuel →
      skipEntries first fuel (w.text ++ (membersText first ms ++ '}' :: rest)) = .ok (⟨⟩, rest)
  | first, [], w, rest, fuel + 1, _ => by
    rw [membersText, List.nil_append, skipEntries, bind_ok (atKey_blanks_close first w rest),
      if_neg Bool.false_ne_true]
    exact punctuation_cons (by decide) rest
  | first, (k, v) :: ms, w, rest, fuel + 1, hfuel => by
    have hlength : v.text.length + (membersText false ms).length + 1 ≤
        (membersText first ((k, v) :: ms)).length := by
      simp only [membersText, List.length_append, List.length_cons]
      omega
    have hv : skipValue fuel (v.text ++ (membersText false ms ++ '}' :: rest)) =
        .ok (⟨⟩, v.trail.text ++ (membersText false ms ++ '}' :: rest)) :=
      skipValue_text v (endsNumber_membersText ms rest) (by omega)
    rw [skipEntries, bind_ok (atKey_membersText first w k v ms rest), if_pos rfl,
      bind_ok (skipText_quoted k.units _), bind_ok (punctuation_blanks (by decide) k.after _),
      bind_ok hv]
    exact skipEntries_text false ms v.trail rest (by rw [Bool.toNat_false]; omega)

end

/-- **Any value is skipped**, in a text of any length. -/
theorem skip_text (v : ValueSpelling) {rest : List Char} (hrest : EndsNumber rest) :
    skip (v.text ++ rest) = .ok (⟨⟩, v.trail.text ++ rest) := by
  rw [skip, bind_ok (get_apply _), List.length_append]
  exact skipValue_text v hrest (by omega)

end LSystem.Json
