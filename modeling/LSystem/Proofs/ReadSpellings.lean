/-
# Readers of spelled values

What a reader of a single value gives depends on the value without the blanks around it
(`Json.Reads.of_core`). A map whose keys and values are read fills its table entry by entry
(`Json.reads_map`). A record takes its fields from a map in any order, and skips what no field has
the name of (`Json.Gathers`, `Json.reads_record_map`); from a sequence it takes them in their own
order, up to where the sequence ends (`Json.Places`, `Json.reads_record_sequence`).

Key definitions: `Json.Reads`, `Json.ValueSpelling.string?`, `Json.ValueSpelling.real?`,
`Json.ValueSpelling.natural?`, `Json.ValueSpelling.items?`, `Json.ValueSpelling.members?`,
`Json.Gathers`, `Json.Places`.
Key theorems: `Json.Reads.of_core`, `Json.reads_map`, `Json.reads_record_map`,
`Json.reads_record_sequence`, `Json.Reads.read_toText`.
-/
import Mathlib.Data.List.Forall2
import LSystem.Proofs.Spellings

namespace LSystem.Json

open ValueSpelling (itemsText membersText)

variable {α β κ σ τ : Type}

/-! ### Readers and spellings -/

/-- A reader reads a spelled value to `a`, up to the blanks behind it. -/
def Reads (r : Reader α) (v : ValueSpelling) (a : α) : Prop :=
  ∀ rest, EndsNumber rest → r (v.text ++ rest) = .ok (a, v.trail.text ++ rest)

namespace Reads

variable {r : Reader α} {v : ValueSpelling} {a : α}

theorem bind_pure (h : Reads r v a) (f : α → β) :
    Reads (do return f (← r)) v (f a) := fun rest hrest => bind_ok (h rest hrest)

theorem map (h : Reads r v a) (f : α → β) : Reads (f <$> r) v (f a) := fun rest hrest =>
  map_ok (h rest hrest)

/-- **The blanks around a value do not matter** to a reader that goes past those before it. -/
theorem of_core (hskips : SkipsBlanks r) : ∀ {v : ValueSpelling}, Reads r v.core a → Reads r v a
  | .spaced before v after, h => by
    have hv : Reads r v a := of_core hskips h
    intro rest hrest
    rw [ValueSpelling.text, List.append_assoc, List.append_assoc, hskips before,
      hv _ (after.endsNumber_append hrest), ValueSpelling.trail, Blanks.append, List.append_assoc]
  | .null, h | .boolean _, h | .number _, h | .string _, h | .sequence _ _, h | .map _ _, h => h

theorem read_toText (h : Reads r v a) : r.read v.toText = .ok a := by
  have hread := h [] endsNumber_nil
  rw [List.append_nil, List.append_nil] at hread
  have hend : skipBlanks v.trail.text = .ok (⟨⟩, []) := by
    have hblanks := v.trail.dropWhile_append []
    rw [List.append_nil] at hblanks
    show Except.ok (PUnit.unit, v.trail.text.dropWhile isBlank) = _
    rw [hblanks, List.dropWhile_nil]
  have hfinish : finish v.trail.text = .ok (⟨⟩, []) := bind_ok hend
  have hwhole : (do let a ← r; finish; return a : Reader α) v.text = .ok (a, []) := by
    rw [bind_ok hread, bind_ok hfinish]
    rfl
  rw [Reader.read, ValueSpelling.toText, String.toList_ofList, StateT.run'_eq]
  show (Prod.fst <$> _) = _
  exact congrArg (Prod.fst <$> ·) hwhole

end Reads

/-! ### Single values -/

namespace ValueSpelling

/-- The string that is spelled. -/
def string? (v : ValueSpelling) : Option String :=
  match v.core with
  | string us => (decode us).map .ofList
  | _ => none

/-- The number that is spelled, if it is in range. -/
def number? (v : ValueSpelling) : Option Number :=
  match v.core with
  | number s => s.number?
  | _ => none

/-- The number that is spelled, as a double. -/
def real? (v : ValueSpelling) : Option Float := v.number?.map Number.toFloat

/-- The natural number below a bound that is spelled. -/
def natural? (bound : Nat) (v : ValueSpelling) : Option Nat :=
  match v.number? with
  | some (.integer n) => if 0 ≤ n ∧ n < bound then some n.toNat else none
  | _ => none

/-- The items of a sequence. -/
def items? (v : ValueSpelling) : Option (List ValueSpelling) :=
  match v.core with
  | sequence _ items => some items
  | _ => none

/-- The entries of a map, as they are spelled. -/
def members? (v : ValueSpelling) : Option (List (KeySpelling × ValueSpelling)) :=
  match v.core with
  | map _ members => some members
  | _ => none

variable {v : ValueSpelling}

theorem core_of_string? {s : String} (h : v.string? = some s) :
    ∃ us cs, v.core = .string us ∧ decode us = some cs ∧ .ofList cs = s := by
  unfold string? at h
  split at h
  · next us hcore =>
    obtain ⟨cs, hcs, hs⟩ := Option.map_eq_some_iff.mp h
    exact ⟨us, cs, hcore, hcs, hs⟩
  · cases h

theorem core_of_number? {n : Number} (h : v.number? = some n) :
    ∃ s : Spelling, v.core = .number s ∧ s.number? = some n := by
  unfold number? at h
  split at h
  · next s hcore => exact ⟨s, hcore, h⟩
  · cases h

theorem core_of_items? {vs : List ValueSpelling} (h : v.items? = some vs) :
    ∃ inner, v.core = .sequence inner vs := by
  unfold items? at h
  split at h
  · next inner items hcore =>
    obtain rfl := Option.some.inj h
    exact ⟨inner, hcore⟩
  · cases h

theorem core_of_members? {ms : List (KeySpelling × ValueSpelling)} (h : v.members? = some ms) :
    ∃ inner, v.core = .map inner ms := by
  unfold members? at h
  split at h
  · next inner members hcore =>
    obtain rfl := Option.some.inj h
    exact ⟨inner, hcore⟩
  · cases h

end ValueSpelling

theorem skipsBlanks_string (expected : String) : SkipsBlanks (string expected) :=
  skipsBlanks_peek.bind _

theorem skipsBlanks_float : SkipsBlanks float := skipsBlanks_peek.bind _

theorem skipsBlanks_natural (bound : Nat) (kind : String) : SkipsBlanks (natural bound kind) :=
  skipsBlanks_peek.bind _

theorem reads_string {v : ValueSpelling} {s : String} (h : v.string? = some s)
    (expected : String) : Reads (string expected) v s := by
  obtain ⟨us, cs, hcore, hcs, rfl⟩ := ValueSpelling.core_of_string? h
  refine Reads.of_core (skipsBlanks_string expected) fun rest _ => ?_
  rw [hcore, ValueSpelling.text, string, bind_ok (peek_quoted us rest), if_pos rfl, text_quoted hcs]
  rfl

theorem number_text {s : Spelling} {n : Number} (h : s.number? = some n) {rest : List Char}
    (hrest : EndsNumber rest) :
    ∃ c, startsNumber c = true ∧ peek (s.text ++ rest) = .ok (c, s.text ++ rest) ∧
      number (s.text ++ rest) = .ok (n, rest) := by
  obtain ⟨c, cs, hs, hstart, hblank⟩ := s.exists_head
  have hnumber := s.number_append hrest
  rw [h] at hnumber
  refine ⟨c, hstart, ?_, hnumber⟩
  rw [hs]
  exact peek_cons hblank _

theorem reads_float {v : ValueSpelling} {x : Float} (h : v.real? = some x) : Reads float v x := by
  obtain ⟨n, hn, rfl⟩ := Option.map_eq_some_iff.mp h
  obtain ⟨s, hcore, hs⟩ := ValueSpelling.core_of_number? hn
  refine Reads.of_core skipsBlanks_float fun rest hrest => ?_
  obtain ⟨c, hstart, hpeek, hnumber⟩ := number_text hs hrest
  rw [hcore, ValueSpelling.text, float, bind_ok hpeek, if_pos hstart]
  exact map_ok hnumber

theorem reads_natural {bound : Nat} {v : ValueSpelling} {n : Nat} (h : v.natural? bound = some n)
    (kind : String) : Reads (natural bound kind) v n := by
  unfold ValueSpelling.natural? at h
  split at h
  · next i hi =>
    obtain ⟨hrange, hn⟩ := Option.ite_none_right_eq_some.mp h
    obtain rfl := Option.some.inj hn
    obtain ⟨s, hcore, hs⟩ := ValueSpelling.core_of_number? hi
    refine Reads.of_core (skipsBlanks_natural bound kind) fun rest hrest => ?_
    obtain ⟨c, hstart, hpeek, hnumber⟩ := number_text hs hrest
    rw [hcore, ValueSpelling.text, natural, bind_ok hpeek, if_pos hstart, bind_ok hnumber]
    show (if 0 ≤ i ∧ i < bound then (return i.toNat : Reader Nat) else _) rest = _
    rw [if_pos hrange]
    rfl
  · cases h

/-! ### Maps -/

section Maps

variable {key : Reader κ} {value : Reader α}

/-- An entry whose key and value are read to those of a table. -/
def ReadsEntry (key : Reader κ) (value : Reader α) (m : KeySpelling × ValueSpelling)
    (e : κ × α) : Prop :=
  (∀ rest, key (quoted m.1.units ++ rest) = .ok (e.1, rest)) ∧ Reads value m.2 e.2

theorem entriesFrom_membersText (put : τ → κ → α → τ) (rest : List Char)
    {ms : List (KeySpelling × ValueSpelling)} {es : List (κ × α)}
    (h : List.Forall₂ (ReadsEntry key value) ms es) :
    ∀ (first : Bool) (table : τ) (w : Blanks) {fuel : Nat}, ms.length < fuel →
      entriesFrom key value put first table fuel
          (w.text ++ (membersText first ms ++ '}' :: rest)) =
        .ok (es.foldl (fun t e => put t e.1 e.2) table, '}' :: rest) := by
  induction h with
  | nil =>
    intro first table w fuel hfuel
    obtain ⟨fuel, rfl⟩ : ∃ n, fuel = n + 1 := ⟨fuel - 1, by omega⟩
    rw [membersText, List.nil_append, entriesFrom, bind_ok (atKey_blanks_close first w rest),
      if_neg Bool.false_ne_true]
    rfl
  | @cons m e ms es he _ ih =>
    intro first table w fuel hfuel
    obtain ⟨k, v⟩ := m
    obtain ⟨fuel, rfl⟩ : ∃ n, fuel = n + 1 := ⟨fuel - 1, by omega⟩
    obtain ⟨hkey, hvalue⟩ := he
    rw [entriesFrom, bind_ok (atKey_membersText first w k v ms rest), if_pos rfl,
      bind_ok (hkey _), bind_ok (punctuation_blanks (by decide) k.after _),
      bind_ok (hvalue _ (endsNumber_membersText ms rest)), List.foldl_cons]
    exact ih false (put table e.1 e.2) v.trail (Nat.lt_of_succ_lt_succ hfuel)

theorem length_lt_of_members (inner : Blanks) (ms : List (KeySpelling × ValueSpelling))
    (rest : List Char) :
    ms.length < (inner.text ++ (membersText true ms ++ '}' :: rest)).length + 1 := by
  have hlength := length_le_length_membersText true ms
  simp only [List.length_append]
  omega

theorem skipsBlanks_map (put : τ → κ → α → τ) (empty : τ) :
    SkipsBlanks (map key value put empty) := skipsBlanks_peek.bind _

/-- **A map is read entry by entry into a table**, if its keys and values are read. -/
theorem reads_map (put : τ → κ → α → τ) (empty : τ) {v : ValueSpelling}
    {ms : List (KeySpelling × ValueSpelling)} {es : List (κ × α)} (hmembers : v.members? = some ms)
    (h : List.Forall₂ (ReadsEntry key value) ms es) :
    Reads (map key value put empty) v (es.foldl (fun t e => put t e.1 e.2) empty) := by
  obtain ⟨inner, hcore⟩ := ValueSpelling.core_of_members? hmembers
  refine Reads.of_core (skipsBlanks_map put empty) fun rest _ => ?_
  have hentries : repeated (entriesFrom key value put true empty)
      (inner.text ++ (membersText true ms ++ '}' :: rest)) =
        .ok (es.foldl (fun t e => put t e.1 e.2) empty, '}' :: rest) :=
    entriesFrom_membersText put rest h true empty inner (length_lt_of_members inner ms rest)
  rw [hcore, text_map_append, map, bind_ok (peek_cons (by decide) _), if_pos rfl,
    bind_ok (discard_ok (next_cons _ _)), bind_ok hentries]
  exact bind_ok (punctuation_cons (by decide) rest)

end Maps

/-! ### Records -/

/-- Entries that take the slots of a record from one state to another: a name is either that of a
field without a value, which reads what is spelled behind the name, or no field has it. -/
inductive Gathers (fields : List (RecordField σ)) :
    σ → List (KeySpelling × ValueSpelling) → σ → Prop where
  | nil (s : σ) : Gathers fields s [] s
  | known {k : KeySpelling} {v : ValueSpelling} {name : String} {field : RecordField σ} {s t u : σ}
      {ms : List (KeySpelling × ValueSpelling)} (hname : k.name? = some name)
      (hfind : fields.find? (·.name = name) = some field) (hgiven : field.given s = false)
      (hread : Reads (field.read s) v t) (hms : Gathers fields t ms u) :
      Gathers fields s ((k, v) :: ms) u
  | unknown {k : KeySpelling} {v : ValueSpelling} {name : String} {s u : σ}
      {ms : List (KeySpelling × ValueSpelling)} (hname : k.name? = some name)
      (hfind : fields.find? (·.name = name) = none) (hms : Gathers fields s ms u) :
      Gathers fields s ((k, v) :: ms) u

/-- Items that take the slots of a record from one state to another, one field after the other. -/
inductive Places : List (RecordField σ) → σ → List ValueSpelling → σ → Prop where
  | nil (fields : List (RecordField σ)) (s : σ) : Places fields s [] s
  | cons {field : RecordField σ} {fields : List (RecordField σ)} {v : ValueSpelling} {s t u : σ}
      {vs : List ValueSpelling} (hskips : SkipsBlanks (field.read s))
      (hread : Reads (field.read s) v t) (hvs : Places fields t vs u) :
      Places (field :: fields) s (v :: vs) u

section Records

variable {fields : List (RecordField σ)}

theorem text_name {k : KeySpelling} {name : String} (h : k.name? = some name) (rest : List Char) :
    text (quoted k.units ++ rest) = .ok (name, rest) := by
  obtain ⟨cs, hcs, rfl⟩ := Option.map_eq_some_iff.mp h
  exact text_quoted hcs rest

theorem membersFrom_membersText (rest : List Char) {s u : σ}
    {ms : List (KeySpelling × ValueSpelling)} (h : Gathers fields s ms u) :
    ∀ (first : Bool) (w : Blanks) {fuel : Nat}, ms.length < fuel →
      membersFrom fields first s fuel (w.text ++ (membersText first ms ++ '}' :: rest)) =
        .ok (u, '}' :: rest) := by
  induction h with
  | nil s =>
    intro first w fuel hfuel
    obtain ⟨fuel, rfl⟩ : ∃ n, fuel = n + 1 := ⟨fuel - 1, by omega⟩
    rw [membersText, List.nil_append, membersFrom, bind_ok (atKey_blanks_close first w rest),
      if_neg Bool.false_ne_true]
    rfl
  | @known k v name field s t u ms hname hfind hgiven hread _ ih =>
    intro first w fuel hfuel
    obtain ⟨fuel, rfl⟩ : ∃ n, fuel = n + 1 := ⟨fuel - 1, by omega⟩
    rw [membersFrom, bind_ok (atKey_membersText first w k v ms rest), if_pos rfl,
      bind_ok (text_name hname _), hfind]
    -- the field has no value yet, so the name is no duplicate
    show (if field.given s then _ else
      (do punctuation ':'; membersFrom fields false (← field.read s) fuel : Reader σ)) _ = _
    rw [hgiven, if_neg Bool.false_ne_true, bind_ok (punctuation_blanks (by decide) k.after _),
      bind_ok (hread _ (endsNumber_membersText ms rest))]
    exact ih false v.trail (Nat.lt_of_succ_lt_succ hfuel)
  | @unknown k v name s u ms hname hfind _ ih =>
    intro first w fuel hfuel
    obtain ⟨fuel, rfl⟩ : ∃ n, fuel = n + 1 := ⟨fuel - 1, by omega⟩
    rw [membersFrom, bind_ok (atKey_membersText first w k v ms rest), if_pos rfl,
      bind_ok (text_name hname _), hfind]
    show (do punctuation ':'; skip; membersFrom fields false s fuel : Reader σ) _ = _
    rw [bind_ok (punctuation_blanks (by decide) k.after _),
      bind_ok (skip_text v (endsNumber_membersText ms rest))]
    exact ih false v.trail (Nat.lt_of_succ_lt_succ hfuel)

theorem positionsFrom_itemsText (rest : List Char) {s u : σ} {vs : List ValueSpelling}
    (h : Places fields s vs u) : ∀ (count : Nat) (w : Blanks), ∃ (n : Nat) (w' : Blanks),
      positionsFrom s count fields (w.text ++ (itemsText (count = 0) vs ++ ']' :: rest)) =
        .ok ((u, n), w'.text ++ ']' :: rest) := by
  induction h with
  | nil fields s =>
    intro count w
    cases fields with
    | nil =>
      -- behind the last field nothing is looked at, so the blanks before the bracket are still there
      exact ⟨count, w, rfl⟩
    | cons field fields =>
      refine ⟨count, .none, ?_⟩
      rw [itemsText, List.nil_append, positionsFrom, bind_ok (atItem_blanks_close _ w rest),
        if_neg Bool.false_ne_true]
      rfl
  | @cons field fields v s t u vs hskips hread _ ih =>
    intro count w
    obtain ⟨n, w', hvs⟩ := ih (count + 1) v.trail
    -- looking for the bracket has taken the blanks before the item
    have hvalue : field.read s ((v.text ++ (itemsText false vs ++ ']' :: rest)).dropWhile isBlank) =
        .ok (t, v.trail.text ++ (itemsText false vs ++ ']' :: rest)) := by
      rw [hskips.dropWhile, hread _ (endsNumber_itemsText vs rest)]
    refine ⟨n, w', ?_⟩
    rw [positionsFrom, bind_ok (atItem_itemsText _ w v vs rest), if_pos rfl, bind_ok hvalue]
    exact hvs

theorem skipsBlanks_record (expected : String) (fields : List (RecordField σ)) (empty : σ)
    (complete : Option Nat → σ → Except Mismatch α) :
    SkipsBlanks (record expected fields empty complete) := skipsBlanks_peek.bind _

/-- **A record is read from entries in any order**, with any others between them. -/
theorem reads_record_map {expected : String} {empty slots : σ}
    {complete : Option Nat → σ → Except Mismatch α} {v : ValueSpelling}
    {ms : List (KeySpelling × ValueSpelling)} {a : α} (hmembers : v.members? = some ms)
    (h : Gathers fields empty ms slots) (hcomplete : complete none slots = .ok a) :
    Reads (record expected fields empty complete) v a := by
  obtain ⟨inner, hcore⟩ := ValueSpelling.core_of_members? hmembers
  refine Reads.of_core (skipsBlanks_record expected fields empty complete) fun rest _ => ?_
  have hslots : repeated (membersFrom fields true empty)
      (inner.text ++ (membersText true ms ++ '}' :: rest)) = .ok (slots, '}' :: rest) :=
    membersFrom_membersText rest h true inner (length_lt_of_members inner ms rest)
  rw [hcore, text_map_append, record, bind_ok (peek_cons (by decide) _)]
  show (discard next >>= _) _ = _
  rw [bind_ok (discard_ok (next_cons _ _)), bind_ok hslots, hcomplete]
  exact bind_ok (punctuation_cons (by decide) rest)

/-- **A record is read from items in the order of its fields**, of which the last ones may be
missing. -/
theorem reads_record_sequence {expected : String} {empty slots : σ}
    {complete : Option Nat → σ → Except Mismatch α} {v : ValueSpelling} {vs : List ValueSpelling}
    {a : α} (hitems : v.items? = some vs) (h : Places fields empty vs slots)
    (hcomplete : ∀ n, complete (some n) slots = .ok a) :
    Reads (record expected fields empty complete) v a := by
  obtain ⟨inner, hcore⟩ := ValueSpelling.core_of_items? hitems
  refine Reads.of_core (skipsBlanks_record expected fields empty complete) fun rest _ => ?_
  obtain ⟨n, w, hpositions⟩ := positionsFrom_itemsText rest h 0 inner
  change positionsFrom empty 0 fields (inner.text ++ (itemsText true vs ++ ']' :: rest)) = _
    at hpositions
  rw [hcore, text_sequence_append, record, bind_ok (peek_cons (by decide) _)]
  show (discard next >>= _) _ = _
  rw [bind_ok (discard_ok (next_cons _ _)), bind_ok hpositions]
  dsimp only
  rw [hcomplete n]
  exact bind_ok (punctuation_blanks (by decide) w rest)

end Records
end LSystem.Json
