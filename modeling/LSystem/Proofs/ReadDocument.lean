/-
# Documents are read back

A reader restores values from the documents they are written as, if it reads each of these texts to
its value, whatever ends the text, as long as all doubles in it are finite; and if one is not, it
reports the null in its place (`Json.Restores`). The first double of a text that is not finite ends
the reading, and the error is the same one wherever that happens. So the outcome of a chain of readers
depends on all their doubles together (`Json.bind_ifFinite`), and restoring carries over from the parts
of a document to the whole: to sequences, values that may be missing, maps that fill a table, and
records whose entries fill their slots (`Json.Fills`).

Key definitions: `Json.ifFinite`, `Json.ReadsBack`, `Json.Restores`, `Json.Fills`.
Key theorems: `Json.bind_ifFinite`, `Json.Restores.sequence`, `Json.Restores.nullable`,
`Json.readsBack_map`, `Json.readsBack_record`, `Json.ReadsBack.read_toText`.
-/
import LSystem.Json.Record
import LSystem.Json.Variant
import LSystem.Proofs.ReadText
import LSystem.Proofs.WrittenNumber

namespace LSystem.Json

variable {α β σ : Type}

/-! ### Outcomes that depend on doubles -/

/-- What is reported where a double that is not finite was written. -/
def nonFinite : ReadError := .mismatch (.wrongType .null "f64")

/-- A result that is there if all doubles are finite. -/
def ifFinite (doubles : List Float) (result : α) : Except ReadError α :=
  if doubles.all Float.isFinite then .ok result else .error nonFinite

@[simp] theorem ifFinite_nil (result : α) : ifFinite [] result = .ok result := rfl

/-- **A chain has its result if the doubles of both parts are finite.** -/
theorem bind_ifFinite {r : Reader α} {f : α → Reader β} {cs rest : List Char} {a : α}
    {xs ys : List Float} {result : β × List Char} (h : r cs = ifFinite xs (a, rest))
    (hf : f a rest = ifFinite ys result) : (r >>= f) cs = ifFinite (xs ++ ys) result := by
  unfold ifFinite at h ⊢
  rw [List.all_append]
  by_cases hxs : xs.all Float.isFinite = true
  · rw [if_pos hxs] at h
    rw [bind_ok h, hf, ifFinite, hxs, Bool.true_and]
  · -- the first part fails already, with the error that any part fails with
    rw [if_neg hxs] at h
    rw [bind_error h, Bool.eq_false_iff.mpr hxs, Bool.false_and, if_neg Bool.false_ne_true]

theorem bind_ifFinite_ok {r : Reader α} {f : α → Reader β} {cs rest : List Char} {a : α}
    {xs : List Float} {result : β × List Char} (h : r cs = ifFinite xs (a, rest))
    (hf : f a rest = .ok result) : (r >>= f) cs = ifFinite xs result := by
  have hchain := bind_ifFinite h (hf.trans (ifFinite_nil result).symm)
  rwa [List.append_nil] at hchain

theorem map_ifFinite {r : Reader α} (f : α → β) {cs rest : List Char} {a : α} {xs : List Float}
    (h : r cs = ifFinite xs (a, rest)) : (f <$> r) cs = ifFinite xs (f a, rest) := by
  unfold ifFinite at h ⊢
  by_cases hxs : xs.all Float.isFinite = true
  · rw [if_pos hxs] at h ⊢
    exact map_ok h
  · rw [if_neg hxs] at h ⊢
    exact map_error h

/-! ### How documents start -/

/-- A character that a value starts with. -/
def opensValue (c : Char) : Bool := c = 'n' || c = '"' || c = '[' || c = '{' || startsNumber c

theorem opensValue_spec {c : Char} (h : opensValue c = true) : isBlank c = false ∧ c ≠ ']' := by
  constructor
  · rw [Bool.eq_false_iff]
    intro hblank
    have hcases : c = ' ' ∨ c = '\n' ∨ c = '\t' ∨ c = '\r' := by
      simpa [isBlank, or_assoc] using hblank
    rcases hcases with rfl | rfl | rfl | rfl <;> exact absurd h (by decide)
  · rintro rfl
    exact absurd h (by decide)

theorem exists_head_digits (n : Nat) :
    ∃ c cs, Decimal.digits n = c :: cs ∧ opensValue c = true := by
  obtain ⟨c, cs, hcs⟩ := List.exists_cons_of_ne_nil (Decimal.digits_ne_nil n)
  have hc : c.isDigit = true := (isRun_digits n).2 c (by simp [hcs])
  exact ⟨c, cs, hcs, by simp [opensValue, startsNumber, hc]⟩

theorem exists_head_writeReal (x : Float) :
    ∃ c cs, Document.writeReal x = c :: cs ∧ opensValue c = true := by
  by_cases hx : x.isFinite = true
  · obtain ⟨s, htext, -⟩ := exists_spelling_of_isFinite hx
    obtain ⟨c, cs, hhead, hstarts, -⟩ := s.exists_head
    exact ⟨c, cs, by rw [← htext, hhead], by simp [opensValue, hstarts]⟩
  · have hm : ¬ Binary64.magnitude x < Binary64.infinity :=
      fun h => hx ((Binary64.isFinite_iff x).mpr h)
    exact ⟨'n', "ull".toList, by rw [Document.writeReal, if_neg hm]; rfl, rfl⟩

theorem Document.exists_head : ∀ d : Document, ∃ c cs, d.write = c :: cs ∧ opensValue c = true
  | null => ⟨'n', "ull".toList, rfl, rfl⟩
  | natural n => exists_head_digits n
  | real x => exists_head_writeReal x
  | text _ => ⟨'"', _, rfl, rfl⟩
  | sequence items => ⟨'[', writeItems items ++ [']'], by rw [write]; rfl, rfl⟩
  | map entries => ⟨'{', writeEntries entries ++ ['}'], by rw [write]; rfl, rfl⟩

/-! ### Restoring values -/

/-- The reader restores a value from its document, or reports a double of it that is not finite. -/
def ReadsBack (read : Reader α) (d : Document) (xs : List Float) (a : α) : Prop :=
  ∀ rest, EndsNumber rest → read (d.write ++ rest) = ifFinite xs (a, rest)

/-- The reader restores all values of a type from the documents they are written as. -/
def Restores (write : α → Document) (read : Reader α) (doubles : α → List Float) : Prop :=
  ∀ a, ReadsBack read (write a) (doubles a) a

theorem ReadsBack.map {read : Reader α} {d : Document} {xs : List Float} {a : α}
    (h : ReadsBack read d xs a) (f : α → β) : ReadsBack (f <$> read) d xs (f a) :=
  fun rest hrest => map_ifFinite f (h rest hrest)

theorem ReadsBack.bind_pure {read : Reader α} {d : Document} {xs : List Float} {a : α}
    (h : ReadsBack read d xs a) (f : α → β) :
    ReadsBack (do let a ← read; return f a) d xs (f a) :=
  fun rest hrest => bind_ifFinite_ok (h rest hrest) rfl

/-- A text that is nothing but a document is read to its value. -/
theorem ReadsBack.read_toText {read : Reader α} {d : Document} {xs : List Float} {a : α}
    (h : ReadsBack read d xs a) : read.read d.toText = ifFinite xs a := by
  have hall : read d.write = ifFinite xs (a, []) := by
    have hall := h [] endsNumber_nil
    rwa [List.append_nil] at hall
  have hchain : (do let a ← read; finish; return a : Reader α) d.write = ifFinite xs (a, []) :=
    bind_ifFinite_ok hall rfl
  rw [Reader.read, Document.toText, String.toList_ofList]
  show Prod.fst <$> (do let a ← read; finish; return a : Reader α) d.write = _
  rw [hchain]
  unfold ifFinite
  split
  · rfl
  · rfl

theorem readsBack_float (x : Float) : ReadsBack float (.real x) [x] x := by
  intro rest hrest
  rw [Document.write, float_writeReal x hrest, ifFinite, List.all_cons, List.all_nil, Bool.and_true]
  rfl

theorem readsBack_natural {n bound : Nat} (kind : String) (hn : n < bound)
    (hbound : bound ≤ UInt64.size) : ReadsBack (natural bound kind) (.natural n) [] n := by
  intro rest hrest
  rw [Document.write, natural_digits kind hn hbound hrest]
  rfl

theorem readsBack_string (expected s : String) : ReadsBack (string expected) (.text s) [] s := by
  intro rest hrest
  rw [Document.write, string, bind_ok (peek_writeText s rest), if_pos rfl, text_writeText]
  rfl

/-- A value that may be missing, if its document is never a null. -/
theorem Restores.nullable {write : α → Document} {read : Reader α} {doubles : α → List Float}
    (h : Restores write read doubles) (hhead : ∀ a, (write a).write.head? ≠ some 'n') :
    Restores (Document.ofOption write) (Json.nullable read) (fun o => o.elim [] doubles) := by
  intro o rest hrest
  cases o with
  | none =>
    have hpeek : peek ("null".toList ++ rest) = .ok ('n', "null".toList ++ rest) :=
      peek_cons (by decide) _
    rw [Document.ofOption, Document.write, Json.nullable, bind_ok hpeek, if_pos rfl]
    exact bind_ok (word_append _ _)
  | some a =>
    obtain ⟨c, cs, hcs, hopens⟩ := (write a).exists_head
    have hc : c ≠ 'n' := by
      rintro rfl
      exact hhead a (by rw [hcs]; rfl)
    have hpeek : peek ((write a).write ++ rest) = .ok (c, (write a).write ++ rest) := by
      rw [hcs]
      exact peek_cons (opensValue_spec hopens).1 _
    rw [Document.ofOption, Json.nullable, bind_ok hpeek, if_neg hc]
    exact map_ifFinite some (h a rest hrest)

/-! ### Sequences -/

/-- Items behind the first one, each behind its comma. -/
def itemTail (ds : List Document) : List Char := ds.flatMap fun d => ',' :: d.write

theorem writeItems_cons (d : Document) (ds : List Document) :
    Document.writeItems (d :: ds) = d.write ++ itemTail ds := by
  induction ds generalizing d with
  | nil => rw [Document.writeItems]; exact (List.append_nil _).symm
  | cons e ds ih => rw [Document.writeItems, ih]; rfl

theorem endsNumber_itemTail (ds : List Document) (rest : List Char) :
    EndsNumber (itemTail ds ++ ']' :: rest) := by
  cases ds with
  | nil => exact endsNumber_cons (by decide) _
  | cons d ds => exact endsNumber_cons (by decide) _

theorem length_le_length_itemTail : ∀ ds : List Document, ds.length ≤ (itemTail ds).length
  | [] => Nat.le_refl 0
  | d :: ds => by
    have hds := length_le_length_itemTail ds
    have hcons : itemTail (d :: ds) = ',' :: d.write ++ itemTail ds := rfl
    rw [hcons, List.length_append, List.length_cons, List.length_cons]
    omega

theorem atItem_first (d : Document) (rest : List Char) :
    atItem true (d.write ++ rest) = .ok (true, d.write ++ rest) := by
  obtain ⟨c, cs, hcs, hopens⟩ := d.exists_head
  obtain ⟨hblank, hclose⟩ := opensValue_spec hopens
  rw [hcs, List.cons_append, atItem, bind_ok (peek_cons hblank _)]
  split
  · exact absurd rfl hclose
  · rfl
  · rfl

theorem atItem_next (d : Document) (rest : List Char) :
    atItem false (',' :: (d.write ++ rest)) = .ok (true, d.write ++ rest) := by
  obtain ⟨c, cs, hcs, hopens⟩ := d.exists_head
  obtain ⟨hblank, hclose⟩ := opensValue_spec hopens
  rw [hcs, List.cons_append, atItem, bind_ok (peek_cons (by decide) _)]
  show (discard next >>= _) _ = _
  rw [bind_ok (discard_ok (next_cons _ _)), bind_ok (peek_cons hblank _), if_neg hclose]
  rfl

section Sequences

variable {write : α → Document} {read : Reader α} {doubles : α → List Float}

theorem itemsFrom_itemTail (h : Restores write read doubles) (rest : List Char) :
    ∀ (as : List α) (found : Array α) (fuel : Nat), as.length < fuel →
      itemsFrom read false found fuel (itemTail (as.map write) ++ ']' :: rest) =
        ifFinite (as.flatMap doubles) (found ++ as.toArray, ']' :: rest)
  | [], found, fuel + 1, _ => by
    have hfound : found ++ ([] : List α).toArray = found := by simp
    show itemsFrom read false found (fuel + 1) (']' :: rest) = _
    rw [itemsFrom, bind_ok (atItem_close false rest), if_neg Bool.false_ne_true, hfound]
    rfl
  | a :: as, found, fuel + 1, hfuel => by
    have has : as.length < fuel := Nat.lt_of_succ_lt_succ hfuel
    have htext : itemTail ((a :: as).map write) ++ ']' :: rest =
        ',' :: ((write a).write ++ (itemTail (as.map write) ++ ']' :: rest)) := by
      show (',' :: (write a).write ++ itemTail (as.map write)) ++ ']' :: rest = _
      rw [List.append_assoc]
      rfl
    have hfound : found ++ (a :: as).toArray = found.push a ++ as.toArray := by simp
    rw [htext, itemsFrom, bind_ok (atItem_next _ _), if_pos rfl, List.flatMap_cons, hfound]
    exact bind_ifFinite (h a _ (endsNumber_itemTail _ _)) (itemsFrom_itemTail h rest as _ fuel has)

theorem itemsFrom_writeItems (h : Restores write read doubles) (as : List α) (rest : List Char)
    {fuel : Nat} (hfuel : as.length < fuel) :
    itemsFrom read true #[] fuel (Document.writeItems (as.map write) ++ ']' :: rest) =
      ifFinite (as.flatMap doubles) (as.toArray, ']' :: rest) := by
  cases fuel with
  | zero => exact absurd hfuel (Nat.not_lt_zero _)
  | succ fuel =>
    cases as with
    | nil =>
      show itemsFrom read true #[] (fuel + 1) (']' :: rest) = _
      rw [itemsFrom, bind_ok (atItem_close true rest), if_neg Bool.false_ne_true]
      rfl
    | cons a as =>
      have has : as.length < fuel := Nat.lt_of_succ_lt_succ hfuel
      have hfound : (a :: as).toArray = (#[] : Array α).push a ++ as.toArray := by simp
      rw [List.map_cons, writeItems_cons, List.append_assoc, itemsFrom, bind_ok (atItem_first _ _),
        if_pos rfl, List.flatMap_cons, hfound]
      exact bind_ifFinite (h a _ (endsNumber_itemTail _ _)) (itemsFrom_itemTail h rest as _ fuel has)

/-- **Arrays of values are restored if the values are.** -/
theorem Restores.sequence (h : Restores write read doubles) :
    Restores (fun as : Array α => .sequence (as.toList.map write)) (Json.sequence read)
      (fun as => as.toList.flatMap doubles) := by
  intro as rest hrest
  have htext : (Document.sequence (as.toList.map write)).write ++ rest =
      '[' :: (Document.writeItems (as.toList.map write) ++ ']' :: rest) := by
    rw [Document.write, List.append_assoc]
    rfl
  have hfuel : as.toList.length <
      (Document.writeItems (as.toList.map write) ++ ']' :: rest).length + 1 := by
    cases as.toList with
    | nil => exact Nat.succ_pos _
    | cons a as =>
      have htail := length_le_length_itemTail (as.map write)
      rw [List.length_map] at htail
      rw [List.map_cons, writeItems_cons]
      simp only [List.length_append, List.length_cons]
      omega
  have hitems := itemsFrom_writeItems h as.toList rest hfuel
  rw [htext, Json.sequence, bind_ok (peek_cons (by decide) _), if_pos rfl, bind_ok (discard_ok (next_cons _ _))]
  refine bind_ifFinite_ok hitems ?_
  exact bind_ok (punctuation_cons (by decide) rest)

end Sequences

/-! ### Maps -/

/-- An entry of a map. -/
def entryText (e : String × Document) : List Char := writeText e.1 ++ ':' :: e.2.write

/-- Entries behind the first one, each behind its comma. -/
def entryTail (es : List (String × Document)) : List Char := es.flatMap fun e => ',' :: entryText e

theorem writeEntries_cons (e : String × Document) (es : List (String × Document)) :
    Document.writeEntries (e :: es) = entryText e ++ entryTail es := by
  induction es generalizing e with
  | nil => rw [Document.writeEntries]; exact (List.append_nil _).symm
  | cons f es ih =>
    have htail : entryTail (f :: es) = ',' :: (entryText f ++ entryTail es) := rfl
    rw [Document.writeEntries, ih, htail]
    simp [entryText]

theorem endsNumber_entryTail (es : List (String × Document)) (rest : List Char) :
    EndsNumber (entryTail es ++ '}' :: rest) := by
  cases es with
  | nil => exact endsNumber_cons (by decide) _
  | cons e es => exact endsNumber_cons (by decide) _

theorem length_le_length_entryTail :
    ∀ es : List (String × Document), es.length ≤ (entryTail es).length
  | [] => Nat.le_refl 0
  | e :: es => by
    have hes := length_le_length_entryTail es
    have hcons : entryTail (e :: es) = ',' :: entryText e ++ entryTail es := rfl
    rw [hcons, List.length_append, List.length_cons, List.length_cons]
    omega

theorem length_le_length_writeEntries (es : List (String × Document)) :
    es.length ≤ (Document.writeEntries es).length := by
  cases es with
  | nil => exact Nat.zero_le _
  | cons e es =>
    have htail := length_le_length_entryTail es
    have hentry : 1 ≤ (entryText e).length := by
      simp only [entryText, List.length_append, List.length_cons]
      omega
    rw [writeEntries_cons, List.length_append, List.length_cons]
    omega

theorem atKey_first (key : String) (rest : List Char) :
    atKey true (writeText key ++ rest) = .ok (true, writeText key ++ rest) := by
  rw [atKey, bind_ok (peek_writeText key rest)]
  rfl

theorem atKey_next (key : String) (rest : List Char) :
    atKey false (',' :: (writeText key ++ rest)) = .ok (true, writeText key ++ rest) := by
  rw [atKey, bind_ok (peek_cons (by decide) _)]
  show (discard next >>= _) _ = _
  rw [bind_ok (discard_ok (next_cons _ _)), bind_ok (peek_writeText key rest)]
  rfl

section Maps

variable {κ τ : Type} {key : Reader κ} {writeKey : κ → String} {write : α → Document}
  {read : Reader α} {doubles : α → List Float} (put : τ → κ → α → τ)

/-- An entry of a table as it is written. -/
def writtenEntry (writeKey : κ → String) (write : α → Document) (e : κ × α) : String × Document :=
  (writeKey e.1, write e.2)

theorem entriesFrom_entryTail (hkey : ∀ k rest, key (writeText (writeKey k) ++ rest) = .ok (k, rest))
    (h : Restores write read doubles) (rest : List Char) :
    ∀ (es : List (κ × α)) (table : τ) (fuel : Nat), es.length < fuel →
      entriesFrom key read put false table fuel
          (entryTail (es.map (writtenEntry writeKey write)) ++ '}' :: rest) =
        ifFinite (es.flatMap fun e => doubles e.2)
          (es.foldl (fun t e => put t e.1 e.2) table, '}' :: rest)
  | [], table, fuel + 1, _ => by
    show entriesFrom key read put false table (fuel + 1) ('}' :: rest) = _
    rw [entriesFrom, bind_ok (atKey_close false rest), if_neg Bool.false_ne_true]
    rfl
  | (k, a) :: es, table, fuel + 1, hfuel => by
    have hes : es.length < fuel := Nat.lt_of_succ_lt_succ hfuel
    have htext : entryTail (((k, a) :: es).map (writtenEntry writeKey write)) ++ '}' :: rest =
        ',' :: (writeText (writeKey k) ++ (':' :: ((write a).write ++
          (entryTail (es.map (writtenEntry writeKey write)) ++ '}' :: rest)))) := by
      simp [entryTail, entryText, writtenEntry]
    rw [htext, entriesFrom, bind_ok (atKey_next _ _), if_pos rfl, bind_ok (hkey k _),
      bind_ok (punctuation_cons (by decide) _), List.flatMap_cons, List.foldl_cons]
    exact bind_ifFinite (h a _ (endsNumber_entryTail _ _))
      (entriesFrom_entryTail hkey h rest es _ fuel hes)

theorem entriesFrom_writeEntries
    (hkey : ∀ k rest, key (writeText (writeKey k) ++ rest) = .ok (k, rest))
    (h : Restores write read doubles) (es : List (κ × α)) (empty : τ) (rest : List Char) {fuel : Nat}
    (hfuel : es.length < fuel) :
    entriesFrom key read put true empty fuel
        (Document.writeEntries (es.map (writtenEntry writeKey write)) ++ '}' :: rest) =
      ifFinite (es.flatMap fun e => doubles e.2)
        (es.foldl (fun t e => put t e.1 e.2) empty, '}' :: rest) := by
  cases fuel with
  | zero => exact absurd hfuel (Nat.not_lt_zero _)
  | succ fuel =>
    cases es with
    | nil =>
      show entriesFrom key read put true empty (fuel + 1) ('}' :: rest) = _
      rw [entriesFrom, bind_ok (atKey_close true rest), if_neg Bool.false_ne_true]
      rfl
    | cons e es =>
      obtain ⟨k, a⟩ := e
      have hes : es.length < fuel := Nat.lt_of_succ_lt_succ hfuel
      have htext : entryText (writtenEntry writeKey write (k, a)) ++
          entryTail (es.map (writtenEntry writeKey write)) ++ '}' :: rest =
            writeText (writeKey k) ++ (':' :: ((write a).write ++
              (entryTail (es.map (writtenEntry writeKey write)) ++ '}' :: rest))) := by
        simp [entryText, writtenEntry]
      rw [List.map_cons, writeEntries_cons, htext, entriesFrom, bind_ok (atKey_first _ _), if_pos rfl,
        bind_ok (hkey k _), bind_ok (punctuation_cons (by decide) _), List.flatMap_cons,
        List.foldl_cons]
      exact bind_ifFinite (h a _ (endsNumber_entryTail _ _))
        (entriesFrom_entryTail put hkey h rest es _ fuel hes)

theorem write_map_append (es : List (String × Document)) (rest : List Char) :
    (Document.map es).write ++ rest = '{' :: (Document.writeEntries es ++ '}' :: rest) := by
  rw [Document.write, List.append_assoc]
  rfl

/-- **A map is read entry by entry into a table**, if its keys and values are read back. -/
theorem readsBack_map (hkey : ∀ k rest, key (writeText (writeKey k) ++ rest) = .ok (k, rest))
    (h : Restores write read doubles) (es : List (κ × α)) (empty : τ) :
    ReadsBack (map key read put empty) (.map (es.map (writtenEntry writeKey write)))
      (es.flatMap fun e => doubles e.2) (es.foldl (fun t e => put t e.1 e.2) empty) := by
  intro rest hrest
  have hfuel : es.length <
      (Document.writeEntries (es.map (writtenEntry writeKey write)) ++ '}' :: rest).length + 1 := by
    have hlength := length_le_length_writeEntries (es.map (writtenEntry writeKey write))
    rw [List.length_map] at hlength
    rw [List.length_append]
    omega
  have hentries := entriesFrom_writeEntries put hkey h es empty rest hfuel
  rw [write_map_append, map, bind_ok (peek_cons (by decide) _), if_pos rfl, bind_ok (discard_ok (next_cons _ _))]
  refine bind_ifFinite_ok hentries ?_
  exact bind_ok (punctuation_cons (by decide) rest)

end Maps

/-! ### Records -/

/-- Entries that fill the slots of a record one after the other: each name is that of a field without
a value, which reads what is written behind the name. -/
inductive Fills (fields : List (RecordField σ)) :
    σ → List (String × Document) → List Float → σ → Prop where
  | nil (s : σ) : Fills fields s [] [] s
  | cons {name : String} {d : Document} {xs ys : List Float} {field : RecordField σ} {s t u : σ}
      {es : List (String × Document)} (hfind : fields.find? (·.name = name) = some field)
      (hgiven : field.given s = false) (hread : ReadsBack (field.read s) d xs t)
      (hes : Fills fields t es ys u) : Fills fields s ((name, d) :: es) (xs ++ ys) u

section Records

variable {fields : List (RecordField σ)}

theorem membersFrom_entry {first : Bool} {name : String} {d : Document} {xs ys : List Float}
    {field : RecordField σ} {s t : σ} {result : σ × List Char} {cs rest : List Char} {fuel : Nat}
    (hat : atKey first cs = .ok (true, writeText name ++ (':' :: (d.write ++ rest))))
    (hfind : fields.find? (·.name = name) = some field) (hgiven : field.given s = false)
    (hread : ReadsBack (field.read s) d xs t) (hrest : EndsNumber rest)
    (h : membersFrom fields false t fuel rest = ifFinite ys result) :
    membersFrom fields first s (fuel + 1) cs = ifFinite (xs ++ ys) result := by
  rw [membersFrom, bind_ok hat, if_pos rfl, bind_ok (text_writeText name _), hfind]
  -- the field has no value yet, so the name is no duplicate
  show (if field.given s then _ else
    (do punctuation ':'; membersFrom fields false (← field.read s) fuel : Reader σ)) _ = _
  rw [hgiven, if_neg Bool.false_ne_true, bind_ok (punctuation_cons (by decide) _)]
  exact bind_ifFinite (hread rest hrest) h

theorem membersFrom_entryTail (rest : List Char) {s t : σ} {es : List (String × Document)}
    {xs : List Float} (h : Fills fields s es xs t) {fuel : Nat} (hfuel : es.length < fuel) :
    membersFrom fields false s fuel (entryTail es ++ '}' :: rest) =
      ifFinite xs (t, '}' :: rest) := by
  induction h generalizing fuel with
  | nil s =>
    obtain ⟨fuel, rfl⟩ : ∃ k, fuel = k + 1 := ⟨fuel - 1, by omega⟩
    show membersFrom fields false s (fuel + 1) ('}' :: rest) = _
    rw [membersFrom, bind_ok (atKey_close false rest), if_neg Bool.false_ne_true]
    rfl
  | @cons name d xs ys field s t u es hfind hgiven hread hes ih =>
    obtain ⟨fuel, rfl⟩ : ∃ k, fuel = k + 1 := ⟨fuel - 1, by omega⟩
    have htext : entryTail ((name, d) :: es) ++ '}' :: rest =
        ',' :: (writeText name ++ (':' :: (d.write ++ (entryTail es ++ '}' :: rest)))) := by
      simp [entryTail, entryText]
    have hrest := ih (Nat.lt_of_succ_lt_succ hfuel)
    rw [htext]
    exact membersFrom_entry (atKey_next _ _) hfind hgiven hread (endsNumber_entryTail es rest) hrest

theorem membersFrom_writeEntries (rest : List Char) {s t : σ} {es : List (String × Document)}
    {xs : List Float} (h : Fills fields s es xs t) {fuel : Nat} (hfuel : es.length < fuel) :
    membersFrom fields true s fuel (Document.writeEntries es ++ '}' :: rest) =
      ifFinite xs (t, '}' :: rest) := by
  obtain ⟨fuel, rfl⟩ : ∃ k, fuel = k + 1 := ⟨fuel - 1, by omega⟩
  cases h with
  | nil =>
    show membersFrom fields true s (fuel + 1) ('}' :: rest) = _
    rw [membersFrom, bind_ok (atKey_close true rest), if_neg Bool.false_ne_true]
    rfl
  | @cons name d xs ys field _ t u es hfind hgiven hread hes =>
    have htext : entryText (name, d) ++ entryTail es ++ '}' :: rest =
        writeText name ++ (':' :: (d.write ++ (entryTail es ++ '}' :: rest))) := by
      simp [entryText]
    have hrest := membersFrom_entryTail rest hes (Nat.lt_of_succ_lt_succ hfuel)
    rw [writeEntries_cons, htext]
    exact membersFrom_entry (atKey_first _ _) hfind hgiven hread (endsNumber_entryTail es rest) hrest

theorem positionsFrom_item {field : RecordField σ} {fields : List (RecordField σ)} {s t : σ}
    (count : Nat) {d : Document} {xs ys : List Float} {result : (σ × Nat) × List Char}
    {cs rest : List Char} (hat : atItem (count = 0) cs = .ok (true, d.write ++ rest))
    (hread : ReadsBack (field.read s) d xs t) (hrest : EndsNumber rest)
    (h : positionsFrom t (count + 1) fields rest = ifFinite ys result) :
    positionsFrom s count (field :: fields) cs = ifFinite (xs ++ ys) result := by
  rw [positionsFrom, bind_ok hat, if_pos rfl]
  exact bind_ifFinite (hread rest hrest) h

/-- **A record is read from the entries that fill its slots.** -/
theorem readsBack_record {expected : String} {empty slots : σ}
    {complete : Option Nat → σ → Except Mismatch α} {es : List (String × Document)}
    {xs : List Float} {a : α} (h : Fills fields empty es xs slots)
    (hcomplete : complete none slots = .ok a) :
    ReadsBack (record expected fields empty complete) (.map es) xs a := by
  intro rest hrest
  have hfuel : es.length < (Document.writeEntries es ++ '}' :: rest).length + 1 := by
    have hlength := length_le_length_writeEntries es
    rw [List.length_append]
    omega
  have hmembers := membersFrom_writeEntries rest h hfuel
  rw [write_map_append, record, bind_ok (peek_cons (by decide) _)]
  show (discard next >>= _) _ = _
  rw [bind_ok (discard_ok (next_cons _ _))]
  refine bind_ifFinite_ok hmembers ?_
  rw [hcomplete]
  exact bind_ok (punctuation_cons (by decide) rest)

end Records

/-! ### Choices -/

section Choices

/-- The reader of one of two variants finds a variant by its name. -/
def FindsVariant (first second chosen : Variant α) : Prop :=
  ∀ rest, variantName first second (writeText chosen.name ++ rest) = .ok (chosen, rest)

theorem findsVariant_first (first second : Variant α) : FindsVariant first second first := by
  intro rest
  rw [variantName, bind_ok (text_writeText _ _), if_pos rfl]
  rfl

theorem findsVariant_second {first second : Variant α} (h : second.name ≠ first.name) :
    FindsVariant first second second := by
  intro rest
  rw [variantName, bind_ok (text_writeText _ _), if_neg h, if_pos rfl]
  rfl

variable {first second chosen : Variant α} {a : α}

theorem FindsVariant.readsBack_name (h : FindsVariant first second chosen)
    (hbare : chosen.bare = some a) :
    ReadsBack (variant first second) (.text chosen.name) [] a := by
  intro rest hrest
  rw [Document.write, variant, bind_ok (peek_writeText _ _)]
  show (variantName first second >>= _) _ = _
  rw [bind_ok (h rest), hbare]
  rfl

/-- **A variant with a value is read from the map of its name to the value.** -/
theorem FindsVariant.readsBack (h : FindsVariant first second chosen) {d : Document}
    {xs : List Float} (hvalue : ReadsBack chosen.value d xs a) :
    ReadsBack (variant first second) (.map [(chosen.name, d)]) xs a := by
  intro rest hrest
  have htext : Document.writeEntries [(chosen.name, d)] ++ '}' :: rest =
      writeText chosen.name ++ (':' :: (d.write ++ '}' :: rest)) := by
    simp [Document.writeEntries]
  rw [write_map_append, htext, variant, bind_ok (peek_cons (by decide) _)]
  show (discard next >>= _) _ = _
  rw [bind_ok (discard_ok (next_cons _ _)), bind_ok (peek_writeText _ _), if_pos rfl,
    bind_ok (h _), bind_ok (punctuation_cons (by decide) _)]
  refine bind_ifFinite_ok (hvalue _ (endsNumber_cons (by decide) _)) ?_
  exact bind_ok (punctuation_cons (by decide) rest)

end Choices

end LSystem.Json
