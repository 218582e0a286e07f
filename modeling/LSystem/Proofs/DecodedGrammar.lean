/-
# What a grammar is decoded to

An object gives a grammar some of its fields, by their names, and may give other names too. Reading
it goes from entry to entry and keeps a slot for each field; the slots are at all times those of the
entries met so far (`Grammar.slotsOf`), and an entry of another name is skipped with its value. So
the object is decoded to the usual grammar with the given fields in place of the usual ones
(`Grammar.overridden`), and neither the order of the entries nor those of other names matter. A
sequence fills the same slots in the order of the fields, up to where it ends, and is decoded to
what an object with the first fields is decoded to (`Grammar.ofJson_spelled`).

Every key has to be a string of characters, since it is read before it is known whether a field has
that name; a value that is skipped may hold half a pair of surrogates and numbers out of range.

Key definitions: `Rules.spelled?`, `Grammar.fieldNames`, `Grammar.fits`, `Grammar.Gives`,
`Grammar.WellTyped`, `Grammar.overridden`, `Grammar.slotsOf`.
Key theorems: `Rules.reads_json`, `Grammar.reads_field`, `Grammar.gathers_of_wellTyped`,
`Grammar.places_of_wellTyped`, `Grammar.overridden_perm`, `Grammar.ofJson_spelled`.
-/
import LSystem.Grammar.Json
import LSystem.Proofs.ReadSpellings
import LSystem.Proofs.RuleTables

namespace LSystem

open Json

/-! ### Spelled rules -/

/-- The single character of a key. -/
def Json.KeySpelling.char? (k : KeySpelling) : Option Char :=
  match decode k.units with
  | some [c] => some c
  | _ => none

namespace Rules

/-- The rules that entries spell, each of them by a single character and a string. -/
def ofMembers? : List (KeySpelling × ValueSpelling) → Option (List (Char × String))
  | [] => some []
  | (k, v) :: ms => do return (← k.char?, ← v.string?) :: (← ofMembers? ms)

/-- The rules that a map spells, in the order of the map and with all duplicates. -/
def spelled? (v : ValueSpelling) : Option (List (Char × String)) := v.members?.bind ofMembers?

theorem keyJson_quoted {k : KeySpelling} {c : Char} (h : k.char? = some c) (rest : List Char) :
    keyJson (quoted k.units ++ rest) = .ok (c, rest) := by
  unfold KeySpelling.char? at h
  split at h
  · next d hd =>
    obtain rfl := Option.some.inj h
    rw [keyJson, bind_ok (text_quoted hd rest), String.toList_ofList]
    rfl
  · cases h

theorem forall₂_readsEntry : ∀ {ms : List (KeySpelling × ValueSpelling)} {es : List (Char × String)},
    ofMembers? ms = some es → List.Forall₂ (ReadsEntry keyJson (string "a string")) ms es
  | [], es, h => by
    obtain rfl : [] = es := Option.some.inj h
    exact .nil
  | (k, v) :: ms, es, h => by
    rw [ofMembers?] at h
    obtain ⟨c, hc, h⟩ := Option.bind_eq_some_iff.mp h
    obtain ⟨body, hbody, h⟩ := Option.bind_eq_some_iff.mp h
    obtain ⟨es', hes, h⟩ := Option.bind_eq_some_iff.mp h
    obtain rfl : (c, body) :: es' = es := Option.some.inj h
    exact .cons ⟨keyJson_quoted hc, reads_string hbody _⟩ (forall₂_readsEntry hes)

/-- **Rules are read as they are spelled**, a later one over an earlier one. -/
theorem reads_json {v : ValueSpelling} {es : List (Char × String)} (h : spelled? v = some es) :
    Reads json v (ofList es) := by
  obtain ⟨ms, hms, hes⟩ := Option.bind_eq_some_iff.mp h
  exact reads_map insert empty hms (forall₂_readsEntry hes)

end Rules

namespace Grammar

/-! ### Given fields -/

/-- The names of the fields, in their order. -/
def fieldNames : List String :=
  ["axiom", "rules", "initialHeading", "stepLength", "turnAngle", "depthScale", "evaluationDepth"]

/-- A value that the field of a name can have. -/
def fits (name : String) (v : ValueSpelling) : Bool :=
  match name with
  | "axiom" => v.string?.isSome
  | "rules" => (Rules.spelled? v).isSome
  | "initialHeading" | "stepLength" | "turnAngle" | "depthScale" => v.real?.isSome
  | "evaluationDepth" => (v.natural? UInt32.size).isSome
  | _ => false

/-- The entries of an object whose keys are the names of fields. -/
def fieldMembers (ms : List (KeySpelling × ValueSpelling)) : List (String × ValueSpelling) :=
  ms.filterMap fun m => m.1.name?.bind fun name =>
    if name ∈ fieldNames then some (name, m.2) else none

/-- An object whose keys are all strings of characters, and which gives these fields; whatever it
gives under other names is left out. -/
def Gives (v : ValueSpelling) (es : List (String × ValueSpelling)) : Prop :=
  ∃ ms, v.members? = some ms ∧ (∀ m ∈ ms, m.1.name?.isSome = true) ∧ fieldMembers ms = es

/-- Fields that are given once each, with values that they can have. -/
structure WellTyped (es : List (String × ValueSpelling)) : Prop where
  once : es.Pairwise (·.1 ≠ ·.1)
  fits : ∀ e ∈ es, fits e.1 e.2 = true

/-- The value given to the field of a name. -/
def value? (es : List (String × ValueSpelling)) (name : String) : Option ValueSpelling :=
  (es.find? (·.1 = name)).map (·.2)

/-- The usual grammar with the given fields in place of the usual ones. -/
def overridden (es : List (String × ValueSpelling)) : Grammar :=
  let usual : Grammar := {}
  let real? (name : String) : Option Float := (value? es name).bind (·.real?)
  { start := ((value? es "axiom").bind (·.string?)).getD usual.start
    rules := (((value? es "rules").bind Rules.spelled?).map Rules.ofList).getD usual.rules
    initialHeading := ((real? "initialHeading").map Angle.mk).getD usual.initialHeading
    stepLength := (real? "stepLength").getD usual.stepLength
    turnAngle := ((real? "turnAngle").map Angle.mk).getD usual.turnAngle
    depthScale := (real? "depthScale").getD usual.depthScale
    evaluationDepth :=
      (((value? es "evaluationDepth").bind (·.natural? UInt32.size)).map Nat.toUInt32).getD
        usual.evaluationDepth }

theorem value?_concat (es : List (String × ValueSpelling)) (name other : String)
    (v : ValueSpelling) :
    value? (es ++ [(name, v)]) other =
      (value? es other).or (if name = other then some v else none) := by
  unfold value?
  rw [List.find?_append]
  cases es.find? (·.1 = other) with
  | some e => rfl
  | none => by_cases h : name = other <;> simp [h]

theorem value?_eq_none {es : List (String × ValueSpelling)} {name : String}
    (h : ∀ e ∈ es, e.1 ≠ name) : value? es name = none := by
  rw [value?, List.find?_eq_none.mpr (by simpa using h)]
  rfl

/-- **The order of the fields does not matter.** -/
theorem overridden_perm {es es' : List (String × ValueSpelling)} (h : es.Perm es')
    (hes : WellTyped es) : overridden es = overridden es' := by
  have hvalue (name : String) : value? es name = value? es' name := by
    rw [value?, find?_eq_of_perm h hes.once]
    rfl
  simp only [overridden, hvalue]

theorem WellTyped.perm {es es' : List (String × ValueSpelling)} (hes : WellTyped es)
    (h : es.Perm es') : WellTyped es' where
  once := (h.pairwise_iff fun hab => Ne.symm hab).mp hes.once
  fits := fun e he => hes.fits e (h.mem_iff.mpr he)

/-! ### Filling the slots -/

/-- The slots of the fields given so far. -/
def slotsOf (es : List (String × ValueSpelling)) : Slots :=
  let real? (name : String) : Option Float := (value? es name).bind (·.real?)
  { start := (value? es "axiom").bind (·.string?)
    rules := ((value? es "rules").bind Rules.spelled?).map Rules.ofList
    initialHeading := (real? "initialHeading").map Angle.mk
    stepLength := real? "stepLength"
    turnAngle := (real? "turnAngle").map Angle.mk
    depthScale := real? "depthScale"
    evaluationDepth :=
      ((value? es "evaluationDepth").bind (·.natural? UInt32.size)).map Nat.toUInt32 }

theorem toGrammar_slotsOf (es : List (String × ValueSpelling)) :
    (slotsOf es).toGrammar = overridden es := rfl

section Fields

variable {field : RecordField Slots} {es : List (String × ValueSpelling)} {v : ValueSpelling}

theorem skipsBlanks_read (hfield : field ∈ fields) (s : Slots) : SkipsBlanks (field.read s) := by
  simp only [fields, List.mem_cons, List.not_mem_nil, or_false] at hfield
  rcases hfield with rfl | rfl | rfl | rfl | rfl | rfl | rfl
  · exact (skipsBlanks_string _).bind _
  · exact (skipsBlanks_map _ _).bind _
  · exact (skipsBlanks_float.map _).bind _
  · exact skipsBlanks_float.bind _
  · exact (skipsBlanks_float.map _).bind _
  · exact skipsBlanks_float.bind _
  · exact (skipsBlanks_natural _ _).bind _

theorem given_slotsOf (hfield : field ∈ fields) (h : value? es field.name = none) :
    field.given (slotsOf es) = false := by
  simp only [fields, List.mem_cons, List.not_mem_nil, or_false] at hfield
  rcases hfield with rfl | rfl | rfl | rfl | rfl | rfl | rfl <;> simp only at h <;>
    simp [slotsOf, h]

theorem reads_slots {α : Type} {r : Reader α} {name : String} {x : α} {put : α → Slots}
    (hread : Reads r v x) (hslots : slotsOf (es ++ [(name, v)]) = put x) :
    Reads (do return put (← r)) v (slotsOf (es ++ [(name, v)])) := by
  rw [hslots]
  exact hread.bind_pure put

/-- **A field reads its value into its slot**, and no other slot changes. -/
theorem reads_field (hfield : field ∈ fields) (hfits : fits field.name v = true)
    (hnew : value? es field.name = none) :
    Reads (field.read (slotsOf es)) v (slotsOf (es ++ [(field.name, v)])) := by
  simp only [fields, List.mem_cons, List.not_mem_nil, or_false] at hfield
  rcases hfield with rfl | rfl | rfl | rfl | rfl | rfl | rfl <;> simp only at hnew ⊢ <;>
    obtain ⟨x, hx⟩ := Option.isSome_iff_exists.mp hfits
  · exact reads_slots (reads_string hx _) (by simp [slotsOf, value?_concat, hnew, hx])
  · exact reads_slots (Rules.reads_json hx) (by simp [slotsOf, value?_concat, hnew, hx])
  · exact reads_slots ((reads_float hx).map Angle.mk) (by simp [slotsOf, value?_concat, hnew, hx])
  · exact reads_slots (reads_float hx) (by simp [slotsOf, value?_concat, hnew, hx])
  · exact reads_slots ((reads_float hx).map Angle.mk) (by simp [slotsOf, value?_concat, hnew, hx])
  · exact reads_slots (reads_float hx) (by simp [slotsOf, value?_concat, hnew, hx])
  · exact reads_slots (reads_natural hx _) (by simp [slotsOf, value?_concat, hnew, hx])

theorem find?_fields {name : String} (h : name ∈ fieldNames) :
    ∃ field ∈ fields, field.name = name ∧ fields.find? (·.name = name) = some field := by
  have hnames : fields.map (·.name) = fieldNames := rfl
  cases hfind : fields.find? (·.name = name) with
  | some field =>
    exact ⟨field, List.mem_of_find?_eq_some hfind, by simpa using List.find?_some hfind, rfl⟩
  | none =>
    rw [← hnames] at h
    obtain ⟨field, hfield, hname⟩ := List.mem_map.mp h
    exact absurd hname (by simpa using List.find?_eq_none.mp hfind field hfield)

theorem find?_fields_eq_none {name : String} (h : name ∉ fieldNames) :
    fields.find? (·.name = name) = none := by
  have hnames : fields.map (·.name) = fieldNames := rfl
  rw [← hnames] at h
  rw [List.find?_eq_none]
  intro field hfield hname
  exact h (List.mem_map.mpr ⟨field, hfield, by simpa using hname⟩)

theorem WellTyped.value?_eq_none {name : String} {rest : List (String × ValueSpelling)}
    (h : WellTyped (es ++ (name, v) :: rest)) : value? es name = none :=
  Grammar.value?_eq_none fun e he =>
    (List.pairwise_append.mp h.once).2.2 e he (name, v) List.mem_cons_self

/-- **The entries of an object fill the slots of their names**, whatever stands between them. -/
theorem gathers_of_wellTyped : ∀ {ms : List (KeySpelling × ValueSpelling)}
    {es : List (String × ValueSpelling)}, (∀ m ∈ ms, m.1.name?.isSome = true) →
      WellTyped (es ++ fieldMembers ms) →
        Gathers fields (slotsOf es) ms (slotsOf (es ++ fieldMembers ms))
  | [], es, _, _ => by
    have hmembers : fieldMembers [] = [] := rfl
    rw [hmembers, List.append_nil]
    exact .nil _
  | (k, v) :: ms, es, hnames, hes => by
    obtain ⟨name, hname⟩ := Option.isSome_iff_exists.mp (hnames (k, v) List.mem_cons_self)
    have hrest : ∀ m ∈ ms, m.1.name?.isSome = true := fun m hm =>
      hnames m (List.mem_cons_of_mem _ hm)
    by_cases hknown : name ∈ fieldNames
    · have hmembers : fieldMembers ((k, v) :: ms) = (name, v) :: fieldMembers ms := by
        simp [fieldMembers, hname, hknown]
      rw [hmembers] at hes ⊢
      -- the names are given once each, so the field of this one is still empty
      have hnew := hes.value?_eq_none
      have hfits := hes.fits (name, v) (List.mem_append_right _ List.mem_cons_self)
      obtain ⟨field, hfield, rfl, hfind⟩ := find?_fields hknown
      rw [List.append_cons] at hes ⊢
      exact .known hname hfind (given_slotsOf hfield hnew) (reads_field hfield hfits hnew)
        (gathers_of_wellTyped hrest hes)
    · have hmembers : fieldMembers ((k, v) :: ms) = fieldMembers ms := by
        simp [fieldMembers, hname, hknown]
      rw [hmembers] at hes ⊢
      exact .unknown hname (find?_fields_eq_none hknown) (gathers_of_wellTyped hrest hes)

/-- **The items of a sequence fill the slots in their order.** -/
theorem places_of_wellTyped : ∀ {fs : List (RecordField Slots)} {vs : List ValueSpelling}
    {es : List (String × ValueSpelling)}, (∀ field ∈ fs, field ∈ fields) → vs.length ≤ fs.length →
      WellTyped (es ++ (fs.map (·.name)).zip vs) →
        Places fs (slotsOf es) vs (slotsOf (es ++ (fs.map (·.name)).zip vs))
  | fs, [], es, _, _, _ => by
    rw [List.zip_nil_right, List.append_nil]
    exact .nil fs _
  | field :: fs, v :: vs, es, hfields, hlength, hes => by
    have hfield : field ∈ fields := hfields field List.mem_cons_self
    rw [List.map_cons, List.zip_cons_cons] at hes ⊢
    have hnew := hes.value?_eq_none
    have hfits := hes.fits (field.name, v) (List.mem_append_right _ List.mem_cons_self)
    rw [List.append_cons] at hes ⊢
    exact .cons (skipsBlanks_read hfield _) (reads_field hfield hfits hnew)
      (places_of_wellTyped (fun f hf => hfields f (List.mem_cons_of_mem _ hf))
        (Nat.le_of_succ_le_succ hlength) hes)

end Fields

/-! ### Decoded grammars -/

theorem ofJson_of_gives {v : ValueSpelling} {es : List (String × ValueSpelling)} (h : Gives v es)
    (hes : WellTyped es) : ofJson v.toText = .ok (overridden es) := by
  obtain ⟨ms, hms, hnames, rfl⟩ := h
  have hgathers : Gathers fields (slotsOf []) ms (slotsOf (fieldMembers ms)) :=
    gathers_of_wellTyped hnames hes
  have hreads : Reads json v (overridden (fieldMembers ms)) :=
    reads_record_map hms hgathers (congrArg Except.ok (toGrammar_slotsOf _))
  exact hreads.read_toText

theorem pairwise_zip {names : List String} (h : names.Pairwise (· ≠ ·)) :
    ∀ vs : List ValueSpelling, (names.zip vs).Pairwise (·.1 ≠ ·.1) := by
  induction h with
  | nil => exact fun vs => .nil
  | @cons name names hname _ ih =>
    intro vs
    cases vs with
    | nil => exact .nil
    | cons v vs => exact .cons (fun e he => hname e.1 (List.of_mem_zip he).1) (ih vs)

theorem ofJson_of_items {v : ValueSpelling} {vs : List ValueSpelling} (h : v.items? = some vs)
    (hlength : vs.length ≤ 7) (hfits : ∀ e ∈ fieldNames.zip vs, fits e.1 e.2 = true) :
    ofJson v.toText = .ok (overridden (fieldNames.zip vs)) := by
  have hes : WellTyped (fieldNames.zip vs) := ⟨pairwise_zip (by decide) vs, hfits⟩
  have hplaces : Places fields (slotsOf []) vs (slotsOf (fieldNames.zip vs)) :=
    places_of_wellTyped (fun _ hfield => hfield) hlength hes
  have hreads : Reads json v (overridden (fieldNames.zip vs)) :=
    reads_record_sequence h hplaces fun _ => congrArg Except.ok (toGrammar_slotsOf _)
  exact hreads.read_toText

/-- **What a grammar is decoded to.** An object that gives fields once each, in any order and with any
other entries between them, is decoded to the usual grammar with the given fields in place of the
usual ones, and of rules for one character the last one counts. So objects that give the same fields
are decoded to the same grammar. A sequence of up to seven values is decoded to it as well, if they
are the values of the first fields in their order.

Every key of the object has to decode to characters, also one that names no field (`Gives`): a key is
read before it is compared with the names, so half a pair of surrogates in it is an error. -/
theorem ofJson_spelled (v : ValueSpelling) :
    (∀ es, Gives v es → WellTyped es →
      ofJson v.toText = .ok (overridden es) ∧
      (∀ w rules, ("rules", w) ∈ es → Rules.spelled? w = some rules →
        ∀ c, (overridden es).body? c = Rules.lastBody? rules c) ∧
      ∀ v' es', Gives v' es' → es.Perm es' → ofJson v'.toText = ofJson v.toText) ∧
    ∀ vs, v.items? = some vs → vs.length ≤ 7 →
      (∀ e ∈ fieldNames.zip vs, fits e.1 e.2 = true) →
        ofJson v.toText = .ok (overridden (fieldNames.zip vs)) ∧
        ∀ v', Gives v' (fieldNames.zip vs) → ofJson v'.toText = ofJson v.toText := by
  refine ⟨fun es h hes => ⟨ofJson_of_gives h hes, fun w rules hw hrules c => ?_,
    fun v' es' h' hperm => ?_⟩, fun vs hvs hlength hfits =>
      ⟨ofJson_of_items hvs hlength hfits, fun v' h' => ?_⟩⟩
  · have hvalue : value? es "rules" = some w := by
      rw [value?, find?_of_mem hes.once hw]
      rfl
    have htable : (overridden es).rules = Rules.ofList rules := by
      simp [overridden, hvalue, hrules]
    rw [body?, htable, Rules.body?_ofList]
  · rw [ofJson_of_gives h' (hes.perm hperm), ofJson_of_gives h hes, overridden_perm hperm hes]
  · have hes : WellTyped (fieldNames.zip vs) := ⟨pairwise_zip (by decide) vs, hfits⟩
    rw [ofJson_of_gives h' hes, ofJson_of_items hvs hlength hfits]

/-- An object with fields between unknown entries, which share a name and hold a number out of range
and half a pair of surrogates, and with two rules for one character; the same fields in another order;
and a sequence with the same rules behind its start. -/
theorem ofJson_spelled_interleaved :
    let key (cs : List Char) (h) : KeySpelling := ⟨.none, asIs cs h, .none⟩
    let blank : Blanks := ⟨[' '], List.all_eq_true.mp rfl⟩
    let nines : ExponentSpelling := ⟨'e', none, ['9', '9', '9'], .inl rfl, nofun, by decide,
      List.all_eq_true.mp rfl⟩
    let minusOne : ExponentSpelling := ⟨'e', some '-', ['1'], .inl rfl, by simp, by decide,
      List.all_eq_true.mp rfl⟩
    let huge : Spelling := ⟨false, ['1'], none, some nines, ⟨by decide, List.all_eq_true.mp rfl⟩,
      nofun, nofun⟩
    let half : Spelling := ⟨true, ['5'], none, some minusOne, ⟨by decide, List.all_eq_true.mp rfl⟩,
      nofun, nofun⟩
    let surrogate : TextUnit := .numbered ⟨'d', '8', '0', '0', List.all_eq_true.mp rfl⟩
    let unknown : KeySpelling × ValueSpelling := (key ['x'] (List.all_eq_true.mp rfl), .spaced blank
      (.sequence .none [.number huge, .map blank [(key [] nofun, .string [surrogate])]]) blank)
    let rules : ValueSpelling := .map .none
      [(key ['F'] (List.all_eq_true.mp rfl),
        .string (asIs "F+F".toList (List.all_eq_true.mp rfl))),
       (⟨blank, [.numbered ⟨'0', '0', '4', '6', List.all_eq_true.mp rfl⟩], blank⟩,
        .string (asIs "F-F".toList (List.all_eq_true.mp rfl)))]
    let start : ValueSpelling := .string (asIs ['X'] (List.all_eq_true.mp rfl))
    let angleMember := (key "turnAngle".toList (List.all_eq_true.mp rfl), ValueSpelling.number half)
    let rulesMember := (key "rules".toList (List.all_eq_true.mp rfl), rules)
    let startMember := (key "axiom".toList (List.all_eq_true.mp rfl), start)
    let v : ValueSpelling := .map .none [unknown, angleMember, unknown, rulesMember]
    let v' : ValueSpelling := .map .none [rulesMember, angleMember]
    let w : ValueSpelling := .sequence blank [start, rules]
    let w' : ValueSpelling := .map .none [startMember, rulesMember]
    v.toText = "\x7b\"x\": [1e999,\x7b \"\":\"\\ud800\"\x7d] ,\"turnAngle\":-5e-1," ++
      "\"x\": [1e999,\x7b \"\":\"\\ud800\"\x7d] ," ++
      "\"rules\":\x7b\"F\":\"F+F\", \"\\u0046\" :\"F-F\"\x7d\x7d" ∧
    ofJson v.toText = .ok { turnAngle := ⟨-0.5⟩, rules := .ofList [('F', "F-F")] } ∧
    ofJson v'.toText = ofJson v.toText ∧
    w.toText = "[ \"X\",\x7b\"F\":\"F+F\", \"\\u0046\" :\"F-F\"\x7d]" ∧
    ofJson w.toText = .ok { start := "X", rules := .ofList [('F', "F-F")] } ∧
    ofJson w'.toText = ofJson w.toText := by
  intro key blank nines minusOne huge half surrogate unknown rules start angleMember rulesMember
    startMember v v' w w'
  have hgives : Gives v [("turnAngle", .number half), ("rules", rules)] :=
    ⟨_, rfl, by decide, rfl⟩
  have hgives' : Gives v' [("rules", rules), ("turnAngle", .number half)] :=
    ⟨_, rfl, by decide, rfl⟩
  have htyped : WellTyped [("turnAngle", .number half), ("rules", rules)] :=
    ⟨by simp, by decide +kernel⟩
  have hstart : Gives w' [("axiom", start), ("rules", rules)] := ⟨_, rfl, by decide, rfl⟩
  obtain ⟨hobject, -, horder⟩ := (ofJson_spelled v).1 _ hgives htyped
  obtain ⟨hsequence, hfirst⟩ := (ofJson_spelled w).2 _ rfl (by decide) (by decide +kernel)
  refine ⟨by decide +kernel, hobject.trans ?_, horder _ _ hgives' (.swap _ _ _), by decide +kernel,
    hsequence.trans ?_, hfirst _ hstart⟩
  · exact congrArg Except.ok (by decide +kernel)
  · exact congrArg Except.ok (by decide +kernel)

end Grammar
end LSystem
