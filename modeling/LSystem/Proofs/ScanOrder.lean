/-
# A guarded derivation in scan order

A guarded derivation reads the tokens of the start, then those of the string that the first pass
writes, and so on. In this order each token is a `Visit`, and behind each visit its pass has
written a number of bytes that the plain derivation alone determines. So the passes are one loop
over the visits: it asks the poll before each of them and measures behind each
(`Rules.deriveGuarded_eq_heed`).

Whatever state a poll has, the outcome can be read off the visits. The derivation succeeds if no
visit is beyond the limit and the poll lets all of them pass. Otherwise it stops at the first visit
that the poll refuses or that is beyond the limit, after one call for it and one for each visit
before. The poll comes first, so it also wins where both happen at one visit
(`guarded_scan_order`).

Key definitions: `Visit`, `Rules.visits`, `Rules.sizeBehind`, `heed`, `asked`, `numbered`.
Key theorems: `Rules.deriveGuarded_eq_heed`, `heed_numbered_ok_iff`, `heed_numbered_error_iff`,
`Rules.deriveGuarded_keeps`, `guarded_scan_order`.
-/
import Mathlib.Algebra.BigOperators.Group.Finset.Basic
import LSystem.Proofs.GuardedDerivation

namespace LSystem

/-! ### Visits -/

/-- A token that a derivation comes to: the number of the pass that reads it, and its place in
the string that this pass reads. -/
structure Visit where
  pass : Nat
  place : Nat
  deriving DecidableEq

namespace Rules

variable (rules : Rules)

/-- The visits of `n` passes from `s`: the tokens of `s` in order, then those of the string after
one pass, and so on. -/
def visits (n : Nat) (s : String) : List Visit :=
  (List.range n).flatMap fun k =>
    (List.range (Token.scan (rules.derive k s)).length).map fun i => ⟨k, i⟩

/-- What a pass has written behind some tokens. -/
def output (ts : List Token) : String := ts.foldl (fun out t => out ++ rules.image t) ""

/-- How many bytes the pass of a visit has written behind its token. -/
def sizeBehind (s : String) (v : Visit) : Nat :=
  (rules.output ((Token.scan (rules.derive v.pass s)).take (v.place + 1))).utf8ByteSize

end Rules

/-! ### One loop over all visits -/

section

variable {π : Type}

/-- Asks `poll` before each of some sizes, and fails behind one that is beyond the limit. -/
def heed (limit : Option Nat) (poll : EStateM RenderError π Unit) :
    List Nat → EStateM RenderError π Unit
  | [] => pure ()
  | size :: sizes => do
    poll
    match limit with
    | some l =>
      if l < size then throw (.expansionLimitExceeded size l) else heed limit poll sizes
    | none => heed limit poll sizes

variable (limit : Option Nat) (poll : EStateM RenderError π Unit)

theorem heed_append (bs : List Nat) : ∀ as : List Nat,
    heed limit poll (as ++ bs) = (do heed limit poll as; heed limit poll bs)
  | [] => by simp [heed]
  | a :: as => by
    have ih := heed_append bs as
    cases limit with
    | none => simp [heed, ih]
    | some l =>
      simp only [List.cons_append, heed, bind_assoc]
      congr 1
      funext _
      split
      · rfl
      · exact ih

namespace Rules

variable (rules : Rules)

/-- The sizes of a pass that writes behind `out`, one behind each token. -/
def sizes (out : String) (ts : List Token) : List Nat :=
  (List.range ts.length).map fun i =>
    ((ts.take (i + 1)).foldl (fun out t => out ++ rules.image t) out).utf8ByteSize

theorem sizes_cons (out : String) (t : Token) (ts : List Token) :
    rules.sizes out (t :: ts) =
      (out ++ rules.image t).utf8ByteSize :: rules.sizes (out ++ rules.image t) ts := by
  rw [sizes, List.length_cons, List.range_succ_eq_map, List.map_cons, List.map_map]
  rfl

theorem passGuarded_eq_heed : ∀ (ts : List Token) (out : String),
    rules.passGuarded limit poll ts out = (do
      heed limit poll (rules.sizes out ts)
      pure (ts.foldl (fun out t => out ++ rules.image t) out))
  | [], out => by simp [passGuarded, sizes, heed]
  | t :: ts, out => by
    have ih := passGuarded_eq_heed ts (out ++ rules.image t)
    rw [sizes_cons]
    cases limit with
    | none => simp [passGuarded, heed, ih]
    | some l =>
      simp only [passGuarded, heed, bind_assoc]
      congr 1
      funext _
      split
      · rfl
      · exact ih

/-- The visits of the first pass come before those of the passes over what it has written. -/
theorem visits_succ (n : Nat) (s : String) :
    rules.visits (n + 1) s =
      (List.range (Token.scan s).length).map (fun i => ⟨0, i⟩) ++
        (rules.visits n (rules.pass s)).map fun v => ⟨v.pass + 1, v.place⟩ := by
  simp only [visits, List.range_succ_eq_map, List.flatMap_cons, List.flatMap_map, List.map_flatMap,
    List.map_map]
  rfl

theorem map_sizeBehind_visits_succ (n : Nat) (s : String) :
    (rules.visits (n + 1) s).map (rules.sizeBehind s) =
      rules.sizes "" (Token.scan s) ++
        (rules.visits n (rules.pass s)).map (rules.sizeBehind (rules.pass s)) := by
  rw [visits_succ, List.map_append, List.map_map, List.map_map]
  rfl

/-- **A guarded derivation is one loop over its visits.** -/
theorem deriveGuarded_eq_heed : ∀ (n : Nat) (s : String),
    rules.deriveGuarded limit poll n s = (do
      heed limit poll ((rules.visits n s).map (rules.sizeBehind s))
      pure (rules.derive n s))
  | 0, s => by simp [deriveGuarded, visits, heed, derive]
  | n + 1, s => by
    rw [deriveGuarded, passGuarded_eq_heed, map_sizeBehind_visits_succ, heed_append]
    simp only [bind_assoc, pure_bind, deriveGuarded_eq_heed n]
    rfl

end Rules

/-! ### Where the loop ends -/

/-- Calls a poll a number of times. -/
def asked : Nat → EStateM RenderError π Unit
  | 0 => pure ()
  | calls + 1 => do
    poll
    asked calls

/-- The poll that also counts its calls, with the one that fails. -/
def numbered : EStateM RenderError (Nat × π) Unit := fun (calls, p) =>
  match poll p with
  | .ok _ q => .ok () (calls + 1, q)
  | .error e q => .error e (calls + 1, q)

/-- A size within the limit, if there is one. -/
def Within (size : Nat) : Prop := ∀ l, limit = some l → size ≤ l

/-- What stops a visit: the poll refuses it, or else it is beyond the limit. -/
def StopsAt (size : Nat) (p q : π) (e : RenderError) : Prop :=
  poll p = .error e q ∨
    poll p = .ok () q ∧ ∃ l, limit = some l ∧ l < size ∧ e = .expansionLimitExceeded size l

variable {limit poll}

theorem asked_succ_eq_ok_iff {calls : Nat} {p q : π} :
    asked poll (calls + 1) p = .ok () q ↔
      ∃ r, poll p = .ok () r ∧ asked poll calls r = .ok () q := by
  rw [asked, bind_apply]
  cases poll p <;> simp

theorem stopsAt_or_within (limit : Option Nat) (poll : EStateM RenderError π Unit) (size : Nat)
    (p : π) :
    (∃ q e, StopsAt limit poll size p q e) ∨ ∃ q, poll p = .ok () q ∧ Within limit size := by
  cases hpoll : poll p with
  | error e q => exact .inl ⟨q, e, .inl hpoll⟩
  | ok _ q =>
    cases limit with
    | none => exact .inr ⟨q, rfl, nofun⟩
    | some l =>
      rcases Nat.lt_or_ge l size with hlong | hwithin
      · exact .inl ⟨q, _, .inr ⟨hpoll, l, rfl, hlong, rfl⟩⟩
      · refine .inr ⟨q, rfl, fun l' hl => ?_⟩
        cases hl
        exact hwithin

theorem StopsAt.not_within {size : Nat} {p q r : π} {e : RenderError}
    (h : StopsAt limit poll size p q e) (hpoll : poll p = .ok () r) : ¬ Within limit size := by
  rcases h with h | ⟨-, l, hlimit, hlong, -⟩
  · rw [hpoll] at h
    cases h
  · exact fun hwithin => Nat.not_lt.mpr (hwithin l hlimit) hlong

theorem heed_of_stopsAt {size : Nat} {p q : π} {e : RenderError}
    (h : StopsAt limit poll size p q e) (sizes : List Nat) :
    heed limit poll (size :: sizes) p = .error e q := by
  rcases h with hpoll | ⟨hpoll, l, rfl, hlong, rfl⟩
  · cases limit <;> rw [heed, bind_apply, hpoll]
  · rw [heed, bind_apply, hpoll]
    simp only [if_pos hlong]
    rfl

theorem heed_of_within {size : Nat} {p q : π} (hpoll : poll p = .ok () q)
    (h : Within limit size) (sizes : List Nat) :
    heed limit poll (size :: sizes) p = heed limit poll sizes q := by
  cases limit with
  | none => rw [heed, bind_apply, hpoll]
  | some l =>
    rw [heed, bind_apply, hpoll]
    simp only [if_neg (Nat.not_lt.mpr (h l rfl))]

theorem numbered_of_ok {p q : π} (h : poll p = .ok () q) (calls : Nat) :
    numbered poll (calls, p) = .ok () (calls + 1, q) := by
  rw [numbered, h]

theorem StopsAt.numbered {size : Nat} {p q : π} {e : RenderError}
    (h : StopsAt limit poll size p q e) (calls : Nat) :
    StopsAt limit (numbered poll) size (calls, p) (calls + 1, q) e := by
  rcases h with h | ⟨h, hlong⟩
  · exact .inl (by rw [LSystem.numbered, h])
  · exact .inr ⟨numbered_of_ok h calls, hlong⟩

section

variable {α : Type} (size : α → Nat)

/-- **When the loop goes through**: the poll lets all visits pass and none is beyond the limit. -/
theorem heed_numbered_ok_iff : ∀ (vs : List α) (calls calls' : Nat) (p q : π),
    heed limit (numbered poll) (vs.map size) (calls, p) = .ok () (calls', q) ↔
      calls' = calls + vs.length ∧ (∀ v ∈ vs, Within limit (size v)) ∧
        asked poll vs.length p = .ok () q
  | [], calls, calls', p, q => by
    show EStateM.Result.ok () (calls, p) = .ok () (calls', q) ↔
      calls' = calls + 0 ∧ (∀ v ∈ [], _) ∧ EStateM.Result.ok () p = .ok () q
    simp [eq_comm]
  | v :: vs, calls, calls', p, q => by
    rw [List.map_cons, List.length_cons, asked_succ_eq_ok_iff, List.forall_mem_cons]
    rcases stopsAt_or_within limit poll (size v) p with ⟨r, e, hstop⟩ | ⟨r, hpoll, hwithin⟩
    · rw [heed_of_stopsAt (hstop.numbered calls)]
      refine ⟨nofun, ?_⟩
      rintro ⟨-, ⟨hwithin, -⟩, _, hpoll, -⟩
      exact absurd hwithin (hstop.not_within hpoll)
    · rw [heed_of_within (numbered_of_ok hpoll calls) hwithin, heed_numbered_ok_iff vs]
      simp [hpoll, hwithin, Nat.add_comm, Nat.add_left_comm]

/-- **Where the loop stops**: at the first visit that the poll refuses or that is over the limit. -/
theorem heed_numbered_error_iff (vs : List α) (calls calls' : Nat) (p q : π) (e : RenderError) :
    heed limit (numbered poll) (vs.map size) (calls, p) = .error e (calls', q) ↔
      ∃ before v after r, vs = before ++ v :: after ∧ calls' = calls + before.length + 1 ∧
        (∀ u ∈ before, Within limit (size u)) ∧ asked poll before.length p = .ok () r ∧
        StopsAt limit poll (size v) r q e := by
  constructor
  · induction vs generalizing calls p with
    | nil => exact nofun
    | cons v vs ih =>
      intro h
      rw [List.map_cons] at h
      rcases stopsAt_or_within limit poll (size v) p with ⟨r, e', hstop⟩ | ⟨r, hpoll, hwithin⟩
      · rw [heed_of_stopsAt (hstop.numbered calls)] at h
        cases h
        exact ⟨[], v, vs, p, rfl, rfl, nofun, rfl, hstop⟩
      · rw [heed_of_within (numbered_of_ok hpoll calls) hwithin] at h
        obtain ⟨before, w, after, r', rfl, rfl, hbefore, hasked, hstop⟩ := ih _ _ h
        refine ⟨v :: before, w, after, r', rfl, ?_, ?_, ?_, hstop⟩
        · rw [List.length_cons]
          omega
        · exact List.forall_mem_cons.mpr ⟨hwithin, hbefore⟩
        · exact asked_succ_eq_ok_iff.mpr ⟨r, hpoll, hasked⟩
  · rintro ⟨before, v, after, r, rfl, rfl, hbefore, hasked, hstop⟩
    have hthrough : heed limit (numbered poll) (before.map size) (calls, p) =
        .ok () (calls + before.length, r) :=
      (heed_numbered_ok_iff size before calls _ p r).mpr ⟨rfl, hbefore, hasked⟩
    rw [List.map_append, heed_append, bind_apply, hthrough, List.map_cons]
    exact heed_of_stopsAt (hstop.numbered _) _

end

/-! ### The outcome -/

/-- The outcome with the number of calls left out. -/
def unnumbered {α : Type} :
    EStateM.Result RenderError (Nat × π) α → EStateM.Result RenderError π α
  | .ok a (_, q) => .ok a q
  | .error e (_, q) => .error e q

/-- Counting the calls changes nothing else of the loop. -/
theorem heed_eq_unnumbered : ∀ (sizes : List Nat) (calls : Nat) (p : π),
    heed limit poll sizes p = unnumbered (heed limit (numbered poll) sizes (calls, p))
  | [], _, _ => rfl
  | size :: sizes, calls, p => by
    rcases stopsAt_or_within limit poll size p with ⟨q, e, hstop⟩ | ⟨q, hpoll, hwithin⟩
    · rw [heed_of_stopsAt hstop, heed_of_stopsAt (hstop.numbered calls)]
      rfl
    · rw [heed_of_within hpoll hwithin, heed_of_within (numbered_of_ok hpoll calls) hwithin]
      exact heed_eq_unnumbered sizes (calls + 1) q

/-- What the calls that succeed keep holds as long as the loop goes on, and what each call leaves
behind holds where it stops. -/
theorem heed_keeps {P Q : π → Prop} (hok : ∀ p q, P p → poll p = .ok () q → P q)
    (herror : ∀ p q e, P p → poll p = .error e q → Q q) (hstopped : ∀ p, P p → Q p) :
    ∀ (sizes : List Nat) {p : π}, P p →
      (∀ q, heed limit poll sizes p = .ok () q → P q) ∧
        ∀ e q, heed limit poll sizes p = .error e q → Q q
  | [], _, hp => by
    refine ⟨?_, nofun⟩
    rintro _ ⟨⟩
    exact hp
  | size :: sizes, p, hp => by
    rcases stopsAt_or_within limit poll size p with ⟨q, e, hstop⟩ | ⟨q, hpoll, hwithin⟩
    · rw [heed_of_stopsAt hstop]
      refine ⟨nofun, ?_⟩
      rintro _ _ ⟨⟩
      rcases hstop with hpoll | ⟨hpoll, -⟩
      · exact herror p q e hp hpoll
      · exact hstopped q (hok p q hp hpoll)
    · rw [heed_of_within hpoll hwithin]
      exact heed_keeps hok herror hstopped sizes (hok p q hp hpoll)

namespace Rules

variable (rules : Rules) (n : Nat) (s : String)

theorem deriveGuarded_eq_ok_iff (p q : π) (out : String) :
    rules.deriveGuarded limit poll n s p = .ok out q ↔
      out = rules.derive n s ∧
        heed limit poll ((rules.visits n s).map (rules.sizeBehind s)) p = .ok () q := by
  rw [deriveGuarded_eq_heed, bind_apply]
  cases heed limit poll ((rules.visits n s).map (rules.sizeBehind s)) p with
  | ok _ r =>
    show EStateM.Result.ok (rules.derive n s) r = .ok out q ↔ _
    simp [eq_comm]
  | error e r => simp

theorem deriveGuarded_eq_error_iff (p q : π) (e : RenderError) :
    rules.deriveGuarded limit poll n s p = .error e q ↔
      heed limit poll ((rules.visits n s).map (rules.sizeBehind s)) p = .error e q := by
  rw [deriveGuarded_eq_heed, bind_apply]
  cases heed limit poll ((rules.visits n s).map (rules.sizeBehind s)) p with
  | ok _ r =>
    show EStateM.Result.ok (rules.derive n s) r = .error e q ↔ _
    simp
  | error e' r => simp

theorem deriveGuarded_eq_unnumbered (p : π) :
    rules.deriveGuarded limit poll n s p =
      unnumbered (rules.deriveGuarded limit (numbered poll) n s (0, p)) := by
  rw [deriveGuarded_eq_heed, deriveGuarded_eq_heed, bind_apply, bind_apply, heed_eq_unnumbered _ 0]
  cases heed limit (numbered poll) ((rules.visits n s).map (rules.sizeBehind s)) (0, p) <;> rfl

/-- **What the polls keep, a guarded derivation keeps.** -/
theorem deriveGuarded_keeps {P Q : π → Prop} (hok : ∀ p q, P p → poll p = .ok () q → P q)
    (herror : ∀ p q e, P p → poll p = .error e q → Q q) (hstopped : ∀ p, P p → Q p) {p : π}
    (hp : P p) :
    (∀ out q, rules.deriveGuarded limit poll n s p = .ok out q → P q) ∧
      ∀ e q, rules.deriveGuarded limit poll n s p = .error e q → Q q := by
  obtain ⟨hgoes, hstops⟩ := heed_keeps hok herror hstopped
    ((rules.visits n s).map (rules.sizeBehind s)) hp
  constructor
  · intro out q h
    exact hgoes q ((rules.deriveGuarded_eq_ok_iff n s p q out).mp h).2
  · intro e q h
    exact hstops e q ((rules.deriveGuarded_eq_error_iff n s p q e).mp h)

theorem length_visits :
    (rules.visits n s).length =
      ∑ k ∈ Finset.range n, (Token.scan (rules.derive k s)).length := by
  induction n with
  | zero => rfl
  | succ n ih =>
    rw [Finset.sum_range_succ, ← ih]
    simp [visits, List.range_succ]

end Rules

/-- **Polls and limit in scan order.** A derivation calls the poll once for each visit, in the order
of the visits, up to its end or to the visit that stops it. It succeeds, with the string of the
plain derivation, if and only if the poll lets all visits pass and no pass is beyond the limit
behind one of them. It fails if and only if the poll refuses a visit, or lets it pass and its pass is
beyond the limit behind it, while nothing has stopped the visits before; the error is then the
poll's or else the limit's. -/
theorem guarded_scan_order (rules : Rules) (limit : Option Nat) (poll : EStateM RenderError π Unit)
    (n : Nat) (s : String) (p : π) :
    let visits := rules.visits n s
    let within (v : Visit) := ∀ l, limit = some l → rules.sizeBehind s v ≤ l
    let run := rules.deriveGuarded limit (numbered poll) n s (0, p)
    rules.deriveGuarded limit poll n s p = unnumbered run ∧
    visits.length = ∑ k ∈ Finset.range n, (Token.scan (rules.derive k s)).length ∧
    (∀ out calls q, run = .ok out (calls, q) ↔
      out = rules.derive n s ∧ calls = visits.length ∧ (∀ v ∈ visits, within v) ∧
        asked poll visits.length p = .ok () q) ∧
    ∀ e calls q, run = .error e (calls, q) ↔
      ∃ before v after r, visits = before ++ v :: after ∧ calls = before.length + 1 ∧
        (∀ u ∈ before, within u) ∧ asked poll before.length p = .ok () r ∧
        (poll r = .error e q ∨ poll r = .ok () q ∧ ∃ l, limit = some l ∧
          l < rules.sizeBehind s v ∧ e = .expansionLimitExceeded (rules.sizeBehind s v) l) := by
  intro visits within run
  refine ⟨rules.deriveGuarded_eq_unnumbered n s p, rules.length_visits n s, fun out calls q => ?_,
    fun e calls q => ?_⟩
  · rw [rules.deriveGuarded_eq_ok_iff, heed_numbered_ok_iff, Nat.zero_add]
    rfl
  · rw [rules.deriveGuarded_eq_error_iff, heed_numbered_error_iff]
    simp only [Nat.zero_add]
    rfl

/-- At a token that the poll refuses and that would be written beyond the limit, the poll wins. -/
example :
    (Rules.empty.insert 'F' "FF").deriveGuarded (some 1) (numbered (throw .cancelled)) 2 "F"
      (0, ()) = .error .cancelled (1, ()) := rfl

end
end LSystem
