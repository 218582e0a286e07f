/-
# Recorders whose count and corners fit their calls

A recorder keeps its count of lines and its corners beside its calls. Both fit the calls in a new
recorder, and a call changes them as it changes the calls: behind any calls, the count fits if and only
if it did before, and the corners fit if they did before or as soon as there is a call
(`recorder_fits_iff`).

The reader is the other way to a recorder, and it takes count and corners as they are in the text. So
any recorder with finite coordinates can be read, whether it fits its calls or not, and one that does
not stays so (`decoded_recorder_unfit`).

Key definitions: `PathRecorder.CountFits`, `PathRecorder.CornersFit`.
Key theorems: `PathRecorder.countFits_takeAll_iff`, `PathRecorder.cornersFit_takeAll_iff`,
`recorder_fits_iff`.
-/
import LSystem.Proofs.Bounds
import LSystem.Proofs.RoundTrip
import LSystem.Proofs.Sessions

namespace LSystem

open Json
open LineSink (take takeAll)

namespace PathRecorder

variable {r : PathRecorder} {calls : List PathCommand}

/-- How many lines are among the calls of a recorder. -/
def lineCount (r : PathRecorder) : Nat := r.commands.toList.countP (·.isLine)

/-- The count of lines is the number of lines among the calls. -/
def CountFits (r : PathRecorder) : Prop := r.segments.toNat = r.lineCount

instance (r : PathRecorder) : Decidable r.CountFits := inferInstanceAs (Decidable (_ = _))

/-- There are no corners if and only if there are no calls. -/
def CornersFit (r : PathRecorder) : Prop := r.bounds = none ↔ r.commands = #[]

instance (r : PathRecorder) : Decidable r.CornersFit := inferInstanceAs (Decidable (_ ↔ _))

/-! ### The count -/

theorem lineCount_le_size (r : PathRecorder) : r.lineCount ≤ r.commands.size := by
  have hle : r.commands.toList.countP (·.isLine) ≤ r.commands.toList.length := List.countP_le_length
  rwa [Array.length_toList] at hle

theorem lineCount_takeAll (r : PathRecorder) (calls : List PathCommand) :
    (takeAll r calls).lineCount = r.lineCount + calls.countP (·.isLine) := by
  rw [lineCount, commands_takeAll, List.countP_append, lineCount]

/-- **Calls neither mend the count nor spoil it**, as long as a machine word can count them. -/
theorem countFits_takeAll_iff (h : r.commands.size + calls.length < UInt64.size) :
    (takeAll r calls).CountFits ↔ r.CountFits := by
  have hlines : calls.countP (·.isLine) ≤ calls.length := List.countP_le_length
  have hcount := r.lineCount_le_size
  have hword : r.segments.toNat < UInt64.size := r.segments.toNat_lt
  have hsegments : (takeAll r calls).segments.toNat =
      (r.segments.toNat + calls.countP (·.isLine)) % UInt64.size := by
    have hnew : (UInt64.ofNat (calls.countP (·.isLine))).toNat = calls.countP (·.isLine) :=
      UInt64.toNat_ofNat_of_lt' (by omega)
    rw [segments_takeAll, UInt64.toNat_add, hnew]
  rw [CountFits, hsegments, lineCount_takeAll, CountFits]
  generalize hk : calls.countP (·.isLine) = k at hlines ⊢
  simp only [UInt64.size] at h hword ⊢
  omega

/-- A line is counted, unless the count stands at the greatest machine word. -/
theorem segments_lineTo (r : PathRecorder) (p : Point) (h : r.segments.toNat + 1 < UInt64.size) :
    (r.lineTo p).segments.toNat = r.segments.toNat + 1 := by
  have hsegments : (r.lineTo p).segments = r.segments + 1 := rfl
  rw [hsegments, UInt64.toNat_add]
  exact Nat.mod_eq_of_lt h

/-! ### The corners -/

theorem bounds_take (r : PathRecorder) (c : PathCommand) : (take r c).bounds ≠ none := by
  rw [bounds, min_take, max_take]
  exact Option.some_ne_none _

theorem bounds_takeAll : ∀ (calls : List PathCommand) (r : PathRecorder), r.bounds ≠ none →
    (takeAll r calls).bounds ≠ none
  | [], _, h => h
  | c :: calls, r, _ => bounds_takeAll calls (take r c) (r.bounds_take c)

/-- **Corners fit once there is a call**, and before that if they did from the start. -/
theorem cornersFit_takeAll_iff : (takeAll r calls).CornersFit ↔ calls ≠ [] ∨ r.CornersFit := by
  cases calls with
  | nil => simp
  | cons c calls =>
    have hcorners : (takeAll r (c :: calls)).bounds ≠ none :=
      bounds_takeAll calls (take r c) (r.bounds_take c)
    have hcalls : (takeAll r (c :: calls)).commands ≠ #[] := by
      intro hnone
      have hkept := commands_takeAll r (c :: calls)
      rw [hnone] at hkept
      simp at hkept
    have hfit : (takeAll r (c :: calls)).CornersFit :=
      ⟨fun hnone => absurd hnone hcorners, fun hnone => absurd hnone hcalls⟩
    exact ⟨fun _ => .inl nofun, fun _ => hfit⟩

/-! ### Reading -/

/-- Any recorder with finite coordinates is read from its text. -/
theorem read_toText (r : PathRecorder) (h : r.doubles.all Float.isFinite = true) :
    PathRecorder.json.read r.toJson.toText = .ok r := by
  have hread := (restores r).read_toText
  rwa [ifFinite, if_pos h] at hread

end PathRecorder

theorem PathRecorder.fits_empty : ({} : PathRecorder).CountFits ∧ ({} : PathRecorder).CornersFit :=
  ⟨rfl, fun _ => rfl, fun _ => rfl⟩

/-- **When count and corners fit the calls.** The count fits behind some calls if and only if it did
before them, as it does in a new recorder; the corners fit if and only if they did or there is a call.
As long as the count fits and fewer than `2 ^ 64` calls are held, no line makes it overflow. But each
recorder with finite coordinates is read from a text, whether count and corners fit in it or not. -/
theorem recorder_fits_iff (r : PathRecorder) (calls : List PathCommand) :
    (r.commands.size + calls.length < UInt64.size →
      (((takeAll r calls).CountFits ↔ r.CountFits) ∧ (takeAll ({} : PathRecorder) calls).CountFits)) ∧
    (((takeAll r calls).CornersFit ↔ calls ≠ [] ∨ r.CornersFit) ∧
      (takeAll ({} : PathRecorder) calls).CornersFit) ∧
    (∀ p, r.CountFits → (r.lineTo p).commands.size < UInt64.size →
      (r.lineTo p).segments.toNat = r.segments.toNat + 1) ∧
    ((∀ x ∈ r.doubles, x.isFinite = true) → PathRecorder.json.read r.toJson.toText = .ok r) := by
  obtain ⟨hcount, hcorners⟩ := PathRecorder.fits_empty
  refine ⟨fun hsize => ⟨PathRecorder.countFits_takeAll_iff hsize, ?_⟩,
    ⟨PathRecorder.cornersFit_takeAll_iff, PathRecorder.cornersFit_takeAll_iff.mpr (.inr hcorners)⟩,
    fun p hfits hsize => ?_, fun hfinite => ?_⟩
  · have hsize' : ({} : PathRecorder).commands.size + calls.length < UInt64.size := by
      rw [Array.size_empty, Nat.zero_add]
      omega
    exact (PathRecorder.countFits_takeAll_iff hsize').mpr hcount
  · have hsize' : (r.lineTo p).commands.size = r.commands.size + 1 := Array.size_push _
    have hle := r.lineCount_le_size
    apply r.segments_lineTo p
    rw [hfits]
    omega
  · exact r.read_toText (List.all_eq_true.mpr hfinite)

/-- A recorder that counts a line too many is read, and a line makes its corners fit, but never its
count; in a new recorder both fit. -/
theorem recorder_fits_kept :
    let r : PathRecorder := { segments := 1, min := some .origin, max := some .origin }
    PathRecorder.json.read r.toJson.toText = .ok r ∧ ¬ r.CornersFit ∧
      (takeAll r [.lineTo .origin]).CornersFit ∧ ¬ (takeAll r [.lineTo .origin]).CountFits ∧
      (takeAll ({} : PathRecorder) [.lineTo .origin]).CountFits := by
  intro r
  obtain ⟨hcount, hcorners, -, hread⟩ := recorder_fits_iff r [.lineTo .origin]
  obtain ⟨hkept, hnew⟩ := hcount (by decide)
  have hwrong : ¬ r.CountFits := by decide
  have hunfit : ¬ r.CornersFit := by decide
  refine ⟨hread (by decide +kernel), hunfit, hcorners.1.mpr (.inl nofun), ?_, hnew⟩
  rwa [hkept]

/-- **Recorders that are read need not fit their calls.** One without calls counts seven lines, and
still does behind a call; one has corners without a call; and of one the count overflows. -/
theorem decoded_recorder_unfit :
    (∃ r, PathRecorder.json.read
        "\x7b\"commands\":[],\"segments\":7,\"min\":null,\"max\":null\x7d" = .ok r ∧
      ¬ r.CountFits ∧ ¬ (r.moveTo .origin).CountFits) ∧
    (∃ text r, PathRecorder.json.read text = .ok r ∧ ¬ r.CornersFit) ∧
    ∃ text r, PathRecorder.json.read text = .ok r ∧ r.commands = #[] ∧
      (r.lineTo .origin).segments = 0 := by
  refine ⟨⟨{ segments := 7 }, ?_, by decide, by decide⟩,
    ⟨_, { min := some .origin, max := some .origin }, PathRecorder.read_toText _ (by decide +kernel), ?_⟩,
    ⟨_, { segments := 18446744073709551615 }, PathRecorder.read_toText _ rfl, rfl, rfl⟩⟩
  · have hdigits : Decimal.digits (7 : UInt64).toNat = ['7'] := by
      rw [Decimal.digits, if_pos (by decide)]
      rfl
    have htext : ({ segments := 7 } : PathRecorder).toJson.write =
        "\x7b\"commands\":[],\"segments\":7,\"min\":null,\"max\":null\x7d".toList := by
      simp only [PathRecorder.toJson, Document.write, Document.writeEntries, hdigits,
        Document.ofOption]
      rfl
    have hseven := PathRecorder.read_toText { segments := 7 } rfl
    rwa [Document.toText, htext, String.ofList_toList] at hseven
  · decide

end LSystem
