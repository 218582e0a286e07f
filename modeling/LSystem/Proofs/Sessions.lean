/-
# The renderings of a session do not touch each other

A session keeps three things between renderings: its configuration, the flag and the recorder. A
rendering starts a turtle and counts of its own, and hands calls to the recorder without reading it,
as the flag says the same for every recorder. So a rendering behind others has the outcome that it
has alone, into an empty recorder, and adds the calls it makes there (`Session.render_eq_alone`).
This holds for a rendering that an error stops just as well. By induction on its steps, a whole
session is its renderings one by one (`Session.run_eq_alone`), and its recorder holds their calls
one after the other (`Session.run_composes`).

Key definitions: `Session.Step`, `Session.run`, `Session.renderAlone`, `Session.alone`.
Key theorems: `PathRecorder.commands_takeAll`, `PathRecorder.segments_takeAll`,
`Session.render_eq_alone`, `Session.run_eq_alone`, `Session.run_composes`.
-/
import LSystem.Proofs.Calls
import LSystem.Session

namespace LSystem

open LineSink (takeAll)

/-! ### Recorders -/

namespace PathRecorder

/-- The calls that a recorder keeps. -/
def kept : SinkMap PathRecorder (Array PathCommand) where
  toFun := commands
  map_moveTo _ _ := rfl
  map_lineTo _ _ := rfl

theorem commands_takeAll (r : PathRecorder) (calls : List PathCommand) :
    (takeAll r calls).commands.toList = r.commands.toList ++ calls := by
  rw [← toList_takeAll]
  exact congrArg Array.toList (kept.map_takeAll calls r)

theorem segments_takeAll : ∀ (calls : List PathCommand) (r : PathRecorder),
    (takeAll r calls).segments = r.segments + .ofNat (calls.countP (·.isLine))
  | [], r => (UInt64.add_zero r.segments).symm
  | .moveTo p :: calls, r => by
    rw [LineSink.takeAll_cons, segments_takeAll calls, List.countP_cons_of_neg (by simp)]
    rfl
  | .lineTo p :: calls, r => by
    rw [LineSink.takeAll_cons, segments_takeAll calls, List.countP_cons_of_pos (by simp),
      Nat.add_comm, UInt64.ofNat_add, ← UInt64.add_assoc]
    rfl

end PathRecorder

namespace Session

/-! ### The steps of a session -/

/-- What a host does with a session. -/
inductive Step where
  /-- Raises or lowers the flag. -/
  | setFlag (flag : Bool)
  /-- Draws a grammar. -/
  | render (g : Grammar)

/-- The outcomes of the renderings among steps, and the session after the steps. -/
def run : Session → List Step → List (Except RenderError RenderStats) × Session
  | s, [] => ([], s)
  | s, .setFlag flag :: steps => (s.setFlag flag).run steps
  | s, .render g :: steps =>
    let (outcome, s) := s.render g
    let (outcomes, s) := s.run steps
    (outcome :: outcomes, s)

/-- The outcome of a rendering into an empty recorder, and the calls that it makes there. -/
def renderAlone (s : Session) (g : Grammar) : Except RenderError RenderStats × List PathCommand :=
  ((s.config.render g {}).1, (s.config.render g {}).2.commands.toList)

/-- What each rendering among steps does alone, under the flag as it is then. -/
def alone : Session → List Step → List (Except RenderError RenderStats × List PathCommand)
  | _, [] => []
  | s, .setFlag flag :: steps => (s.setFlag flag).alone steps
  | s, .render g :: steps => s.renderAlone g :: s.alone steps

/-! ### One rendering -/

/-- The calls that a session makes for a grammar do not depend on its recorder, as the flag says the
same for every recorder. -/
theorem comap_config (s : Session) (r r' : PathRecorder) :
    s.config.comap (.replay r) = s.config.comap (.replay r') := by
  unfold config RenderConfig.comap
  cases s.cancellable <;> rfl

theorem renderAlone_eq (s : Session) (g : Grammar) :
    s.renderAlone g =
      (((s.config.comap (.replay {})).render g #[]).1, s.config.record g {}) := by
  unfold renderAlone
  rw [render_eq_record, PathRecorder.commands_takeAll]
  rfl

/-- **A rendering behind others is the one alone**, with its calls added to the recorder. -/
theorem render_eq_alone (s : Session) (r : PathRecorder) (g : Grammar) :
    ({ s with recorder := r } : Session).render g =
      ((s.renderAlone g).1, { s with recorder := takeAll r (s.renderAlone g).2 }) := by
  have hrender : s.config.render g r =
      (((s.config.comap (.replay {})).render g #[]).1, takeAll r (s.config.record g {})) := by
    rw [render_eq_record, RenderConfig.record, s.comap_config r {}]
    rfl
  calc ({ s with recorder := r } : Session).render g
    _ = ((s.config.render g r).1, { s with recorder := (s.config.render g r).2 }) := rfl
    _ = ((s.renderAlone g).1, { s with recorder := takeAll r (s.renderAlone g).2 }) := by
      rw [hrender, renderAlone_eq]

/-! ### All steps -/

/-- **A session is its renderings one by one**, each as it is alone. -/
theorem run_eq_alone : ∀ (steps : List Step) (s : Session) (r : PathRecorder),
    (({ s with recorder := r } : Session).run steps).1 = (s.alone steps).map (·.1) ∧
      (({ s with recorder := r } : Session).run steps).2.recorder =
        takeAll r ((s.alone steps).flatMap (·.2))
  | [], _, _ => ⟨rfl, rfl⟩
  | .setFlag flag :: steps, s, r => run_eq_alone steps (s.setFlag flag) r
  | .render g :: steps, s, r => by
    obtain ⟨houtcomes, hrecorder⟩ := run_eq_alone steps s (takeAll r (s.renderAlone g).2)
    unfold run alone
    rw [render_eq_alone, List.map_cons, List.flatMap_cons, LineSink.takeAll_append, ← houtcomes,
      ← hrecorder]
    exact ⟨rfl, rfl⟩

/-- **The renderings of a session compose.** Take a recorder that holds any calls, and any steps.
Each rendering among them has the outcome that it has alone, the recorder holds its old calls and
behind them those that the renderings make alone, and its count of lines is that of all of them. -/
theorem run_composes (s : Session) (history : List PathCommand) (steps : List Step) :
    let session : Session := { s with recorder := takeAll {} history }
    let calls := history ++ (s.alone steps).flatMap (·.2)
    (session.run steps).1 = (s.alone steps).map (·.1) ∧
      (session.run steps).2.recorder.commands.toList = calls ∧
      (session.run steps).2.recorder.segments = .ofNat (calls.countP (·.isLine)) := by
  intro session calls
  obtain ⟨houtcomes, hrecorder⟩ := run_eq_alone steps s (takeAll {} history)
  rw [← LineSink.takeAll_append] at hrecorder
  refine ⟨houtcomes, ?_, ?_⟩
  · rw [hrecorder, PathRecorder.commands_takeAll]
    rfl
  · rw [hrecorder, PathRecorder.segments_takeAll]
    exact UInt64.zero_add _

end Session
end LSystem
