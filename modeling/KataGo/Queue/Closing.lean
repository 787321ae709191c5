import KataGo.Queue.Runs

/-! Closing a queue, in any run. -/

namespace KataGo.Queue
open KataGo.Lib

variable {ι α : Type} [DecidableEq ι]

namespace Monitor

variable {m : Monitor ι α} {maxSize : SizeT} {action : Action ι α}

omit [DecidableEq ι] in
/-- The step calls `size` on a closed queue from which something has been popped. -/
def MeasuresClosed (m : Monitor ι α) (action : Action ι α) : Prop :=
  (∃ thread, m.entering action = some (thread, .size)) ∧ m.container.closed = true ∧ m.popped ≠ []

/-- The only assertion that can fail is the one of `size`. -/
theorem Sound.failed_iff (sound : m.Sound maxSize) :
    (∃ assertion, m.step action = .error (.failed assertion)) ↔ m.MeasuresClosed action := by
  constructor
  · rintro ⟨assertion, failed⟩
    obtain ⟨thread, call, entering, failed⟩ := step_eq_failed.mp failed
    cases closed : m.container.closed with
    | false =>
      obtain ⟨outcome, run, -⟩ := Container.enter_open (sound.proper closed) closed call
      cases failed.symm.trans run
    | true =>
      rcases Container.enter_closed call closed (sound.cleared closed) with
        ⟨rfl, moved, -⟩ | ⟨_, _, _, run, -⟩
      · exact ⟨⟨thread, entering⟩, closed, sound.moved.mp moved⟩
      · cases failed.symm.trans run
  · rintro ⟨⟨thread, entering⟩, closed, popped⟩
    rcases Container.enter_closed .size closed (sound.cleared closed) with
      ⟨-, -, failed⟩ | ⟨_, _, _, -, still, -⟩
    · exact ⟨.headPastEnd, step_eq_failed.mpr ⟨thread, .size, entering, failed⟩⟩
    · exact absurd ⟨rfl, sound.moved.mpr popped⟩ still

/-- No assertion fails in a run, and after the first `close` every push and pop returns false and
`size` returns zero, if and only if no step of the run calls `size` on a closed queue from which
something has been popped. -/
theorem run_closing (maxSize : SizeT) (actions : List (Action ι α)) :
    ((∀ assertion, run maxSize actions ≠ .error (.failed assertion)) ∧
      ∀ m, run maxSize actions = .ok m → ∀ before answer after, m.history = before ++ (.close, answer) :: after →
        ∀ entry ∈ after, Refused entry.2) ↔
    ∀ before action rest m, actions = before ++ action :: rest → run maxSize before = .ok m → ¬ m.MeasuresClosed action := by
  constructor
  · rintro ⟨safe, -⟩ before action rest m split ran measures
    obtain ⟨assertion, failed⟩ := (run_sound ran).failed_iff.mpr measures
    exact safe assertion (replay_eq_error.mpr ⟨before, action, rest, m, split, ran, failed⟩)
  · intro never
    constructor
    · intro assertion failed
      obtain ⟨before, action, rest, m, split, ran, failed⟩ := replay_eq_error.mp failed
      exact never before action rest m split ran ((run_sound ran).failed_iff.mp ⟨assertion, failed⟩)
    · intro m ran
      exact (run_sound ran).refused

/-- The size of a queue that is closed after a pop. -/
theorem run_size_after_close : run 2 [Action.start () (Call.waitPush 7), .start () .waitPop, .start () .close, .start () .size] =
    .error (.failed .headPastEnd) :=
  rfl

end Monitor
end KataGo.Queue
