import KataGo.Queue.Contents
import Mathlib.Data.List.Basic

/-! Runs of any number of threads around a queue. -/

namespace KataGo.Queue
open KataGo.Lib

variable {ι α : Type}

/-- The element that a call has pushed. -/
def pushedBy : Call α × Answer α → Option α
  | (call, .pushed true) => call.pushes
  | _ => none

def poppedBy : Call α × Answer α → List α
  | (_, .popped _ elts) => elts
  | _ => []

/-- What a call returns when the queue is closed. -/
def Refused : Answer α → Prop
  | .done => True
  | .size n => n = 0
  | .pushed success => success = false
  | .popped success elts => success = false ∧ elts = []

namespace Container

variable {c : Container α} {call : Call α} {outcome : Outcome α}

/-- In a closed queue only `size` looks at the head index. -/
theorem enter_closed (call : Call α) (closed : c.closed = true) (cleared : c.queue.eltsDequeue = [] ∧ c.queue.eltsEnqueue = []) :
    (call = .size ∧ 0 < c.queue.headIdx ∧ c.enter call = .error .headPastEnd) ∨
      ∃ c' notified answer, c.enter call = .ok (.returns c' notified answer) ∧ ¬(call = .size ∧ 0 < c.queue.headIdx) ∧
        c'.closed = true ∧ c'.queue = c.queue ∧ c'.maxSize = c.maxSize ∧ Refused answer ∧ poppedBy (call, answer) = [] := by
  have kept : c.queue.clearUnsynchronized = c.queue := by
    cases queue : c.queue with
    | mk headIdx eltsDequeue eltsEnqueue =>
      rw [queue] at cleared
      obtain ⟨rfl, rfl⟩ := cleared
      rfl
  have push_eq (elt : α) : c.push elt = .ok (.returns c [] (.pushed false)) := by rw [push, closed]; rfl
  have pop_eq : c.pop = .ok (.returns c [] (.popped false [])) := by rw [pop, closed]; rfl
  have unblocked : c.popBlocked = .ok false := by rw [popBlocked, closed]; rfl
  cases call with
  | size =>
    by_cases start : c.queue.headIdx = 0
    · refine .inr ⟨c, [], .size 0, ?_, fun moved => absurd moved.2 (by omega), closed, rfl, rfl, rfl, rfl⟩
      rw [enter, ThreadSafeQueue.sizeUnsynchronized, cleared.1, cleared.2, start]
      rfl
    · refine .inl ⟨rfl, Nat.pos_of_ne_zero start, ?_⟩
      rw [enter, ThreadSafeQueue.sizeUnsynchronized, if_neg (by rw [cleared.1]; exact fun least => start (Nat.le_zero.mp least))]
      rfl
  | close => exact .inr ⟨_, _, _, rfl, by simp, rfl, kept, rfl, trivial, rfl⟩
  | setReadOnly => exact .inr ⟨_, _, _, rfl, by simp, closed, rfl, rfl, trivial, rfl⟩
  | unsetReadOnly => exact .inr ⟨_, _, _, rfl, by simp, closed, rfl, rfl, trivial, rfl⟩
  | waitPush elt =>
    refine .inr ⟨c, [], .pushed false, ?_, by simp, closed, rfl, rfl, rfl, rfl⟩
    rw [enter, show c.pushBlocked = .ok false by rw [pushBlocked, closed]; rfl]
    exact push_eq elt
  | forcePush elt => exact .inr ⟨c, [], .pushed false, push_eq elt, by simp, closed, rfl, rfl, rfl, rfl⟩
  | tryPop => exact .inr ⟨c, [], .popped false [], pop_eq, by simp, closed, rfl, rfl, ⟨rfl, rfl⟩, rfl⟩
  | waitPop =>
    refine .inr ⟨c, [], .popped false [], ?_, by simp, closed, rfl, rfl, ⟨rfl, rfl⟩, rfl⟩
    rw [enter, unblocked]
    exact pop_eq
  | waitPopUpToN n =>
    refine .inr ⟨c, [], .popped false [], ?_, by simp, closed, rfl, rfl, ⟨rfl, rfl⟩, rfl⟩
    rw [enter, unblocked]
    show c.popUpToN n = _
    rw [popUpToN, closed]
    rfl

end Container

namespace Monitor

/-- The elements that have been pushed, in their order. -/
def pushed (m : Monitor ι α) : List α := m.history.filterMap pushedBy

def popped (m : Monitor ι α) : List α := m.history.flatMap poppedBy

/-- The invariant of every run. -/
structure Sound (maxSize : SizeT) (m : Monitor ι α) : Prop where
  size : m.container.maxSize = maxSize
  proper : m.container.closed = false → m.container.queue.Proper
  fifo : m.container.closed = false → m.pushed = m.popped ++ m.container.contents
  cleared : m.container.closed = true → m.container.queue.eltsDequeue = [] ∧ m.container.queue.eltsEnqueue = []
  moved : 0 < m.container.queue.headIdx ↔ m.popped ≠ []
  isOpen : m.container.closed = false → ∀ entry ∈ m.history, entry.1 ≠ .close
  refused : ∀ before answer after, m.history = before ++ (.close, answer) :: after → ∀ entry ∈ after, Refused entry.2

theorem entering_eq_some {m : Monitor ι α} {action : Action ι α} {thread : ι} {call : Call α} :
    m.entering action = some (thread, call) ↔
      action = .start thread call ∧ m.threads thread = .idle ∨ action = .resume thread ∧ m.threads thread = .notified call := by
  cases action with
  | start thread' call' =>
    rw [entering]
    constructor
    · intro entered
      cases status : m.threads thread' with
      | idle =>
        rw [status] at entered
        cases entered
        exact .inl ⟨rfl, status⟩
      | waiting | notified =>
        rw [status] at entered
        cases entered
    · rintro (⟨⟨⟩, idle⟩ | ⟨⟨⟩, -⟩)
      rw [idle]
  | resume thread' =>
    rw [entering]
    constructor
    · intro entered
      cases status : m.threads thread' with
      | notified call' =>
        rw [status] at entered
        cases entered
        exact .inr ⟨rfl, status⟩
      | idle | waiting =>
        rw [status] at entered
        cases entered
    · rintro (⟨⟨⟩, -⟩ | ⟨⟨⟩, notified⟩)
      rw [notified]

theorem Sound.new (maxSize : SizeT) : (new maxSize : Monitor ι α).Sound maxSize where
  size := rfl
  proper _ := Nat.le_refl 0
  fifo _ := rfl
  cleared closed := nomatch closed
  moved := by simp [Monitor.new, Container.new, ThreadSafeQueue.empty, popped]
  isOpen _ _ member := nomatch member
  refused before answer after split := by simp [Monitor.new] at split

variable [DecidableEq ι] {m m' : Monitor ι α} {maxSize : SizeT} {action : Action ι α} {thread : ι} {call : Call α}

theorem step_eq_ok : m.step action = .ok m' ↔
    ∃ thread call outcome, m.entering action = some (thread, call) ∧ m.container.enter call = .ok outcome ∧
      m' = m.leave thread call outcome := by
  rw [step]
  constructor
  · intro stepped
    split at stepped
    · cases stepped
    · rename_i thread call entering
      split at stepped
      · cases stepped
      · rename_i outcome entered
        cases stepped
        exact ⟨thread, call, outcome, entering, entered, rfl⟩
  · rintro ⟨thread, call, outcome, entering, entered, rfl⟩
    rw [entering]
    dsimp only
    rw [entered]

theorem step_eq_failed {assertion : Assertion} : m.step action = .error (.failed assertion) ↔
    ∃ thread call, m.entering action = some (thread, call) ∧ m.container.enter call = .error assertion := by
  rw [step]
  constructor
  · intro stepped
    split at stepped
    · cases stepped
    · rename_i thread call entering
      split at stepped
      · rename_i assertion' failed
        cases stepped
        exact ⟨thread, call, entering, failed⟩
      · cases stepped
  · rintro ⟨thread, call, entering, failed⟩
    rw [entering]
    dsimp only
    rw [failed]

@[simp] theorem leave_container {container : Container α} {notified : List CondVar} {answer : Answer α} :
    (m.leave thread call (.returns container notified answer)).container = container := rfl

theorem leave_pushed {container : Container α} {notified : List CondVar} {answer : Answer α} :
    (m.leave thread call (.returns container notified answer)).pushed = m.pushed ++ (pushedBy (call, answer)).toList := by
  rw [pushed, leave, List.filterMap_append]
  cases given : pushedBy (call, answer) <;> simp [pushed, given]

theorem leave_popped {container : Container α} {notified : List CondVar} {answer : Answer α} :
    (m.leave thread call (.returns container notified answer)).popped = m.popped ++ poppedBy (call, answer) := by
  rw [popped, leave, List.flatMap_append]
  simp [popped]

/-- A call that returns from an open queue and does not close it. -/
theorem Sound.returned (sound : m.Sound maxSize) (isOpen : m.container.closed = false) (other : call ≠ .close)
    {container : Container α} {notified : List CondVar} {answer : Answer α} (size : container.maxSize = m.container.maxSize)
    (kept : container.closed = false) (proper : container.queue.Proper)
    (fifo : m.container.contents ++ (pushedBy (call, answer)).toList = poppedBy (call, answer) ++ container.contents)
    (moved : 0 < container.queue.headIdx ↔ 0 < m.container.queue.headIdx ∨ poppedBy (call, answer) ≠ []) :
    (m.leave thread call (.returns container notified answer)).Sound maxSize where
  size := size.trans sound.size
  proper _ := proper
  fifo _ := by
    rw [leave_pushed, leave_popped, sound.fifo isOpen, List.append_assoc, List.append_assoc, fifo]
    rfl
  cleared closed := by
    rw [leave_container, kept] at closed
    cases closed
  moved := by
    rw [leave_container, leave_popped, moved, sound.moved, ← not_and_or, ← List.append_eq_nil_iff]
  isOpen _ entry member := by
    rcases List.mem_append.mp member with old | new
    · exact sound.isOpen isOpen entry old
    · rw [List.mem_singleton.mp new]
      exact other
  refused before answer' after split := by
    have member : (Call.close, answer') ∈ m.history ++ [(call, answer)] := by
      rw [show m.history ++ [(call, answer)] = before ++ (.close, answer') :: after from split]
      simp
    rcases List.mem_append.mp member with old | new
    · exact absurd rfl (sound.isOpen isOpen _ old)
    · exact absurd (Prod.mk.inj (List.mem_singleton.mp new)).1.symm other

/-- The queue is closed. -/
theorem Sound.close (sound : m.Sound maxSize) (isOpen : m.container.closed = false) (notified : List CondVar) :
    (m.leave thread .close (.returns { m.container with closed := true, queue := m.container.queue.clearUnsynchronized }
      notified .done)).Sound maxSize where
  size := sound.size
  proper closed := nomatch closed
  fifo closed := nomatch closed
  cleared _ := ⟨rfl, rfl⟩
  moved := by
    rw [leave_popped]
    exact sound.moved.trans (by rw [show poppedBy ((Call.close : Call α), Answer.done) = [] from rfl, List.append_nil])
  isOpen closed := nomatch closed
  refused before answer after split entry member := by
    have split : m.history ++ [(Call.close, Answer.done)] = before ++ (.close, answer) :: after := split
    rcases List.eq_nil_or_concat after with rfl | ⟨rest, last, rfl⟩
    · cases member
    · rw [List.concat_eq_append, ← List.cons_append, ← List.append_assoc] at split
      have earlier := (List.append_inj' split rfl).1
      refine absurd rfl (sound.isOpen isOpen (.close, answer) ?_)
      rw [earlier]
      simp

/-- A call that returns from a closed queue. -/
theorem Sound.returnedClosed (sound : m.Sound maxSize) (closed : m.container.closed = true)
    {container : Container α} {notified : List CondVar} {answer : Answer α} (size : container.maxSize = m.container.maxSize)
    (kept : container.closed = true) (queue : container.queue = m.container.queue) (refused : Refused answer)
    (nothing : poppedBy (call, answer) = []) :
    (m.leave thread call (.returns container notified answer)).Sound maxSize where
  size := size.trans sound.size
  proper isOpen := by
    rw [leave_container, kept] at isOpen
    cases isOpen
  fifo isOpen := by
    rw [leave_container, kept] at isOpen
    cases isOpen
  cleared _ := by
    rw [leave_container, queue]
    exact sound.cleared closed
  moved := by
    rw [leave_container, queue, leave_popped, nothing, List.append_nil]
    exact sound.moved
  isOpen isOpen := by
    rw [leave_container, kept] at isOpen
    cases isOpen
  refused before answer' after split entry member := by
    have split : m.history ++ [(call, answer)] = before ++ (.close, answer') :: after := split
    rcases List.eq_nil_or_concat after with rfl | ⟨rest, last, rfl⟩
    · cases member
    · rw [List.concat_eq_append, ← List.cons_append, ← List.append_assoc] at split
      obtain ⟨earlier, same⟩ := List.append_inj' split rfl
      rw [List.concat_eq_append, List.mem_append] at member
      rcases member with old | new
      · exact sound.refused before answer' rest earlier entry old
      · rw [List.mem_singleton.mp new, ← List.singleton_inj.mp same]
        exact refused

theorem Sound.waits (sound : m.Sound maxSize) (on : CondVar) : (m.leave thread call (.waits on)).Sound maxSize :=
  ⟨sound.size, sound.proper, sound.fifo, sound.cleared, sound.moved, sound.isOpen, sound.refused⟩

/-- A call that neither pushes nor pops anything. -/
theorem Sound.quiet (sound : m.Sound maxSize) (isOpen : m.container.closed = false) (other : call ≠ .close)
    {container : Container α} {notified : List CondVar} {answer : Answer α} (size : container.maxSize = m.container.maxSize)
    (kept : container.closed = false) (queue : container.queue = m.container.queue) (noPush : pushedBy (call, answer) = none)
    (noPop : poppedBy (call, answer) = []) : (m.leave thread call (.returns container notified answer)).Sound maxSize := by
  apply sound.returned isOpen other size kept
  · rw [queue]
    exact sound.proper isOpen
  · rw [noPush, noPop, Container.contents, Container.contents, queue]
    exact List.append_nil _
  · rw [queue, noPop]
    simp

theorem Sound.leave_open (sound : m.Sound maxSize) (isOpen : m.container.closed = false) {outcome : Outcome α}
    (enters : m.container.Enters call outcome) : (m.leave thread call outcome).Sound maxSize := by
  cases enters with
  | size =>
    exact sound.quiet isOpen (by nofun) rfl isOpen rfl rfl rfl
  | close => exact sound.close isOpen _
  | setReadOnly =>
    exact sound.quiet isOpen (by nofun) rfl isOpen rfl rfl rfl
  | unsetReadOnly =>
    exact sound.quiet isOpen (by nofun) rfl isOpen rfl rfl rfl
  | full => exact sound.waits .notFull
  | refused pushes =>
    have other : call ≠ .close := by
      rintro rfl
      cases pushes
    exact sound.quiet isOpen other rfl isOpen rfl rfl rfl
  | @pushed _ elt q notified pushes writable room queue woken =>
    have other : call ≠ .close := by
      rintro rfl
      cases pushes
    subst queue
    refine sound.returned isOpen other ?_ isOpen ((sound.proper isOpen).push elt) ?_ ?_
    · rfl
    · rw [pushedBy, pushes]
      exact (ThreadSafeQueue.contents_push elt).symm
    · exact ⟨.inl, fun moved => moved.resolve_right fun popped => popped rfl⟩
  | empty => exact sound.waits .notEmpty
  | exhausted pops =>
    have other : call ≠ .close := by
      rintro rfl
      cases pops
    exact sound.quiet isOpen other rfl isOpen rfl rfl rfl
  | @popped _ n elts q notified pops taken left proper moved still woken =>
    have other : call ≠ .close := by
      rintro rfl
      cases pops
    refine sound.returned isOpen other ?_ isOpen proper ?_ ?_
    · rfl
    · show m.container.contents ++ [] = elts ++ q.contents
      rw [List.append_nil, taken, left, List.take_append_drop]
    · show 0 < q.headIdx ↔ 0 < m.container.queue.headIdx ∨ elts ≠ []
      by_cases nothing : elts = []
      · rw [still nothing]
        simp [nothing]
      · exact iff_of_true (moved nothing) (.inr nothing)

theorem Sound.step (sound : m.Sound maxSize) (stepped : m.step action = .ok m') : m'.Sound maxSize := by
  obtain ⟨thread, call, outcome, -, entered, rfl⟩ := step_eq_ok.mp stepped
  cases closed : m.container.closed with
  | false =>
    obtain ⟨outcome', run, enters⟩ := Container.enter_open (sound.proper closed) closed call
    cases entered.symm.trans run
    exact sound.leave_open closed enters
  | true =>
    rcases Container.enter_closed call closed (sound.cleared closed) with
      ⟨-, -, failed⟩ | ⟨c', notified, answer, run, -, kept, queue, size, refused, nothing⟩
    · cases entered.symm.trans failed
    · cases entered.symm.trans run
      exact sound.returnedClosed closed size kept queue refused nothing

theorem run_sound {actions : List (Action ι α)} (ran : run maxSize actions = .ok m) : m.Sound maxSize :=
  replay_invariant (fun _ m => m.Sound maxSize) (.new maxSize) (fun _ _ _ _ sound stepped => sound.step stepped) ran

end Monitor
end KataGo.Queue
