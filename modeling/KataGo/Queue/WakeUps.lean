import KataGo.Queue.Runs

/-! A queue that is not closed: its elements leave it in the order in which they enter, and no
thread waits for what is already there. -/

namespace KataGo.Queue
open KataGo.Lib

variable {ι α : Type}

namespace Monitor

section Waiting

variable {m : Monitor ι α}

/-- Blocked in `waitPush`, and not notified. -/
def WaitsToPush (m : Monitor ι α) (thread : ι) : Prop := ∃ elt on, m.threads thread = .waiting (.waitPush elt) on

/-- Blocked in `waitPop` or `waitPopUpToN`, and not notified. -/
def WaitsToPop (m : Monitor ι α) (thread : ι) : Prop :=
  ∃ call on n, m.threads thread = .waiting call on ∧ call.pops = some n

/-- The step pops up to so many elements that the sum with `maxSize` overflows, from a full queue
to which some thread waits to push. -/
def LosesWakeUp (m : Monitor ι α) (action : Action ι α) : Prop :=
  (∃ thread n, m.entering action = some (thread, .waitPopUpToN n) ∧ 2 ^ 64 ≤ m.container.maxSize.toNat + n.toNat) ∧
    m.container.maxSize.toNat ≤ m.container.contents.length ∧ ∃ thread, m.WaitsToPush thread

/-- What threads wait for is not there. -/
structure Awake (m : Monitor ι α) : Prop where
  push : ∀ thread elt on, m.threads thread = .waiting (.waitPush elt) on →
    on = .notFull ∧ m.container.readOnly = false ∧ m.container.maxSize.toNat ≤ m.container.contents.length
  pop : ∀ thread call on n, m.threads thread = .waiting call on → call.pops = some n →
    on = .notEmpty ∧ m.container.readOnly = false ∧ m.container.contents = []

variable [DecidableEq ι] {thread other : ι} {call call' : Call α} {on : CondVar}

theorem leave_waiting {container : Container α} {notified : List CondVar} {answer : Answer α}
    (waiting : (m.leave thread call (.returns container notified answer)).threads other = .waiting call' on) :
    m.threads other = .waiting call' on ∧ on ∉ notified := by
  change Function.update (fun t => (m.threads t).notify notified) thread .idle other = _ at waiting
  by_cases same : other = thread
  · rw [same, Function.update_self] at waiting
    cases waiting
  · rw [Function.update_of_ne same] at waiting
    cases status : m.threads other with
    | idle | notified =>
      rw [status] at waiting
      cases waiting
    | waiting call₁ on₁ =>
      rw [status] at waiting
      change (if on₁ ∈ notified then Status.notified call₁ else .waiting call₁ on₁) = _ at waiting
      split_ifs at waiting with woken
      cases waiting
      exact ⟨rfl, woken⟩

/-- A call that returns wakes those threads whose condition it changes. -/
theorem Awake.returned (awake : m.Awake) {container : Container α} {notified : List CondVar} {answer : Answer α}
    (push : .notFull ∉ notified → (∃ other, m.WaitsToPush other) → m.container.readOnly = false →
      m.container.maxSize.toNat ≤ m.container.contents.length →
        container.readOnly = false ∧ container.maxSize.toNat ≤ container.contents.length)
    (pop : .notEmpty ∉ notified → m.container.readOnly = false → m.container.contents = [] →
      container.readOnly = false ∧ container.contents = []) :
    (m.leave thread call (.returns container notified answer)).Awake where
  push other elt on waiting := by
    obtain ⟨waited, unwoken⟩ := leave_waiting waiting
    obtain ⟨rfl, writable, full⟩ := awake.push other elt on waited
    exact ⟨rfl, push unwoken ⟨other, elt, _, waited⟩ writable full⟩
  pop other call' on n waiting pops := by
    obtain ⟨waited, unwoken⟩ := leave_waiting waiting
    obtain ⟨rfl, writable, empty⟩ := awake.pop other call' on n waited pops
    exact ⟨rfl, pop unwoken writable empty⟩

theorem Awake.waits (awake : m.Awake)
    (push : ∀ elt, call = .waitPush elt → on = .notFull ∧ m.container.readOnly = false ∧
      m.container.maxSize.toNat ≤ m.container.contents.length)
    (pop : ∀ n, call.pops = some n → on = .notEmpty ∧ m.container.readOnly = false ∧ m.container.contents = []) :
    (m.leave thread call (.waits on)).Awake where
  push other elt on' waiting := by
    change Function.update m.threads thread (.waiting call on) other = _ at waiting
    by_cases same : other = thread
    · rw [same, Function.update_self] at waiting
      cases waiting
      exact push elt rfl
    · rw [Function.update_of_ne same] at waiting
      exact awake.push other elt on' waiting
  pop other call' on' n waiting pops := by
    change Function.update m.threads thread (.waiting call on) other = _ at waiting
    by_cases same : other = thread
    · rw [same, Function.update_self] at waiting
      cases waiting
      exact pop n pops
    · rw [Function.update_of_ne same] at waiting
      exact awake.pop other call' on' n waiting pops

theorem Awake.leave (awake : m.Awake) {outcome : Outcome α} (enters : m.container.Enters call outcome)
    (exactSum : (∃ other, m.WaitsToPush other) → m.container.maxSize.toNat ≤ m.container.contents.length →
      ∀ k, call = .waitPopUpToN k → m.container.maxSize.toNat + k.toNat < 2 ^ 64)
    (stays : call ≠ .close) : (m.leave thread call outcome).Awake := by
  cases enters with
  | size => exact awake.returned (fun _ _ writable full => ⟨writable, full⟩) fun _ writable empty => ⟨writable, empty⟩
  | close => exact absurd rfl stays
  | setReadOnly => exact awake.returned (fun unwoken => absurd (by simp) unwoken) fun unwoken => absurd (by simp) unwoken
  | unsetReadOnly => exact awake.returned (fun _ _ _ full => ⟨rfl, full⟩) fun _ _ empty => ⟨rfl, empty⟩
  | full writable full => exact awake.waits (fun _ _ => ⟨rfl, writable, full⟩) nofun
  | refused => exact awake.returned (fun _ _ writable full => ⟨writable, full⟩) fun _ writable empty => ⟨writable, empty⟩
  | pushed pushes writable room queue woken =>
    subst queue
    refine awake.returned (fun _ _ _ full => ⟨writable, ?_⟩) fun unwoken _ empty => absurd (woken empty) unwoken
    show m.container.maxSize.toNat ≤ (m.container.queue.pushUnsynchronized _).contents.length
    rw [ThreadSafeQueue.contents_push, List.length_append]
    exact Nat.le_add_right_of_le full
  | empty pops writable empty =>
    refine awake.waits ?_ fun _ _ => ⟨rfl, writable, empty⟩
    rintro elt rfl
    cases pops
  | exhausted => exact awake.returned (fun _ _ writable full => ⟨writable, full⟩) fun _ writable empty => ⟨writable, empty⟩
  | @popped _ n elts q notified pops taken left proper moved still woken =>
    refine awake.returned (fun unwoken waits writable full => ⟨writable, ?_⟩) fun _ writable empty => ⟨writable, ?_⟩
    · show m.container.maxSize.toNat ≤ q.contents.length
      rw [left, List.length_drop]
      have enough : ¬ m.container.contents.length < m.container.maxSize.toNat + n :=
        fun below => unwoken (woken (exactSum waits full) full below)
      omega
    · show q.contents = []
      rw [left, empty, List.drop_nil]

end Waiting

section Runs

variable [DecidableEq ι] {m m' : Monitor ι α} {maxSize : SizeT} {action : Action ι α} {actions : List (Action ι α)}

/-- Nobody has called `close`. -/
structure Unclosed (m : Monitor ι α) : Prop where
  container : m.container.closed = false
  waiting : ∀ thread on, m.threads thread ≠ .waiting .close on
  notified : ∀ thread, m.threads thread ≠ .notified .close

omit [DecidableEq ι] in
theorem Unclosed.entering_ne (unclosed : m.Unclosed) (other : ∀ thread, action ≠ .start thread .close) {thread : ι}
    {call : Call α} (entering : m.entering action = some (thread, call)) : call ≠ .close := by
  rintro rfl
  rcases entering_eq_some.mp entering with ⟨started, -⟩ | ⟨-, notified⟩
  · exact other thread started
  · exact unclosed.notified thread notified

theorem Unclosed.step (unclosed : m.Unclosed) (sound : m.Sound maxSize) (other : ∀ thread, action ≠ .start thread .close)
    (stepped : m.step action = .ok m') : m'.Unclosed := by
  obtain ⟨thread, call, outcome, entering, entered, rfl⟩ := step_eq_ok.mp stepped
  have stays := unclosed.entering_ne other entering
  obtain ⟨outcome', run, enters⟩ := Container.enter_open (sound.proper unclosed.container) unclosed.container call
  cases entered.symm.trans run
  cases outcome with
  | waits on =>
    refine ⟨unclosed.container, fun t on' => ?_, fun t => ?_⟩
    all_goals
      show Function.update m.threads thread (.waiting call on) t ≠ _
      by_cases same : t = thread
      · rw [same, Function.update_self]
        simp [stays]
      · rw [Function.update_of_ne same]
        simp [unclosed.waiting, unclosed.notified]
  | returns container notified answer =>
    refine ⟨?_, fun t on' waiting => unclosed.waiting t on' (leave_waiting waiting).1, fun t => ?_⟩
    · cases enters with
      | close => exact absurd rfl stays
      | size | setReadOnly | unsetReadOnly | refused | pushed | exhausted | popped => exact unclosed.container
    · show Function.update (fun t => (m.threads t).notify notified) thread .idle t ≠ _
      by_cases same : t = thread
      · rw [same, Function.update_self]
        exact nofun
      · rw [Function.update_of_ne same]
        cases status : m.threads t with
        | idle => exact nofun
        | notified call' =>
          intro same'
          exact unclosed.notified t (status.trans same')
        | waiting call' on =>
          show (if on ∈ notified then Status.notified call' else .waiting call' on) ≠ _
          split_ifs
          · rintro ⟨⟩
            exact unclosed.waiting t on status
          · exact nofun

/-- No step of the run loses a wake-up. -/
def KeepsWakeUps (maxSize : SizeT) (actions : List (Action ι α)) : Prop :=
  ∀ before action rest m, actions = before ++ action :: rest → run maxSize before = .ok m → ¬ m.LosesWakeUp action

theorem Awake.step (awake : m.Awake) (sound : m.Sound maxSize) (unclosed : m.Unclosed)
    (other : ∀ thread, action ≠ .start thread .close) (keeps : ¬ m.LosesWakeUp action) (stepped : m.step action = .ok m') :
    m'.Awake := by
  obtain ⟨thread, call, outcome, entering, entered, rfl⟩ := step_eq_ok.mp stepped
  obtain ⟨outcome', run, enters⟩ := Container.enter_open (sound.proper unclosed.container) unclosed.container call
  cases entered.symm.trans run
  refine awake.leave enters ?_ (unclosed.entering_ne other entering)
  rintro waits full k rfl
  by_contra overflow
  exact keeps ⟨⟨thread, k, entering, Nat.le_of_not_lt overflow⟩, full, waits⟩

theorem run_open (noClose : ∀ action ∈ actions, ∀ thread, action ≠ .start thread .close) (ran : run maxSize actions = .ok m) :
    m.Unclosed ∧ (KeepsWakeUps maxSize actions → m.Awake) := by
  induction actions using List.reverseRecOn generalizing m with
  | nil =>
    cases ran
    exact ⟨⟨rfl, nofun, nofun⟩, fun _ => ⟨nofun, nofun⟩⟩
  | append_singleton before action ih =>
    obtain ⟨m₁, ran₁, stepped⟩ := replay_concat.mp ran
    obtain ⟨unclosed, awake⟩ := ih (fun earlier member => noClose earlier (List.mem_append_left _ member)) ran₁
    have other := noClose action (by simp)
    refine ⟨unclosed.step (run_sound ran₁) other stepped, fun keeps => ?_⟩
    have earlier : KeepsWakeUps maxSize before := by
      rintro front action' rest m' rfl
      exact keeps front action' (rest ++ [action]) m' (by simp)
    exact (awake earlier).step (run_sound ran₁) unclosed other (keeps before action [] m₁ rfl ran₁) stepped

omit [DecidableEq ι] in
theorem Sound.length_eq (sound : m.Sound maxSize) (isOpen : m.container.closed = false) :
    m.pushed.length - m.popped.length = m.container.contents.length := by
  rw [sound.fifo isOpen, List.length_append, Nat.add_sub_cancel_left]

/-- A `waitPush` that pushes leaves at most `maxSize` elements. -/
theorem waitPush_le {thread : ι} {elt : α} (sound : m.Sound maxSize) (isOpen : m.container.closed = false)
    (entering : m.entering action = some (thread, .waitPush elt)) (stepped : m.step action = .ok m') :
    m'.pushed = m.pushed ∨ m'.pushed.length - m'.popped.length ≤ maxSize.toNat := by
  obtain ⟨thread', call, outcome, entering', entered, rfl⟩ := step_eq_ok.mp stepped
  cases entering.symm.trans entering'
  obtain ⟨outcome', run, enters⟩ := Container.enter_open (sound.proper isOpen) isOpen (.waitPush elt)
  cases entered.symm.trans run
  cases enters with
  | full => exact .inl rfl
  | refused =>
    rw [leave_pushed]
    exact .inl (List.append_nil _)
  | pushed pushes writable room queue =>
    cases pushes
    subst queue
    have below := room rfl
    rw [sound.size] at below
    right
    rw [(sound.step stepped).length_eq isOpen]
    show (m.container.queue.pushUnsynchronized elt).contents.length ≤ _
    rw [ThreadSafeQueue.contents_push, List.length_append]
    exact below
  | empty pops | exhausted pops | popped pops => cases pops

/-- Without `close`: no assertion fails; what has been popped is a prefix of what has been pushed, and
the size is the difference; a `waitPush` that pushes leaves at most `maxSize` elements; and unless a
step loses a wake-up, no thread waits to push while there is room or to pop while there is
something to pop, nor in a queue that is read-only. -/
theorem run_lossless (maxSize : SizeT) (actions : List (Action ι α))
    (noClose : ∀ action ∈ actions, ∀ thread, action ≠ .start thread .close) :
    (∀ assertion, run maxSize actions ≠ .error (.failed assertion)) ∧
    ∀ m, run maxSize actions = .ok m →
      (m.popped <+: m.pushed ∧ m.container.queue.sizeUnsynchronized = .ok (m.pushed.length - m.popped.length)) ∧
      (∀ action thread elt m', m.entering action = some (thread, .waitPush elt) → m.step action = .ok m' →
        m'.pushed = m.pushed ∨ m'.pushed.length - m'.popped.length ≤ maxSize.toNat) ∧
      (KeepsWakeUps maxSize actions →
        (∀ thread, m.WaitsToPush thread → maxSize.toNat ≤ m.pushed.length - m.popped.length ∧ m.container.readOnly = false) ∧
        ∀ thread, m.WaitsToPop thread → m.pushed.length - m.popped.length = 0 ∧ m.container.readOnly = false) := by
  constructor
  · intro assertion failed
    obtain ⟨before, action, rest, m, rfl, ran, failed⟩ := replay_eq_error.mp failed
    have isOpen := (run_open (fun earlier member => noClose earlier (List.mem_append_left _ member)) ran).1.container
    obtain ⟨thread, call, -, failed⟩ := step_eq_failed.mp failed
    obtain ⟨outcome, entered, -⟩ := Container.enter_open ((run_sound ran).proper isOpen) isOpen call
    cases failed.symm.trans entered
  · intro m ran
    have sound := run_sound ran
    obtain ⟨unclosed, awake⟩ := run_open noClose ran
    have isOpen := unclosed.container
    refine ⟨⟨?_, ?_⟩, fun _ _ _ _ entering stepped => waitPush_le sound isOpen entering stepped, fun keeps => ⟨?_, ?_⟩⟩
    · rw [sound.fifo isOpen]
      exact List.prefix_append _ _
    · rw [ThreadSafeQueue.sizeUnsynchronized_eq (sound.proper isOpen), sound.length_eq isOpen]
      rfl
    · rintro thread ⟨elt, on, waits⟩
      obtain ⟨-, writable, full⟩ := (awake keeps).push thread elt on waits
      rw [sound.length_eq isOpen, ← sound.size]
      exact ⟨full, writable⟩
    · rintro thread ⟨call, on, n, waits, pops⟩
      obtain ⟨-, writable, empty⟩ := (awake keeps).pop thread call on n waits pops
      rw [sound.length_eq isOpen, empty]
      exact ⟨rfl, writable⟩

section Sample

/-- A thread waits to push into a queue of one element, which another thread pops. -/
def popOne (pop : Call Nat) : List (Action Bool Nat) :=
  [.start true (.waitPush 1), .start false (.waitPush 2), .start true pop]

/-- The popped element makes room, and no thread waits for it. -/
theorem run_lossless_pop_one : ∃ m, run 1 (popOne .waitPop) = .ok m ∧ m.container.contents = [] ∧
    m.popped <+: m.pushed ∧ ∀ thread, ¬ m.WaitsToPush thread := by
  obtain ⟨-, lossless⟩ := run_lossless 1 (popOne .waitPop) (by simp [popOne])
  obtain ⟨m, ran, empty, count⟩ : ∃ m, run 1 (popOne .waitPop) = .ok m ∧ m.container.contents = [] ∧
      m.pushed.length - m.popped.length = 0 := ⟨_, rfl, rfl, rfl⟩
  obtain ⟨⟨before, -⟩, -, awake⟩ := lossless m ran
  refine ⟨m, ran, empty, before, fun thread waits => ?_⟩
  have keeps : KeepsWakeUps 1 (popOne .waitPop) := by
    rintro before action rest m' split ran' ⟨⟨thread', n, entering, -⟩, -⟩
    have member : action ∈ popOne .waitPop := by
      rw [split]
      simp
    rcases entering_eq_some.mp entering with ⟨rfl, -⟩ | ⟨rfl, -⟩
    · simp [popOne] at member
    · simp [popOne] at member
  have full := ((awake keeps).1 thread waits).1
  rw [count] at full
  exact absurd full (by decide)

/-- With the largest count the queue is empty, and the other thread still waits to push. -/
theorem run_lost_wake_up : ∃ m, run 1 (popOne (.waitPopUpToN (BitVec.allOnes 64))) = .ok m ∧
    m.container.queue.sizeUnsynchronized = .ok 0 ∧ m.container.readOnly = false ∧ m.WaitsToPush false :=
  ⟨_, rfl, rfl, rfl, 2, .notFull, rfl⟩

end Sample

end Runs
end Monitor
end KataGo.Queue
