import KataGo.Lib.Replay
import Mathlib.Algebra.Group.Nat.Defs

/-! The queue of `cpp/core/threadsafequeue.h`: a monitor around two vectors. -/

namespace KataGo.Queue
open KataGo.Lib

/-- `size_t` -/
abbrev SizeT := BitVec 64

/-- The assertions of the queue, and an access behind the end of a vector. -/
inductive Assertion where
  | headPastEnd
  | nothingToPop
  | outOfRange
  deriving DecidableEq, Repr

/-- Elements leave `eltsDequeue` from `headIdx` on, and enter at the end of `eltsEnqueue`. -/
structure ThreadSafeQueue (α : Type) where
  headIdx : Nat
  eltsDequeue : List α
  eltsEnqueue : List α
  deriving DecidableEq, Repr

variable {α : Type}

namespace ThreadSafeQueue

def empty : ThreadSafeQueue α := ⟨0, [], []⟩

def pushUnsynchronized (q : ThreadSafeQueue α) (elt : α) : ThreadSafeQueue α :=
  { q with eltsEnqueue := q.eltsEnqueue ++ [elt] }

/-- What `popUnsynchronized` does before it takes an element: swap the vectors at the end of the first one. -/
def refill (q : ThreadSafeQueue α) : Except Assertion (ThreadSafeQueue α) :=
  if q.headIdx ≥ q.eltsDequeue.length then
    if q.eltsEnqueue.length > 0 then .ok ⟨0, q.eltsEnqueue, []⟩ else .error .nothingToPop
  else .ok q

def popUnsynchronized (q : ThreadSafeQueue α) : Except Assertion (α × ThreadSafeQueue α) := do
  let q ← q.refill
  match q.eltsDequeue[q.headIdx]? with
  | some elt => return (elt, { q with headIdx := q.headIdx + 1 })
  | none => .error .outOfRange

def clearUnsynchronized (q : ThreadSafeQueue α) : ThreadSafeQueue α := { q with eltsDequeue := [], eltsEnqueue := [] }

def sizeUnsynchronized (q : ThreadSafeQueue α) : Except Assertion Nat :=
  if q.eltsDequeue.length ≥ q.headIdx then .ok (q.eltsDequeue.length - q.headIdx + q.eltsEnqueue.length)
  else .error .headPastEnd

/-- The loop of `waitPopUpToN`. -/
def popMany : Nat → ThreadSafeQueue α → Except Assertion (List α × ThreadSafeQueue α)
  | 0, q => .ok ([], q)
  | n + 1, q => do
      let first ← q.popUnsynchronized
      let rest ← popMany n first.2
      return (first.1 :: rest.1, rest.2)

end ThreadSafeQueue

inductive Call (α : Type) where
  | size
  | close
  | setReadOnly
  | unsetReadOnly
  | waitPush (elt : α)
  | forcePush (elt : α)
  | tryPop
  | waitPop
  | waitPopUpToN (n : SizeT)
  deriving DecidableEq, Repr

/-- What a call returns, with the elements that it has written into the buffer of the caller. -/
inductive Answer (α : Type) where
  | done
  | size (n : Nat)
  | pushed (success : Bool)
  | popped (success : Bool) (elts : List α)
  deriving DecidableEq, Repr

/-- `notEmptyCondVar` and `notFullCondVar` -/
inductive CondVar where
  | notEmpty
  | notFull
  deriving DecidableEq, Repr

structure Container (α : Type) where
  maxSize : SizeT
  closed : Bool
  readOnly : Bool
  queue : ThreadSafeQueue α

/-- How a thread leaves the mutex: it returns, having called `notify_all` on some variables, or
it waits. -/
inductive Outcome (α : Type) where
  | returns (container : Container α) (notified : List CondVar) (answer : Answer α)
  | waits (on : CondVar)

namespace Container

def new (maxSize : SizeT) : Container α := ⟨maxSize, false, false, .empty⟩

/-- The condition on which `waitPush` waits. -/
def pushBlocked (c : Container α) : Except Assertion Bool :=
  if c.closed || c.readOnly then .ok false
  else do
    let size ← c.queue.sizeUnsynchronized
    return size ≥ c.maxSize.toNat

/-- The condition on which `waitPop` and `waitPopUpToN` wait. -/
def popBlocked (c : Container α) : Except Assertion Bool :=
  if c.closed || c.readOnly then .ok false
  else do
    let size ← c.queue.sizeUnsynchronized
    return size ≤ 0

/-- `forcePush`, and what `waitPush` does once it does not wait. -/
def push (c : Container α) (elt : α) : Except Assertion (Outcome α) :=
  if c.closed || c.readOnly then .ok (.returns c [] (.pushed false))
  else do
    let q := c.queue.pushUnsynchronized elt
    let size ← q.sizeUnsynchronized
    return .returns { c with queue := q } (if size = 1 then [.notEmpty] else []) (.pushed true)

/-- `tryPop`, and what `waitPop` does once it does not wait. -/
def pop (c : Container α) : Except Assertion (Outcome α) :=
  if c.closed then .ok (.returns c [] (.popped false []))
  else do
    let size ← c.queue.sizeUnsynchronized
    if size ≤ 0 then
      return .returns c [] (.popped false [])
    else do
      let taken ← c.queue.popUnsynchronized
      return .returns { c with queue := taken.2 } (if size = c.maxSize.toNat then [.notFull] else []) (.popped true [taken.1])

/-- What `waitPopUpToN` does once it does not wait. The sum may overflow. -/
def popUpToN (c : Container α) (n : SizeT) : Except Assertion (Outcome α) :=
  if c.closed then .ok (.returns c [] (.popped false []))
  else do
    let size ← c.queue.sizeUnsynchronized
    if size ≤ 0 then
      return .returns c [] (.popped false [])
    else do
      let taken ← c.queue.popMany (min size n.toNat)
      return .returns { c with queue := taken.2 }
        (if size ≥ c.maxSize.toNat ∧ size < (c.maxSize + n).toNat then [.notFull] else []) (.popped true taken.1)

/-- What a thread does in the mutex, when it calls and whenever it has waited. -/
def enter (c : Container α) : Call α → Except Assertion (Outcome α)
  | .size => do
      let size ← c.queue.sizeUnsynchronized
      return .returns c [] (.size size)
  | .close => .ok (.returns { c with closed := true, queue := c.queue.clearUnsynchronized } [.notFull, .notEmpty] .done)
  | .setReadOnly => .ok (.returns { c with readOnly := true } [.notFull, .notEmpty] .done)
  | .unsetReadOnly => .ok (.returns { c with readOnly := false } [] .done)
  | .waitPush elt => do
      if ← c.pushBlocked then return .waits .notFull else c.push elt
  | .forcePush elt => c.push elt
  | .tryPop => c.pop
  | .waitPop => do
      if ← c.popBlocked then return .waits .notEmpty else c.pop
  | .waitPopUpToN n => do
      if ← c.popBlocked then return .waits .notEmpty else c.popUpToN n

end Container

/-- What a thread is about. -/
inductive Status (α : Type) where
  | idle
  | waiting (call : Call α) (on : CondVar)
  | notified (call : Call α)
  deriving DecidableEq, Repr

/-- The threads around a queue, and the calls that have returned, in the order in which they did. -/
structure Monitor (ι α : Type) where
  container : Container α
  threads : ι → Status α
  history : List (Call α × Answer α)

/-- A thread makes a call, or goes on after it was notified. -/
inductive Action (ι α : Type) where
  | start (thread : ι) (call : Call α)
  | resume (thread : ι)
  deriving DecidableEq, Repr

/-- Why a run goes no further. -/
inductive Halt where
  | failed (assertion : Assertion)
  | notEnabled
  deriving DecidableEq, Repr

/-- `notify_all` -/
def Status.notify (vars : List CondVar) : Status α → Status α
  | .waiting call on => if on ∈ vars then .notified call else .waiting call on
  | status => status

namespace Monitor

variable {ι : Type} [DecidableEq ι]

def new (maxSize : SizeT) : Monitor ι α := ⟨.new maxSize, fun _ => .idle, []⟩

omit [DecidableEq ι] in
/-- The thread that takes the step, and its call. -/
def entering (m : Monitor ι α) : Action ι α → Option (ι × Call α)
  | .start thread call =>
      match m.threads thread with
      | .idle => some (thread, call)
      | _ => none
  | .resume thread =>
      match m.threads thread with
      | .notified call => some (thread, call)
      | _ => none

/-- A thread leaves the mutex. -/
def leave (m : Monitor ι α) (thread : ι) (call : Call α) : Outcome α → Monitor ι α
  | .returns container notified answer =>
      ⟨container, Function.update (fun t => (m.threads t).notify notified) thread .idle, m.history ++ [(call, answer)]⟩
  | .waits on => { m with threads := Function.update m.threads thread (.waiting call on) }

def step (m : Monitor ι α) (action : Action ι α) : Except Halt (Monitor ι α) :=
  match m.entering action with
  | none => .error .notEnabled
  | some (thread, call) =>
      match m.container.enter call with
      | .error assertion => .error (.failed assertion)
      | .ok outcome => .ok (m.leave thread call outcome)

/-- The threads take steps in any order. -/
def run (maxSize : SizeT) (actions : List (Action ι α)) : Except Halt (Monitor ι α) := replay step (new maxSize) actions

end Monitor
end KataGo.Queue
