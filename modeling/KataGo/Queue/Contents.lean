import KataGo.Queue.Container

/-! What the two vectors hold, and what a thread can do in the mutex. -/

namespace KataGo.Queue
open KataGo.Lib

variable {α : Type}

namespace ThreadSafeQueue

variable {q : ThreadSafeQueue α}

/-- The elements in the queue, the next one to be popped first. -/
def contents (q : ThreadSafeQueue α) : List α := q.eltsDequeue.drop q.headIdx ++ q.eltsEnqueue

def Proper (q : ThreadSafeQueue α) : Prop := q.headIdx ≤ q.eltsDequeue.length

theorem sizeUnsynchronized_eq (proper : q.Proper) : q.sizeUnsynchronized = .ok q.contents.length := by
  rw [sizeUnsynchronized, if_pos (show q.eltsDequeue.length ≥ q.headIdx from proper), contents, List.length_append,
    List.length_drop]

@[simp] theorem contents_push (elt : α) : (q.pushUnsynchronized elt).contents = q.contents ++ [elt] :=
  (List.append_assoc _ _ _).symm

theorem Proper.push (proper : q.Proper) (elt : α) : (q.pushUnsynchronized elt).Proper := proper

@[simp] theorem contents_clear : q.clearUnsynchronized.contents = [] := by
  rw [contents, clearUnsynchronized, List.drop_nil]
  rfl

/-- A refilled queue holds the same elements, the next one in the first vector. -/
theorem refill_eq {elt : α} {rest : List α} (holds : q.contents = elt :: rest) :
    ∃ q', q.refill = .ok q' ∧ q'.contents = elt :: rest ∧ q'.headIdx < q'.eltsDequeue.length := by
  rw [refill]
  split_ifs with exhausted loaded
  · refine ⟨_, rfl, ?_, loaded⟩
    rw [contents, List.drop_eq_nil_of_le exhausted, List.nil_append] at holds
    rw [contents, List.append_nil]
    exact holds
  · rw [contents, List.drop_eq_nil_of_le exhausted, List.nil_append] at holds
    rw [holds] at loaded
    exact absurd (Nat.succ_pos _) loaded
  · exact ⟨q, rfl, holds, Nat.lt_of_not_le exhausted⟩

/-- The first element is popped. -/
theorem popUnsynchronized_eq {elt : α} {rest : List α} (holds : q.contents = elt :: rest) :
    ∃ q', q.popUnsynchronized = .ok (elt, q') ∧ q'.contents = rest ∧ q'.Proper ∧ 0 < q'.headIdx := by
  obtain ⟨q', refilled, holds', inside⟩ := refill_eq holds
  rw [contents, List.drop_eq_getElem_cons inside, List.cons_append, List.cons.injEq] at holds'
  refine ⟨{ q' with headIdx := q'.headIdx + 1 }, ?_, holds'.2, inside, Nat.succ_pos _⟩
  have taken : q'.eltsDequeue[q'.headIdx]? = some elt := by rw [List.getElem?_eq_getElem inside, holds'.1]
  simp only [popUnsynchronized, refilled, bind, Except.bind, taken]
  rfl

theorem popMany_eq {n : Nat} (proper : q.Proper) (enough : n ≤ q.contents.length) :
    ∃ q', q.popMany n = .ok (q.contents.take n, q') ∧ q'.contents = q.contents.drop n ∧ q'.Proper ∧ (0 < n → 0 < q'.headIdx) ∧
      (n = 0 → q'.headIdx = q.headIdx) := by
  induction n generalizing q with
  | zero => exact ⟨q, rfl, rfl, proper, fun positive => absurd positive (Nat.lt_irrefl 0), fun _ => rfl⟩
  | succ n ih =>
    cases holds : q.contents with
    | nil =>
      rw [holds] at enough
      exact absurd enough (Nat.not_succ_le_zero n)
    | cons elt rest =>
      obtain ⟨q₁, popped, holds₁, proper₁, moved⟩ := popUnsynchronized_eq holds
      rw [holds, List.length_cons, Nat.succ_le_succ_iff] at enough
      obtain ⟨q', run, holds', proper', some, none⟩ := ih proper₁ (holds₁ ▸ enough)
      refine ⟨q', ?_, by rw [holds', holds₁, List.drop_succ_cons], proper', fun _ => ?_, fun zero => absurd zero (Nat.succ_ne_zero n)⟩
      · rw [popMany, popped]
        show (do
          let rest ← q₁.popMany n
          return (elt :: rest.1, rest.2) : Except Assertion _) = _
        rw [run, holds₁]
        rfl
      · rcases Nat.eq_zero_or_pos n with zero | positive
        · rw [none zero]
          exact moved
        · exact some positive

end ThreadSafeQueue

namespace Call

/-- The element that the call is to push. -/
def pushes : Call α → Option α
  | waitPush elt | forcePush elt => some elt
  | _ => none

/-- The call is to pop up to so many elements. -/
def pops : Call α → Option Nat
  | tryPop | waitPop => some 1
  | waitPopUpToN n => some n.toNat
  | _ => none

end Call

namespace Container

variable {c : Container α}

def contents (c : Container α) : List α := c.queue.contents

/-- What a thread can do in the mutex of a queue that is not closed. -/
inductive Enters (c : Container α) : Call α → Outcome α → Prop
  | size : Enters c .size (.returns c [] (.size c.contents.length))
  | close : Enters c .close
      (.returns { c with closed := true, queue := c.queue.clearUnsynchronized } [.notFull, .notEmpty] .done)
  | setReadOnly : Enters c .setReadOnly (.returns { c with readOnly := true } [.notFull, .notEmpty] .done)
  | unsetReadOnly : Enters c .unsetReadOnly (.returns { c with readOnly := false } [] .done)
  | full {elt : α} (writable : c.readOnly = false) (full : c.maxSize.toNat ≤ c.contents.length) :
      Enters c (.waitPush elt) (.waits .notFull)
  | refused {call : Call α} {elt : α} (pushes : call.pushes = some elt) (readOnly : c.readOnly = true) :
      Enters c call (.returns c [] (.pushed false))
  | pushed {call : Call α} {elt : α} {q : ThreadSafeQueue α} {notified : List CondVar} (pushes : call.pushes = some elt)
      (writable : c.readOnly = false) (room : call = .waitPush elt → c.contents.length < c.maxSize.toNat)
      (queue : q = c.queue.pushUnsynchronized elt) (woken : c.contents = [] → .notEmpty ∈ notified) :
      Enters c call (.returns { c with queue := q } notified (.pushed true))
  | empty {call : Call α} {n : Nat} (pops : call.pops = some n) (writable : c.readOnly = false) (empty : c.contents = []) :
      Enters c call (.waits .notEmpty)
  | exhausted {call : Call α} {n : Nat} (pops : call.pops = some n) (empty : c.contents = []) :
      Enters c call (.returns c [] (.popped false []))
  | popped {call : Call α} {n : Nat} {elts : List α} {q : ThreadSafeQueue α} {notified : List CondVar}
      (pops : call.pops = some n) (taken : elts = c.contents.take n) (left : q.contents = c.contents.drop n) (proper : q.Proper)
      (moved : elts ≠ [] → 0 < q.headIdx) (still : elts = [] → q.headIdx = c.queue.headIdx)
      (woken : (∀ k, call = .waitPopUpToN k → c.maxSize.toNat + k.toNat < 2 ^ 64) → c.maxSize.toNat ≤ c.contents.length →
        c.contents.length < c.maxSize.toNat + n → .notFull ∈ notified) :
      Enters c call (.returns { c with queue := q } notified (.popped true elts))

theorem push_enters (call : Call α) {elt : α} (proper : c.queue.Proper) (isOpen : c.closed = false)
    (pushes : call.pushes = some elt) (room : call = .waitPush elt → c.readOnly = false → c.contents.length < c.maxSize.toNat) :
    ∃ outcome, c.push elt = .ok outcome ∧ c.Enters call outcome := by
  cases readOnly : c.readOnly with
  | true =>
    refine ⟨.returns c [] (.pushed false), ?_, .refused pushes readOnly⟩
    rw [push, isOpen, readOnly]
    rfl
  | false =>
    refine ⟨.returns { c with queue := c.queue.pushUnsynchronized elt } (if c.contents.length + 1 = 1 then [.notEmpty] else [])
      (.pushed true), ?_, .pushed pushes readOnly (fun waits => room waits readOnly) rfl ?_⟩
    · rw [push, if_neg (by simp [isOpen, readOnly])]
      dsimp only
      rw [ThreadSafeQueue.sizeUnsynchronized_eq (proper.push elt), ThreadSafeQueue.contents_push, List.length_append]
      rfl
    · intro empty
      rw [empty]
      exact List.mem_singleton.mpr rfl

theorem pop_enters (call : Call α) (proper : c.queue.Proper) (isOpen : c.closed = false) (pops : call.pops = some 1) :
    ∃ outcome, c.pop = .ok outcome ∧ c.Enters call outcome := by
  have unfolded : c.pop = do
      if c.contents.length ≤ 0 then
        return .returns c [] (.popped false [])
      else do
        let taken ← c.queue.popUnsynchronized
        return .returns { c with queue := taken.2 } (if c.contents.length = c.maxSize.toNat then [.notFull] else [])
          (.popped true [taken.1]) := by
    rw [pop, isOpen, ThreadSafeQueue.sizeUnsynchronized_eq proper]
    rfl
  cases holds : c.contents with
  | nil =>
    refine ⟨.returns c [] (.popped false []), ?_, .exhausted pops holds⟩
    rw [unfolded, holds]
    rfl
  | cons elt rest =>
    obtain ⟨q, popped, left, proper', moved⟩ := ThreadSafeQueue.popUnsynchronized_eq holds
    refine ⟨.returns { c with queue := q } (if rest.length + 1 = c.maxSize.toNat then [.notFull] else []) (.popped true [elt]), ?_,
      .popped pops (by rw [holds]; rfl) (by rw [left, holds]; rfl) proper' (fun _ => moved) nofun ?_⟩
    · rw [unfolded, holds, popped]
      rfl
    · intro _ atLeast below
      rw [holds, List.length_cons] at atLeast below
      rw [if_pos (by omega)]
      exact List.mem_singleton.mpr rfl

theorem popUpToN_enters {n : SizeT} (proper : c.queue.Proper) (isOpen : c.closed = false) :
    ∃ outcome, c.popUpToN n = .ok outcome ∧ c.Enters (.waitPopUpToN n) outcome := by
  have unfolded : c.popUpToN n = do
      if c.contents.length ≤ 0 then
        return .returns c [] (.popped false [])
      else do
        let taken ← c.queue.popMany (min c.contents.length n.toNat)
        return .returns { c with queue := taken.2 }
          (if c.contents.length ≥ c.maxSize.toNat ∧ c.contents.length < (c.maxSize + n).toNat then [.notFull] else [])
          (.popped true taken.1) := by
    rw [popUpToN, isOpen, ThreadSafeQueue.sizeUnsynchronized_eq proper]
    rfl
  by_cases empty : c.contents = []
  · refine ⟨.returns c [] (.popped false []), ?_, .exhausted rfl empty⟩
    rw [unfolded, empty]
    rfl
  · have positive : 0 < c.contents.length := List.length_pos_iff.mpr empty
    obtain ⟨q, popped, left, proper', some, none⟩ :=
      ThreadSafeQueue.popMany_eq (n := min c.contents.length n.toNat) proper (Nat.min_le_left _ _)
    have taken : c.queue.contents.take (min c.contents.length n.toNat) = c.contents.take n.toNat := by
      rw [Nat.min_comm, List.take_eq_take_min, contents]
      simp
    have dropped : c.queue.contents.drop (min c.contents.length n.toNat) = c.contents.drop n.toNat := by
      rcases Nat.le_total n.toNat c.contents.length with small | large
      · rw [Nat.min_eq_right small]
        rfl
      · rw [Nat.min_eq_left large, List.drop_eq_nil_of_le large]
        exact List.drop_eq_nil_of_le (Nat.le_refl _)
    have zero : c.contents.take n.toNat = [] ↔ n.toNat = 0 := by simp [List.take_eq_nil_iff, empty]
    refine ⟨.returns { c with queue := q }
      (if c.contents.length ≥ c.maxSize.toNat ∧ c.contents.length < (c.maxSize + n).toNat then [.notFull] else [])
      (.popped true (c.contents.take n.toNat)), ?_, .popped rfl rfl (left.trans dropped) proper' ?_ ?_ ?_⟩
    · rw [unfolded, if_neg (by omega), popped, taken]
      rfl
    · intro nonempty
      exact some (Nat.lt_min.mpr ⟨positive, Nat.pos_of_ne_zero fun none => nonempty (zero.mpr none)⟩)
    · intro nothing
      exact none (by rw [zero.mp nothing, Nat.min_zero])
    · intro exactSum atLeast below
      have sum : (c.maxSize + n).toNat = c.maxSize.toNat + n.toNat := by
        rw [BitVec.toNat_add, Nat.mod_eq_of_lt (exactSum n rfl)]
      rw [if_pos ⟨atLeast, by omega⟩]
      exact List.mem_singleton.mpr rfl

/-- In an open queue no assertion fails. -/
theorem enter_open (proper : c.queue.Proper) (isOpen : c.closed = false) (call : Call α) :
    ∃ outcome, c.enter call = .ok outcome ∧ c.Enters call outcome := by
  have pushBlocked_eq : c.pushBlocked = .ok (!c.readOnly && decide (c.contents.length ≥ c.maxSize.toNat)) := by
    rw [pushBlocked, isOpen, ThreadSafeQueue.sizeUnsynchronized_eq proper]
    cases c.readOnly <;> rfl
  have popBlocked_eq : c.popBlocked = .ok (!c.readOnly && decide (c.contents.length ≤ 0)) := by
    rw [popBlocked, isOpen, ThreadSafeQueue.sizeUnsynchronized_eq proper]
    cases c.readOnly <;> rfl
  cases call with
  | size =>
    refine ⟨_, ?_, .size⟩
    rw [enter, ThreadSafeQueue.sizeUnsynchronized_eq proper]
    rfl
  | close => exact ⟨_, rfl, .close⟩
  | setReadOnly => exact ⟨_, rfl, .setReadOnly⟩
  | unsetReadOnly => exact ⟨_, rfl, .unsetReadOnly⟩
  | waitPush elt =>
    cases blocked : !c.readOnly && decide (c.contents.length ≥ c.maxSize.toNat) with
    | true =>
      refine ⟨.waits .notFull, ?_, ?_⟩
      · rw [enter, pushBlocked_eq, blocked]
        rfl
      · rw [Bool.and_eq_true, Bool.not_eq_true', decide_eq_true_eq] at blocked
        exact .full blocked.1 blocked.2
    | false =>
      obtain ⟨outcome, run, enters⟩ := push_enters (.waitPush elt) proper isOpen rfl (by
        intro _ writable
        rw [writable] at blocked
        exact Nat.lt_of_not_le (of_decide_eq_false blocked))
      refine ⟨outcome, ?_, enters⟩
      rw [enter, pushBlocked_eq, blocked]
      exact run
  | forcePush elt => exact push_enters (.forcePush elt) proper isOpen rfl nofun
  | tryPop => exact pop_enters .tryPop proper isOpen rfl
  | waitPop =>
    cases blocked : !c.readOnly && decide (c.contents.length ≤ 0) with
    | true =>
      refine ⟨.waits .notEmpty, ?_, ?_⟩
      · rw [enter, popBlocked_eq, blocked]
        rfl
      · rw [Bool.and_eq_true, Bool.not_eq_true', decide_eq_true_eq, Nat.le_zero, List.length_eq_zero_iff] at blocked
        exact .empty rfl blocked.1 blocked.2
    | false =>
      obtain ⟨outcome, run, enters⟩ := pop_enters .waitPop proper isOpen rfl
      refine ⟨outcome, ?_, enters⟩
      rw [enter, popBlocked_eq, blocked]
      exact run
  | waitPopUpToN n =>
    cases blocked : !c.readOnly && decide (c.contents.length ≤ 0) with
    | true =>
      refine ⟨.waits .notEmpty, ?_, ?_⟩
      · rw [enter, popBlocked_eq, blocked]
        rfl
      · rw [Bool.and_eq_true, Bool.not_eq_true', decide_eq_true_eq, Nat.le_zero, List.length_eq_zero_iff] at blocked
        exact .empty rfl blocked.1 blocked.2
    | false =>
      obtain ⟨outcome, run, enters⟩ := popUpToN_enters (n := n) proper isOpen
      refine ⟨outcome, ?_, enters⟩
      rw [enter, popBlocked_eq, blocked]
      exact run

end Container
end KataGo.Queue
