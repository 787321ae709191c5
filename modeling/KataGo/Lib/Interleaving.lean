import KataGo.Lib.Loops
import Mathlib.Algebra.BigOperators.Fin
import Mathlib.Algebra.BigOperators.Group.Finset.Piecewise
import Mathlib.Algebra.Order.BigOperators.Group.Finset

/-! Threads that take their steps in any order. Each thread has a state of its own, and all of them share one more. -/

namespace KataGo.Lib

/-- The shared state, and what each thread has for itself. -/
structure Threads (ι σ τ : Type) where
  shared : σ
  locals : ι → τ

namespace Threads

variable {ι α σ τ : Type} [DecidableEq ι] {act : ι → α → σ → τ → Option (σ × τ)} {w w' : Threads ι σ τ}
  {schedule : List (ι × α)} {event : ι × α}

/-- A thread takes a step, if it need not wait and has not ended. The environment may make a choice for it. -/
def step (act : ι → α → σ → τ → Option (σ × τ)) (w : Threads ι σ τ) (event : ι × α) : Option (Threads ι σ τ) :=
  (act event.1 event.2 w.shared (w.locals event.1)).map fun next => ⟨next.1, Function.update w.locals event.1 next.2⟩

def run (act : ι → α → σ → τ → Option (σ × τ)) (w : Threads ι σ τ) (schedule : List (ι × α)) : Option (Threads ι σ τ) :=
  schedule.foldlM (step act) w

theorem step_eq_some : step act w event = some w' ↔
    ∃ s l, act event.1 event.2 w.shared (w.locals event.1) = some (s, l) ∧
    w' = ⟨s, Function.update w.locals event.1 l⟩ := by
  rw [step, Option.map_eq_some_iff]
  constructor
  · intro ⟨⟨s, l⟩, taken, same⟩
    exact ⟨s, l, taken, same.symm⟩
  · intro ⟨s, l, taken, same⟩
    exact ⟨(s, l), taken, same.symm⟩

@[simp] theorem run_nil : run act w [] = some w := rfl

theorem run_cons : run act w (event :: schedule) = (step act w event).bind fun w => run act w schedule := rfl

/-- What every step keeps holds after every run. -/
theorem run_invariant (I : Threads ι σ τ → Prop) (keeps : ∀ w event w', I w → step act w event = some w' → I w')
    (ran : run act w schedule = some w') (start : I w) : I w' := by
  induction schedule generalizing w with
  | nil =>
    cases ran
    exact start
  | cons event schedule ih =>
    obtain ⟨w₁, first, rest⟩ := Option.bind_eq_some_iff.mp ran
    exact ih rest (keeps w event w₁ start first)

/-- Runs are no longer than the work that each of their steps uses up. -/
theorem run_bounded (I : Threads ι σ τ → Prop) (work : Threads ι σ τ → Nat)
    (keeps : ∀ w event w', I w → step act w event = some w' → I w' ∧ work w' < work w)
    (ran : run act w schedule = some w') (start : I w) : schedule.length + work w' ≤ work w := by
  induction schedule generalizing w with
  | nil =>
    cases ran
    simp
  | cons event schedule ih =>
    obtain ⟨w₁, first, rest⟩ := Option.bind_eq_some_iff.mp ran
    have one := keeps w event w₁ start first
    have others := ih rest one.1
    rw [List.length_cons]
    omega

/-- What holds of the thread that takes the step, and still of the others, holds of all. -/
theorem forall_update {P : ι → τ → Prop} {locals : ι → τ} {t : ι} {l : τ} (mine : P t l)
    (others : ∀ u, u ≠ t → P u (locals u)) (u : ι) : P u (Function.update locals t l u) := by
  by_cases same : u = t
  · rw [same, Function.update_self]
    exact mine
  · rw [Function.update_of_ne same]
    exact others u same

/-- A sum of the threads' parts changes by the part of the thread that takes the step. -/
theorem sum_update [Fintype ι] {M : Type} [AddCommMonoid M] (part : τ → M) (locals : ι → τ) (t : ι) (l : τ) :
    (∑ u, part (Function.update locals t l u)) + part (locals t) = (∑ u, part (locals u)) + part l := by
  have split (f : ι → M) : ∑ u, f u = (∑ u ∈ Finset.univ.erase t, f u) + f t :=
    (Finset.sum_erase_add _ _ (Finset.mem_univ t)).symm
  have others : ∑ u ∈ Finset.univ.erase t, part (Function.update locals t l u) =
      ∑ u ∈ Finset.univ.erase t, part (locals u) := by
    apply Finset.sum_congr rfl
    intro u member
    rw [Function.update_of_ne (Finset.ne_of_mem_erase member)]
  rw [split fun u => part (Function.update locals t l u), split fun u => part (locals u), others, Function.update_self]
  exact add_right_comm _ _ _

/-- Where the parts add up to one at most, a thread that has a part is the only one. -/
theorem others_none [Fintype ι] {p : τ → Nat} {locals : ι → τ} {t u : ι} (most : ∑ u, p (locals u) ≤ 1)
    (has : 1 ≤ p (locals t)) (other : u ≠ t) : p (locals u) = 0 := by
  have split := Finset.sum_erase_add Finset.univ (fun u => p (locals u)) (Finset.mem_univ t)
  have below := Finset.single_le_sum (f := fun u => p (locals u)) (fun _ _ => Nat.zero_le _)
    (Finset.mem_erase.mpr ⟨other, Finset.mem_univ u⟩)
  omega

end Threads
end KataGo.Lib
