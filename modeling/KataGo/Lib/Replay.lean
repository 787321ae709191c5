import Mathlib.Data.List.Forall2
import Mathlib.Data.List.Infix

/-! Computations that may raise an error, and logs replayed through a checked step. -/

namespace KataGo.Lib

variable {ε α β σ τ : Type}

/-- Raise the error unless the condition holds. -/
def require (condition : Prop) [Decidable condition] (error : ε) : Except ε Unit :=
  if condition then .ok () else .error error

theorem bind_eq_ok {x : Except ε α} {f : α → Except ε β} {b : β} :
    (x >>= f) = .ok b ↔ ∃ a, x = .ok a ∧ f a = .ok b := by
  cases x with
  | error e =>
    constructor
    · intro result
      cases result
    · rintro ⟨a, impossible, -⟩
      cases impossible
  | ok a =>
    constructor
    · intro result
      exact ⟨a, rfl, result⟩
    · rintro ⟨a', same, result⟩
      cases same
      exact result

theorem require_eq_ok {condition : Prop} [Decidable condition] {error : ε} {u : Unit} :
    require condition error = .ok u ↔ condition := by
  unfold require
  by_cases holds : condition
  · simp [holds]
  · simp [holds]

theorem mapM_eq_ok {f : α → Except ε β} {xs : List α} {ys : List β} :
    xs.mapM f = .ok ys ↔ List.Forall₂ (fun x y => f x = .ok y) xs ys := by
  induction xs generalizing ys with
  | nil =>
    rw [List.mapM_nil, List.forall₂_nil_left_iff]
    constructor
    · intro result
      cases result
      rfl
    · rintro rfl
      rfl
  | cons x xs ih =>
    rw [List.mapM_cons, bind_eq_ok, List.forall₂_cons_left_iff]
    constructor
    · rintro ⟨y, head, rest⟩
      obtain ⟨tail, ends, result⟩ := bind_eq_ok.mp rest
      cases result
      exact ⟨y, tail, head, ih.mp ends, rfl⟩
    · rintro ⟨y, tail, head, ends, rfl⟩
      exact ⟨y, head, bind_eq_ok.mpr ⟨tail, ih.mpr ends, rfl⟩⟩

/-- A list is what is read from its elements one by one, each being put behind those before it. -/
theorem foldlM_concat {step : List α → τ → Except ε (List α)} {encode : α → τ} {xs : List α}
    (reads : ∀ before x after, xs = before ++ x :: after → step before (encode x) = .ok (before ++ [x])) :
    (xs.map encode).foldlM step [] = .ok xs := by
  have rest : ∀ after before, xs = before ++ after → (after.map encode).foldlM step before = .ok xs := by
    intro after
    induction after with
    | nil =>
      intro before whole
      rw [List.append_nil] at whole
      exact congrArg Except.ok whole.symm
    | cons x after ih =>
      intro before whole
      rw [List.map_cons, List.foldlM_cons, reads before x after whole]
      exact ih (before ++ [x]) (by simp [whole])
  exact rest xs [] rfl

/-- The state after every event of a log, if no step raises an error. -/
def replay (step : σ → τ → Except ε σ) (s : σ) (log : List τ) : Except ε σ := log.foldlM step s

section Replay

variable {step : σ → τ → Except ε σ} {s s' : σ} {e : τ} {log rest : List τ}

@[simp] theorem replay_nil : replay step s [] = .ok s := rfl

theorem replay_cons : replay step s (e :: log) = .ok s' ↔ ∃ s₁, step s e = .ok s₁ ∧ replay step s₁ log = .ok s' := by
  rw [replay, List.foldlM_cons, bind_eq_ok]
  rfl

theorem replay_append :
    replay step s (log ++ rest) = .ok s' ↔ ∃ s₁, replay step s log = .ok s₁ ∧ replay step s₁ rest = .ok s' := by
  rw [replay, List.foldlM_append, bind_eq_ok]
  rfl

theorem replay_concat : replay step s (log ++ [e]) = .ok s' ↔ ∃ s₁, replay step s log = .ok s₁ ∧ step s₁ e = .ok s' := by
  rw [replay_append]
  constructor
  · rintro ⟨s₁, before, last⟩
    obtain ⟨s₂, last, same⟩ := replay_cons.mp last
    cases same
    exact ⟨s₁, before, last⟩
  · rintro ⟨s₁, before, last⟩
    exact ⟨s₁, before, replay_cons.mpr ⟨s', last, rfl⟩⟩

/-- A replay stops at the first event that raises an error. -/
theorem replay_eq_error {error : ε} : replay step s log = .error error ↔
    ∃ before e rest s₁, log = before ++ e :: rest ∧ replay step s before = .ok s₁ ∧ step s₁ e = .error error := by
  induction log generalizing s with
  | nil =>
    constructor
    · intro failed
      cases failed
    · rintro ⟨before, e, rest, s₁, split, -⟩
      simp at split
  | cons first log ih =>
    have unfolded : replay step s (first :: log) = step s first >>= fun s => replay step s log := List.foldlM_cons
    cases stepped : step s first with
    | error error' =>
      rw [unfolded, stepped]
      constructor
      · intro failed
        cases failed
        exact ⟨[], first, log, s, rfl, rfl, stepped⟩
      · rintro ⟨before, e, rest, s₁, split, ran, failed⟩
        cases before with
        | nil =>
          cases split
          cases ran
          exact stepped.symm.trans failed
        | cons _ before =>
          cases split
          obtain ⟨s₂, again, -⟩ := replay_cons.mp ran
          cases stepped.symm.trans again
    | ok s₂ =>
      rw [unfolded, stepped]
      refine ih.trans ?_
      constructor
      · rintro ⟨before, e, rest, s₁, rfl, ran, failed⟩
        exact ⟨first :: before, e, rest, s₁, rfl, replay_cons.mpr ⟨s₂, stepped, ran⟩, failed⟩
      · rintro ⟨before, e, rest, s₁, split, ran, failed⟩
        cases before with
        | nil =>
          cases split
          cases ran
          cases stepped.symm.trans failed
        | cons _ before =>
          cases split
          obtain ⟨s₃, again, ran⟩ := replay_cons.mp ran
          cases stepped.symm.trans again
          exact ⟨before, e, rest, s₁, rfl, ran, failed⟩

/-- What holds at the start and is kept by each accepted event, with the log so far, holds
after the whole log. -/
theorem replay_invariant (Inv : List τ → σ → Prop) (start : Inv [] s)
    (kept : ∀ log e s₁ s₂, Inv log s₁ → step s₁ e = .ok s₂ → Inv (log ++ [e]) s₂)
    (accepted : replay step s log = .ok s') : Inv log s' := by
  induction log using List.reverseRecOn generalizing s' with
  | nil =>
    cases accepted
    exact start
  | append_singleton log e ih =>
    obtain ⟨s₁, before, last⟩ := replay_concat.mp accepted
    exact kept log e s₁ s' (ih before) last

/-- A step that accepts as much, with the same results. -/
theorem replay_mono {step' : σ → τ → Except ε σ} (more : ∀ s e s₁, step s e = .ok s₁ → step' s e = .ok s₁)
    (accepted : replay step s log = .ok s') : replay step' s log = .ok s' := by
  induction log generalizing s with
  | nil => exact accepted
  | cons e log ih =>
    obtain ⟨s₁, first, rest⟩ := replay_cons.mp accepted
    exact replay_cons.mpr ⟨s₁, more s e s₁ first, ih rest⟩

end Replay
end KataGo.Lib
