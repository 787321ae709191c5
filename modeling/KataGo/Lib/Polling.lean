import KataGo.Lib.Effects
import Mathlib.Algebra.Order.Floor.Semiring
import Mathlib.Data.Rat.Floor
import Mathlib.Tactic.Linarith

/-! Programs that catch errors and that poll until a deadline, and which of their runs have an effect
of a given kind. -/

namespace KataGo.Lib

section Programs

variable {E σ ε α β τ : Type} [Acts E σ] {s : σ}

namespace Program

/-- A block with a handler for its errors. -/
def catch_ (x : Program E σ ε α) (handler : ε → Program E σ ε α) : Program E σ ε α := fun s =>
  match (x s).result with
  | .ok _ => x s
  | .error error =>
      let last := handler error (after s (x s).effects)
      ⟨(x s).effects ++ last.effects, last.result⟩

/-- A clock that a pause moves on by at least its length. -/
structure Clock (E σ : Type) [Acts E σ] where
  read : σ → ℚ
  pause : ℚ → E
  passes : ∀ s length, read s + length ≤ read (Acts.act (pause length) s)

namespace Clock

variable (clock : Clock E σ)

/-- A bound on the pauses that are left before the deadline. -/
def left (interval deadline : ℚ) (s : σ) : Nat := ⌈(deadline - clock.read s) / interval⌉₊

theorem left_pause {interval deadline : ℚ} (positive : 0 < interval) (early : ¬ deadline ≤ clock.read s) :
    clock.left interval deadline (Acts.act (clock.pause interval) s) < clock.left interval deadline s := by
  have later := clock.passes s interval
  have some_ : 0 < (deadline - clock.read s) / interval := div_pos (by linarith) positive
  have shorter : (deadline - clock.read (Acts.act (clock.pause interval) s)) / interval ≤
      (deadline - clock.read s) / interval - 1 := by
    rw [div_le_iff₀ positive, sub_mul, div_mul_cancel₀ _ positive.ne', one_mul]
    linarith
  have atLeast : 1 ≤ clock.left interval deadline s := Nat.ceil_pos.2 some_
  have bound : clock.left interval deadline (Acts.act (clock.pause interval) s) ≤ clock.left interval deadline s - 1 := by
    refine Nat.ceil_le.2 (shorter.trans ?_)
    rw [Nat.cast_sub atLeast, Nat.cast_one]
    exact sub_le_sub_right (Nat.le_ceil _) 1
  omega

end Clock

/-- A loop that looks, with some variables of its own, until it has its answer or the deadline is
over, and pauses between two looks. -/
def poll (clock : Clock E σ) (interval : { d : ℚ // 0 < d }) (deadline : ℚ) (expired : ε) (look : τ → σ → τ ⊕ α)
    (t : τ) (s : σ) : Outcome E ε α :=
  match look t s with
  | .inr a => ⟨[], .ok a⟩
  | .inl t =>
      if deadline ≤ clock.read s then ⟨[], .error expired⟩
      else
        let rest := poll clock interval deadline expired look t (Acts.act (clock.pause interval) s)
        ⟨clock.pause interval :: rest.effects, rest.result⟩
termination_by clock.left interval deadline s
decreasing_by exact clock.left_pause interval.2 ‹_›

end Program

section Has

variable {P : E → Prop} {x : Program E σ ε α} {f : α → Program E σ ε β}

/-- The run has an effect of the kind. -/
def Has (P : E → Prop) (x : Program E σ ε α) (s : σ) : Prop := ∃ e ∈ (x s).effects, P e

/-- Every run that returns has an effect of the kind. -/
def Marks (P : E → Prop) (x : Program E σ ε α) : Prop := ∀ s a, (x s).result = .ok a → Has P x s

theorem bind_error {error : ε} (ended : (x s).result = .error error) : (x >>= f) s = ⟨(x s).effects, .error error⟩ := by
  show Program.bind x f s = _
  rw [Program.bind, ended]

theorem bind_ok {a : α} (ended : (x s).result = .ok a) :
    (x >>= f) s = ⟨(x s).effects ++ (f a (after s (x s).effects)).effects, (f a (after s (x s).effects)).result⟩ := by
  show Program.bind x f s = _
  rw [Program.bind, ended]

namespace Has

theorem bind_left (has : Has P x s) : Has P (x >>= f) s := by
  obtain ⟨e, member, kind⟩ := has
  cases ended : (x s).result with
  | error error => exact ⟨e, by rwa [bind_error ended], kind⟩
  | ok a => exact ⟨e, by rw [bind_ok ended]; exact List.mem_append_left _ member, kind⟩

/-- A run has the effect where its first part has it or fails to return, and else its second part. -/
theorem bind (failed : ∀ error, (x s).result = .error error → Has P x s)
    (next : ∀ a, (x s).result = .ok a → Has P (f a) (after s (x s).effects)) : Has P (x >>= f) s := by
  cases ended : (x s).result with
  | error error => exact bind_left (failed error ended)
  | ok a =>
    obtain ⟨e, member, kind⟩ := next a ended
    exact ⟨e, by rw [bind_ok ended]; exact List.mem_append_right _ member, kind⟩

omit [Acts E σ] in
theorem perform {e : E} (kind : P e) : Has (ε := ε) P (Program.perform e) s := ⟨e, List.mem_singleton_self e, kind⟩

theorem catch_ {handler : ε → Program E σ ε α} (returned : ∀ a, (x s).result = .ok a → Has P x s)
    (handled : ∀ error s, Has P (handler error) s) : Has P (x.catch_ handler) s := by
  unfold Has Program.catch_
  cases ended : (x s).result with
  | ok a => exact returned a ended
  | error error =>
    obtain ⟨e, member, kind⟩ := handled error (after s (x s).effects)
    exact ⟨e, List.mem_append_right _ member, kind⟩

end Has

namespace Marks

theorem bind_left (marks : Marks P x) : Marks P (x >>= f) := by
  intro s b returned
  cases ended : (x s).result with
  | error error =>
    rw [bind_error ended] at returned
    cases returned
  | ok a => exact (marks s a ended).bind_left

theorem bind (marks : ∀ a, Marks P (f a)) : Marks P (x >>= f) := by
  intro s b returned
  cases ended : (x s).result with
  | error error =>
    rw [bind_error ended] at returned
    cases returned
  | ok a =>
    rw [bind_ok ended] at returned
    obtain ⟨e, member, kind⟩ := marks a _ b returned
    exact ⟨e, by rw [bind_ok ended]; exact List.mem_append_right _ member, kind⟩

end Marks
end Has
end Programs
end KataGo.Lib
