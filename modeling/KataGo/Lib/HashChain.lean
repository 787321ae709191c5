import Mathlib.Data.List.Induction
import Mathlib.Data.Set.Function

/-! Chains of records in which each carries the hash of the one before it and its place. -/

namespace KataGo.Lib

variable {α η : Type} {hash previous : α → η} {number : α → Int} {n : Int} {start : η} {xs ys : List α}

/-- The records are numbered from `n` on, and each names the hash of the one before it. -/
def Chained (hash previous : α → η) (number : α → Int) (n : Int) (start : η) : List α → Prop
  | [] => True
  | x :: rest => number x = n ∧ previous x = start ∧ Chained hash previous number (n + 1) (hash x) rest

/-- The hash that the next record has to name. -/
def headHash (hash : α → η) (start : η) (xs : List α) : η := (xs.getLast?.map hash).getD start

theorem headHash_cons (x : α) : headHash hash start (x :: xs) = headHash hash (hash x) xs := by
  rw [headHash, headHash, List.getLast?_cons]
  cases xs.getLast? with
  | none => rfl
  | some y => rfl

theorem headHash_concat (x : α) : headHash hash start (xs ++ [x]) = hash x := by
  rw [headHash, List.getLast?_concat]
  rfl

/-- The last record of a chain continues the chain before it. -/
theorem chained_concat {x : α} : Chained hash previous number n start (xs ++ [x]) ↔
    Chained hash previous number n start xs ∧ number x = n + xs.length ∧ previous x = headHash hash start xs := by
  induction xs generalizing n start with
  | nil => simp [Chained, headHash]
  | cons y xs ih =>
    rw [List.cons_append, Chained, Chained, ih, headHash_cons, List.length_cons]
    push_cast
    rw [show n + 1 + (xs.length : Int) = n + (xs.length + 1) by omega]
    simp only [and_assoc]

/-- Two chains from one start with the same hash at their ends are the same, unless two of their
records have one hash. -/
theorem Chained.eq_of_headHash (chained : Chained hash previous number n start xs)
    (chained' : Chained hash previous number n start ys) (injective : Set.InjOn hash {x | x ∈ xs ∨ x ∈ ys})
    (nonempty : xs ≠ []) (nonempty' : ys ≠ []) (same : headHash hash start xs = headHash hash start ys) : xs = ys := by
  induction xs using List.reverseRecOn generalizing ys with
  | nil => exact absurd rfl nonempty
  | append_singleton xs x ih =>
    cases ys using List.reverseRecOn with
    | nil => exact absurd rfl nonempty'
    | append_singleton ys y =>
      rw [headHash_concat, headHash_concat] at same
      obtain rfl : x = y := injective (.inl (by simp)) (.inr (by simp)) same
      obtain ⟨first, place, link⟩ := chained_concat.mp chained
      obtain ⟨first', place', link'⟩ := chained_concat.mp chained'
      have lengths : xs.length = ys.length := by omega
      by_cases empty : xs = []
      · subst empty
        rw [List.length_nil] at lengths
        rw [List.eq_nil_of_length_eq_zero lengths.symm]
      · have rest := ih first first' (injective.mono ?_) empty ?_ (link.symm.trans link')
        · rw [rest]
        · rintro z (member | member)
          · exact .inl (List.mem_append_left _ member)
          · exact .inr (List.mem_append_left _ member)
        · rintro rfl
          exact empty (List.eq_nil_of_length_eq_zero lengths)

end KataGo.Lib
