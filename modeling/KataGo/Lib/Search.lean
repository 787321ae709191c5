import Mathlib.Data.Finset.Card
import Mathlib.Logic.Relation
import Mathlib.Data.List.Nodup

/-! Breadth-first search that labels what it finds. A vertex gets its label when it is put on
the queue and is visited when it is taken off; what a visit does depends on no label. -/

namespace KataGo.Lib.Search

variable {V ι σ : Type*} [DecidableEq V]

/-- The labels, the queue, and what the visits have collected. -/
structure State (V ι σ : Type*) where
  labels : V → Option ι
  queue : List V
  found : σ

/-- Put a neighbour on the queue, unless it is not wanted or has a label. -/
def push (want : V → Bool) (i : ι) (s : State V ι σ) (a : V) : State V ι σ :=
  if want a ∧ s.labels a = none then
    { s with labels := Function.update s.labels a (some i), queue := s.queue ++ [a] }
  else s

/-- Take vertices off the queue until it is empty. -/
def run (adjs : V → List V) (want : V → Bool) (i : ι) (visit : σ → V → σ) : Nat → State V ι σ →
    Option (State V ι σ)
  | 0, _ => none
  | fuel + 1, s =>
      match s.queue with
      | [] => some s
      | v :: rest =>
          run adjs want i visit fuel
            ((adjs v).foldl (push want i) { s with queue := rest, found := visit s.found v })

/-- The search from one vertex. -/
def search (adjs : V → List V) (want : V → Bool) (i : ι) (visit : σ → V → σ) (fuel : Nat) (labels : V → Option ι)
    (found : σ) (v : V) : Option (State V ι σ) :=
  run adjs want i visit fuel ⟨Function.update labels v (some i), [v], found⟩

variable {adjs : V → List V} {want : V → Bool} {i : ι} {visit : σ → V → σ}

/-- The vertices that the loop over some neighbours adds to the queue. -/
structure Pushed (want : V → Bool) (i : ι) (s s' : State V ι σ) (as new : List V) : Prop where
  queue : s'.queue = s.queue ++ new
  found : s'.found = s.found
  labels : s'.labels = fun x => if x ∈ new then some i else s.labels x
  nodup : new.Nodup
  fresh : ∀ x ∈ new, x ∈ as ∧ want x = true ∧ s.labels x = none
  all : ∀ a ∈ as, want a = true → s.labels a = none → a ∈ new

theorem foldl_push (want : V → Bool) (i : ι) (as : List V) (s : State V ι σ) :
    ∃ new, Pushed want i s (as.foldl (push want i) s) as new := by
  induction as generalizing s with
  | nil => exact ⟨[], by simp, rfl, by simp, by simp, by simp, by simp⟩
  | cons a as ih =>
    rw [List.foldl_cons]
    by_cases wanted : want a = true ∧ s.labels a = none
    · have step : push want i s a =
          { s with labels := Function.update s.labels a (some i), queue := s.queue ++ [a] } := if_pos wanted
      obtain ⟨new, rest⟩ := ih (push want i s a)
      have other : a ∉ new := by
        intro member
        have none := (rest.fresh a member).2.2
        rw [step] at none
        simp at none
      refine ⟨a :: new, ?_, ?_, ?_, List.nodup_cons.mpr ⟨other, rest.nodup⟩, ?_, ?_⟩
      · rw [rest.queue, step, List.append_assoc]
        rfl
      · rw [rest.found, step]
      · rw [rest.labels, step]
        funext x
        by_cases same : x = a
        · simp [same, other]
        · simp [same]
      · intro x member
        rcases List.mem_cons.mp member with rfl | later
        · exact ⟨List.mem_cons_self, wanted⟩
        · obtain ⟨inside, open_, none⟩ := rest.fresh x later
          have apart : x ≠ a := fun same => other (same ▸ later)
          rw [step] at none
          exact ⟨List.mem_cons_of_mem _ inside, open_, (Function.update_of_ne apart _ _).symm.trans none⟩
      · intro x member open_ none
        by_cases same : x = a
        · exact same ▸ List.mem_cons_self
        · refine List.mem_cons_of_mem _ (rest.all x (List.mem_of_ne_of_mem same member) open_ ?_)
          rw [step]
          simpa [Function.update_of_ne same] using none
    · have step : push want i s a = s := if_neg wanted
      obtain ⟨new, rest⟩ := ih (push want i s a)
      rw [step] at rest ⊢
      refine ⟨new, rest.queue, rest.found, rest.labels, rest.nodup, ?_, ?_⟩
      · intro x member
        exact ⟨List.mem_cons_of_mem _ (rest.fresh x member).1, (rest.fresh x member).2⟩
      · intro x member open_ none
        rcases List.mem_cons.mp member with rfl | later
        · exact absurd ⟨open_, none⟩ wanted
        · exact rest.all x later open_ none

/-- Along edges to wanted vertices without a label. -/
def Reach (adjs : V → List V) (want : V → Bool) (labels : V → Option ι) : V → V → Prop :=
  Relation.ReflTransGen fun x a => a ∈ adjs x ∧ want a = true ∧ labels a = none

/-- The state of a search that has visited `done` and that started with these labels. -/
structure Running (adjs : V → List V) (want : V → Bool) (i : ι) (visit : σ → V → σ) (old : V → Option ι)
    (acc : σ) (v : V) (done : List V) (s : State V ι σ) : Prop where
  nodup : (done ++ s.queue).Nodup
  start : (done ++ s.queue).head? = some v
  found : s.found = done.foldl visit acc
  labels : s.labels = fun x => if x ∈ done ++ s.queue then some i else old x
  wanted : ∀ x ∈ done ++ s.queue, want x = true
  closed : ∀ x ∈ done, ∀ a ∈ adjs x, want a = true → old a = none → a ∈ done ++ s.queue
  reached : ∀ x ∈ done ++ s.queue, Reach adjs want old v x

theorem Running.step {old : V → Option ι} {acc : σ} {v w : V} {done rest : List V} {s : State V ι σ}
    (running : Running adjs want i visit old acc v done s) (queue : s.queue = w :: rest) :
    Running adjs want i visit old acc v (done ++ [w])
      ((adjs w).foldl (push want i) { s with queue := rest, found := visit s.found w }) := by
  obtain ⟨new, pushed⟩ :=
    foldl_push want i (adjs w) { s with queue := rest, found := visit s.found w }
  obtain ⟨nodup, start, foundEq, labelsEq, wanted, closed, reached⟩ := running
  rw [queue] at nodup start labelsEq wanted closed reached
  have members : ∀ x, x ∈ done ++ [w] ++ (rest ++ new) ↔ x ∈ done ++ w :: rest ∨ x ∈ new := by
    intro x
    simp only [List.mem_append, List.mem_cons]
    tauto
  have unlabelled : ∀ x ∈ new, x ∉ done ++ w :: rest ∧ old x = none := by
    intro x member
    have none := (pushed.fresh x member).2.2
    simp only [labelsEq] at none
    split at none
    · cases none
    · exact ⟨‹_›, none⟩
  have here : w ∈ done ++ w :: rest := by simp
  refine ⟨?_, ?_, ?_, ?_, ?_, ?_, ?_⟩
  · rw [pushed.queue]
    have split : done ++ [w] ++ (rest ++ new) = (done ++ w :: rest) ++ new := by simp
    rw [split, List.nodup_append]
    refine ⟨nodup, pushed.nodup, ?_⟩
    rintro x before y fresh rfl
    exact (unlabelled x fresh).1 before
  · rw [pushed.queue]
    have split : done ++ [w] ++ (rest ++ new) = (done ++ w :: rest) ++ new := by simp
    rw [split, List.head?_append, start]
    rfl
  · rw [pushed.found, List.foldl_append, foundEq]
    rfl
  · rw [pushed.labels, pushed.queue]
    funext x
    simp only [members, labelsEq]
    by_cases before : x ∈ done ++ w :: rest
    · simp [before]
    · simp [before]
  · intro x member
    rw [pushed.queue, members] at member
    rcases member with before | fresh
    · exact wanted x before
    · exact (pushed.fresh x fresh).2.1
  · intro x member a adjacent open_ none
    rw [pushed.queue, members]
    rcases List.mem_append.mp member with before | new
    · exact .inl (closed x before a adjacent open_ none)
    · obtain rfl := List.mem_singleton.mp new
      by_cases before : a ∈ done ++ x :: rest
      · exact .inl before
      · refine .inr (pushed.all a adjacent open_ ?_)
        simp only [labelsEq, if_neg before, none]
  · intro x member
    rw [pushed.queue, members] at member
    rcases member with before | fresh
    · exact reached x before
    · obtain ⟨adjacent, open_, -⟩ := pushed.fresh x fresh
      exact (reached w here).tail ⟨adjacent, open_, (unlabelled x fresh).2⟩

theorem Running.finish {old : V → Option ι} {acc : σ} {v : V} {U : Finset V}
    (inside : ∀ a, want a = true → a ∈ U) (fuel : Nat) {done : List V} {s : State V ι σ}
    (running : Running adjs want i visit old acc v done s) (enough : U.card < fuel + done.length) :
    ∃ all s', run adjs want i visit fuel s = some s' ∧ s'.queue = [] ∧
      Running adjs want i visit old acc v all s' := by
  induction fuel generalizing done s with
  | zero =>
    have bound : done.length ≤ U.card := by
      rw [← List.toFinset_card_of_nodup (List.nodup_append.mp running.nodup).1]
      refine Finset.card_le_card fun x member => inside x (running.wanted x ?_)
      exact List.mem_append_left _ (List.mem_toFinset.mp member)
    omega
  | succ fuel ih =>
    rw [run]
    split
    next empty => exact ⟨done, s, rfl, empty, running⟩
    next w rest queue =>
      apply ih (running.step queue)
      rw [List.length_append, List.length_singleton]
      omega

/-- With fuel for every wanted vertex the search completes: it visits, once each, what can be
reached through wanted vertices without a label, and labels exactly that. -/
theorem search_spec {old : V → Option ι} {acc : σ} {v : V} {U : Finset V} (wanted : want v = true)
    (fresh : old v = none) (inside : ∀ a, want a = true → a ∈ U) {fuel : Nat} (enough : U.card < fuel) :
    ∃ l, search adjs want i visit fuel old acc v =
        some ⟨fun x => if x ∈ v :: l then some i else old x, [], (v :: l).foldl visit acc⟩ ∧
      (v :: l).Nodup ∧ ∀ x, x ∈ v :: l ↔ Reach adjs want old v x := by
  have start : Running adjs want i visit old acc v [] ⟨Function.update old v (some i), [v], acc⟩ := by
    refine ⟨by simp, by simp, rfl, ?_, by simpa using wanted, by simp, ?_⟩
    · funext x
      by_cases same : x = v
      · simp [same]
      · simp [same]
    · intro x member
      obtain rfl : x = v := by simpa using member
      exact Relation.ReflTransGen.refl
  obtain ⟨all, s, finished, empty, running⟩ := start.finish inside fuel (by simpa using enough)
  obtain ⟨nodup, first, found, labels, -, closed, reached⟩ := running
  rw [empty, List.append_nil] at nodup first labels closed reached
  obtain ⟨l, rfl⟩ : ∃ l, all = v :: l := by
    cases all with
    | nil => cases first
    | cons x l => exact ⟨l, by rw [Option.some.inj first]⟩
  refine ⟨l, ?_, nodup, fun x => ⟨reached x, fun path => ?_⟩⟩
  · rw [search, finished]
    obtain ⟨labels', queue, found'⟩ := s
    subst empty found labels
    rfl
  · induction path with
    | refl => exact List.mem_cons_self
    | tail _ edge ih => exact closed _ ih _ edge.1 edge.2.1 edge.2.2

end KataGo.Lib.Search
