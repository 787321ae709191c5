import Mathlib.Data.List.Cycle

/-! Circular singly linked lists kept in a successor function. A walk follows the
links once around, the way a `do ... while` loop does, and the splicing lemmas say
which list the links form after one or two of them are overwritten. -/

namespace KataGo.Lib.CircularList

variable {α : Type*} [DecidableEq α]

/-- The elements visited from `cur` on, up to the one whose successor is `stop`. -/
def walkFrom (next : α → α) (stop : α) : Nat → α → Option (List α)
  | 0, _ => none
  | fuel + 1, cur =>
      if next cur = stop then some [cur]
      else (walkFrom next stop fuel (next cur)).map (cur :: ·)

/-- One turn around the list, starting and ending at `start`. -/
def walk (next : α → α) (fuel : Nat) (start : α) : Option (List α) :=
  walkFrom next start fuel start

/-- The element whose successor is `target`, searched for from `cur` on. -/
def findPrev (next : α → α) (target : α) : Nat → α → Option α
  | 0, _ => none
  | fuel + 1, cur => if next cur = target then some cur else findPrev next target fuel (next cur)

/-- The links of `next` run through `l` in order and close up. -/
def Linked (next : α → α) (l : List α) : Prop :=
  Cycle.Chain (fun a b => next a = b) (l : Cycle α)

omit [DecidableEq α] in
theorem linked_cons {next : α → α} {a : α} {t : List α} :
    Linked next (a :: t) ↔ List.IsChain (fun a b => next a = b) (a :: (t ++ [a])) :=
  Cycle.chain_coe_cons _ _ _

omit [DecidableEq α] in
theorem linked_rotated {next : α → α} {l l' : List α} (rotated : l ~r l') :
    Linked next l ↔ Linked next l' := by
  unfold Linked
  rw [Cycle.coe_eq_coe.2 rotated]

omit [DecidableEq α] in
theorem exists_rotated_cons {l : List α} {p : α} (member : p ∈ l) : ∃ t, l ~r p :: t := by
  obtain ⟨before, after, rfl⟩ := List.append_of_mem member
  exact ⟨after ++ before, List.isRotated_append⟩

omit [DecidableEq α] in
theorem linked_singleton {next : α → α} {a : α} : Linked next [a] ↔ next a = a :=
  Cycle.chain_singleton _ _

omit [DecidableEq α] in
/-- A chain of links only depends on the successors of all its elements but the last. -/
theorem chain_congr {next next' : α → α} {l : List α} {z : α}
    (same : ∀ a ∈ l, next' a = next a)
    (chain : List.IsChain (fun a b => next a = b) (l ++ [z])) :
    List.IsChain (fun a b => next' a = b) (l ++ [z]) := by
  induction l with
  | nil => simp
  | cons a t ih =>
    have tail := ih (fun b member => same b (List.mem_cons_of_mem _ member))
    cases t with
    | nil =>
      simp only [List.cons_append, List.nil_append, List.isChain_pair] at chain ⊢
      rw [same a (by simp)]
      exact chain
    | cons b t =>
      simp only [List.cons_append, List.isChain_cons_cons] at chain tail ⊢
      exact ⟨(same a (by simp)).trans chain.1, tail chain.2⟩

omit [DecidableEq α] in
theorem linked_congr {next next' : α → α} {l : List α} (same : ∀ a ∈ l, next' a = next a)
    (linked : Linked next l) : Linked next' l := by
  cases l with
  | nil => exact Cycle.Chain.nil _
  | cons a t => exact linked_cons.2 (chain_congr (l := a :: t) same (linked_cons.1 linked))

omit [DecidableEq α] in
theorem next_mem {next : α → α} {l : List α} (linked : Linked next l) {p : α} (member : p ∈ l) :
    next p ∈ l := by
  obtain ⟨t, rotated⟩ := exists_rotated_cons member
  have chain := linked_cons.1 ((linked_rotated rotated).1 linked)
  rw [rotated.mem_iff]
  cases t with
  | nil =>
    simp only [List.nil_append, List.isChain_pair] at chain
    simp [chain]
  | cons b t =>
    simp only [List.cons_append, List.isChain_cons_cons] at chain
    simp [chain.1]

theorem walkFrom_of_chain {next : α → α} {stop cur : α} {t : List α} {fuel : Nat}
    (chain : List.IsChain (fun a b => next a = b) (cur :: (t ++ [stop])))
    (absent : stop ∉ t) (enough : t.length < fuel) :
    walkFrom next stop fuel cur = some (cur :: t) := by
  induction t generalizing cur fuel with
  | nil =>
    obtain ⟨fuel, rfl⟩ : ∃ n, fuel = n + 1 := ⟨fuel - 1, by simp at enough; omega⟩
    simp only [List.nil_append, List.isChain_pair] at chain
    simp [walkFrom, chain]
  | cons b t ih =>
    obtain ⟨fuel, rfl⟩ : ∃ n, fuel = n + 1 := ⟨fuel - 1, by simp at enough; omega⟩
    simp only [List.cons_append, List.isChain_cons_cons] at chain
    have apart : b ≠ stop := fun same => absent (by simp [same])
    have rest := ih chain.2 (fun member => absent (List.mem_cons_of_mem _ member))
      (by simpa using enough)
    simp [walkFrom, chain.1, apart, rest]

/-- A walk started at any element of a circular list visits the list once, from there on. -/
theorem walk_of_linked {next : α → α} {l : List α} (linked : Linked next l) (nodup : l.Nodup)
    {p : α} (member : p ∈ l) {fuel : Nat} (enough : l.length ≤ fuel) :
    ∃ t, walk next fuel p = some (p :: t) ∧ l ~r p :: t := by
  obtain ⟨t, rotated⟩ := exists_rotated_cons member
  refine ⟨t, ?_, rotated⟩
  have lengths := rotated.perm.length_eq
  simp only [List.length_cons] at lengths
  have absent : p ∉ t := (List.nodup_cons.1 (rotated.nodup_iff.1 nodup)).1
  exact walkFrom_of_chain (linked_cons.1 ((linked_rotated rotated).1 linked)) absent (by omega)

theorem findPrev_of_chain {next : α → α} {target cur : α} {t : List α} {fuel : Nat}
    (chain : List.IsChain (fun a b => next a = b) (cur :: (t ++ [target])))
    (absent : target ∉ t) (enough : t.length < fuel) :
    findPrev next target fuel cur = some ((cur :: t).getLast (by simp)) := by
  induction t generalizing cur fuel with
  | nil =>
    obtain ⟨fuel, rfl⟩ : ∃ n, fuel = n + 1 := ⟨fuel - 1, by simp at enough; omega⟩
    simp only [List.nil_append, List.isChain_pair] at chain
    simp [findPrev, chain]
  | cons b t ih =>
    obtain ⟨fuel, rfl⟩ : ∃ n, fuel = n + 1 := ⟨fuel - 1, by simp at enough; omega⟩
    simp only [List.cons_append, List.isChain_cons_cons] at chain
    have apart : b ≠ target := fun same => absent (by simp [same])
    have rest := ih chain.2 (fun member => absent (List.mem_cons_of_mem _ member))
      (by simpa using enough)
    simp [findPrev, chain.1, apart, rest]

/-- Searching from any other element of the list finds the predecessor of `p`. -/
theorem findPrev_of_linked {next : α → α} {p z : α} {m : List α}
    (linked : Linked next (p :: (m ++ [z]))) (nodup : (p :: (m ++ [z])).Nodup)
    {cur : α} (member : cur ∈ m ++ [z]) {fuel : Nat} (enough : m.length < fuel) :
    findPrev next p fuel cur = some z := by
  obtain ⟨before, after, split⟩ := List.append_of_mem member
  have chain := linked_cons.1 linked
  have absent : p ∉ after := by
    intro inside
    apply (List.nodup_cons.1 nodup).1
    rw [split]
    simp [inside]
  have suffix : List.IsChain (fun a b => next a = b) (cur :: (after ++ [p])) := by
    rw [split] at chain
    have regroup : p :: (before ++ cur :: after ++ [p]) = (p :: before) ++ (cur :: (after ++ [p])) := by
      simp
    rw [regroup] at chain
    exact chain.right_of_append
  have lengths := congrArg List.length split
  simp only [List.length_append, List.length_cons, List.length_nil] at lengths
  rw [findPrev_of_chain suffix absent (by omega)]
  have last : (cur :: after).getLast? = some z := by
    have whole := congrArg List.getLast? split
    simpa using whole.symm
  simpa [List.getLast?_eq_some_getLast] using last

/-- Two circular lists are joined by exchanging the successors of one element of each. -/
theorem linked_splice {next : α → α} {a z : α} {s m : List α}
    (first : Linked next (a :: s)) (second : Linked next (z :: m))
    (nodup : ((a :: s) ++ (z :: m)).Nodup) :
    Linked (Function.update (Function.update next z (next a)) a (next z)) (a :: ((m ++ [z]) ++ s)) := by
  have chainA := linked_cons.1 first
  have chainZ := linked_cons.1 second
  rw [List.isChain_cons] at chainA chainZ
  have facts : a ∉ s ∧ z ∉ m ∧ a ≠ z ∧ a ∉ m ∧ z ∉ s := by
    simp only [List.cons_append, List.nodup_cons, List.mem_append, List.mem_cons, not_or,
      List.nodup_append] at nodup
    refine ⟨nodup.1.1, nodup.2.2.1.1, nodup.1.2.1, nodup.1.2.2, ?_⟩
    intro inside
    exact nodup.2.2.2 z inside z (by simp) rfl
  obtain ⟨aS, zM, az, aM, zS⟩ := facts
  rw [linked_cons, List.isChain_cons]
  constructor
  · intro y head
    rw [Function.update_self]
    apply chainZ.1 y
    cases m with
    | nil => simpa using head
    | cons b m => simpa using head
  · have middle : List.IsChain
        (fun x y => Function.update (Function.update next z (next a)) a (next z) x = y) (m ++ [z]) :=
      chain_congr (fun x inside => by
        rw [Function.update_of_ne (ne_of_mem_of_not_mem inside aM),
          Function.update_of_ne (ne_of_mem_of_not_mem inside zM)]) chainZ.2
    have rest : List.IsChain
        (fun x y => Function.update (Function.update next z (next a)) a (next z) x = y) (s ++ [a]) :=
      chain_congr (fun x inside => by
        rw [Function.update_of_ne (ne_of_mem_of_not_mem inside aS),
          Function.update_of_ne (ne_of_mem_of_not_mem inside zS)]) chainA.2
    rw [List.append_assoc, List.isChain_append]
    refine ⟨middle, rest, ?_⟩
    intro x last y head
    simp only [List.getLast?_append, List.getLast?_singleton, Option.some_or, Option.mem_def,
      Option.some.injEq] at last
    subst last
    rw [Function.update_of_ne az.symm, Function.update_self]
    exact chainA.1 y head

/-- Redirecting the predecessor of `p` to the successor of `p` takes `p` out of the list. -/
theorem linked_unlink {next : α → α} {p z : α} {m : List α}
    (linked : Linked next (p :: (m ++ [z]))) (nodup : (p :: (m ++ [z])).Nodup) :
    Linked (Function.update next z (next p)) (m ++ [z]) := by
  rw [linked_rotated (List.isRotated_concat z m), linked_cons]
  have chain := linked_cons.1 linked
  rw [List.isChain_cons] at chain
  have zM : z ∉ m := by
    have tail := (List.nodup_cons.1 nodup).2
    rw [List.nodup_append] at tail
    intro inside
    exact tail.2.2 z inside z (by simp) rfl
  rw [List.isChain_cons]
  constructor
  · intro y head
    rw [Function.update_self]
    apply chain.1 y
    rw [List.head?_append_of_ne_nil _ (by simp)]
    exact head
  · have inner := chain.2.left_of_append
    exact chain_congr (fun x inside => Function.update_of_ne (ne_of_mem_of_not_mem inside zM) _ _) inner

/-- Put `v` in front of the element added last, and remember it as the new front. -/
def push (state : (α → α) × α) (v : α) : (α → α) × α :=
  (Function.update state.1 v state.2, v)

theorem foldl_push_of_notMem {vs : List α} {next : α → α} {front x : α} (outside : x ∉ vs) :
    (vs.foldl push (next, front)).1 x = next x := by
  induction vs generalizing next front with
  | nil => rfl
  | cons v vs ih =>
    rw [List.foldl_cons, push, ih fun inside => outside (List.mem_cons_of_mem _ inside)]
    exact Function.update_of_ne (fun same => outside (by simp [same])) _ _

theorem push_chain {vs built : List α} {next : α → α} {z front : α}
    (nodup : (vs ++ built).Nodup)
    (chain : List.IsChain (fun a b => next a = b) (built ++ [z]))
    (top : (built ++ [z]).head? = some front) :
    List.IsChain (fun a b => (vs.foldl push (next, front)).1 a = b) (vs.reverse ++ built ++ [z]) ∧
      (vs.reverse ++ built ++ [z]).head? = some (vs.foldl push (next, front)).2 := by
  induction vs generalizing built next front with
  | nil => exact ⟨by simpa using chain, by simpa using top⟩
  | cons v vs ih =>
    have fresh : v ∉ built := by
      simp only [List.cons_append, List.nodup_cons, List.mem_append, not_or] at nodup
      exact nodup.1.2
    have grown : List.IsChain (fun a b => Function.update next v front a = b) (v :: built ++ [z]) := by
      rw [List.cons_append, List.isChain_cons]
      constructor
      · intro y head
        rw [top] at head
        simpa using head
      · exact chain_congr (fun x inside =>
          Function.update_of_ne (ne_of_mem_of_not_mem inside fresh) _ _) chain
    have order : (vs ++ v :: built).Nodup := by
      have same : (v :: vs ++ built).Perm (vs ++ v :: built) := List.perm_middle.symm
      exact same.nodup_iff.1 nodup
    have step := ih order grown rfl
    simpa [push] using step

/-- Pushing a list of elements and pointing the first of them at the last closes a circle. -/
theorem linked_push {v : α} {vs : List α} {next : α → α} {tail : α} (nodup : (v :: vs).Nodup) :
    Linked (Function.update ((v :: vs).foldl push (next, tail)).1 v ((v :: vs).foldl push (next, tail)).2)
      (v :: vs.reverse) := by
  have none : List.IsChain (fun a b => next a = b) ([] ++ [tail]) := by simp
  have order : (v :: vs ++ []).Nodup := by simpa using nodup
  obtain ⟨chain, top⟩ := push_chain order none rfl
  simp only [List.reverse_cons, List.append_nil] at chain top
  have fresh : v ∉ vs.reverse := by simpa using (List.nodup_cons.1 nodup).1
  rw [linked_cons, List.isChain_cons]
  constructor
  · intro y head
    rw [Function.update_self]
    rw [List.head?_append_of_ne_nil _ (by simp), head] at top
    exact (Option.some.inj top).symm
  · exact chain_congr (fun x inside =>
      Function.update_of_ne (ne_of_mem_of_not_mem inside fresh) _ _) chain.left_of_append

end KataGo.Lib.CircularList
