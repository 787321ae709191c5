import KataGo.Lib.CircularList

/-! Circular lists with links in both directions. The backward links run through the
reversed list, so that every fact about forward links is used twice. -/

namespace KataGo.Lib.CircularList

variable {α : Type*} [DecidableEq α]

/-- `next` runs through `l` and closes up, and `prev` runs through it backwards. -/
structure Ringed (next prev : α → α) (l : List α) : Prop where
  forward : Linked next l
  backward : Linked prev l.reverse

namespace Ringed

variable {next prev next' prev' : α → α} {l l' : List α} {a : α}

omit [DecidableEq α] in
theorem swap (ringed : Ringed next prev l) : Ringed prev next l.reverse :=
  ⟨ringed.backward, by rw [List.reverse_reverse]; exact ringed.forward⟩

omit [DecidableEq α] in
theorem rotated (ringed : Ringed next prev l) (rotated : l ~r l') : Ringed next prev l' :=
  ⟨(linked_rotated rotated).1 ringed.forward, (linked_rotated rotated.reverse).1 ringed.backward⟩

omit [DecidableEq α] in
theorem congr (ringed : Ringed next prev l) (sameNext : ∀ a ∈ l, next' a = next a)
    (samePrev : ∀ a ∈ l, prev' a = prev a) : Ringed next' prev' l :=
  ⟨linked_congr sameNext ringed.forward,
    linked_congr (fun a member => samePrev a (List.mem_reverse.1 member)) ringed.backward⟩

omit [DecidableEq α] in
theorem singleton (self : next a = a) (self' : prev a = a) : Ringed next prev [a] :=
  ⟨linked_singleton.2 self, linked_singleton.2 self'⟩

omit [DecidableEq α] in
/-- The two directions undo each other. -/
theorem prev_next (ringed : Ringed next prev l) (member : a ∈ l) : prev (next a) = a := by
  obtain ⟨t, rotated⟩ := exists_rotated_cons member
  obtain ⟨forward, backward⟩ := ringed.rotated rotated
  cases t with
  | nil =>
    rw [linked_singleton.1 forward]
    exact linked_singleton.1 backward
  | cons b u =>
    have chain := linked_cons.1 forward
    simp only [List.cons_append, List.isChain_cons_cons] at chain
    have order : (a :: b :: u).reverse ~r b :: a :: u.reverse := by
      have turned : u.reverse ++ [b, a] ~r [b, a] ++ u.reverse := List.isRotated_append
      simpa using turned
    have back := linked_cons.1 ((linked_rotated order).1 backward)
    simp only [List.cons_append, List.isChain_cons_cons] at back
    rw [chain.1, back.1]

omit [DecidableEq α] in
theorem next_prev (ringed : Ringed next prev l) (member : a ∈ l) : next (prev a) = a :=
  ringed.swap.prev_next (List.mem_reverse.2 member)

omit [DecidableEq α] in
/-- The predecessor of the first element is the last one. -/
theorem exists_last {p : α} {t : List α} (ringed : Ringed next prev (p :: t)) :
    ∃ s, p :: t = s ++ [prev p] ∧ Linked next (prev p :: s) ∧ next (prev p) = p := by
  obtain ⟨s, z, split⟩ := (List.eq_nil_or_concat (p :: t)).resolve_left (by simp)
  rw [List.concat_eq_append] at split
  have forward := ringed.forward
  have backward := ringed.backward
  rw [split, List.reverse_append, List.reverse_singleton, List.singleton_append] at backward
  have last : prev p = z := by
    have order : z :: s.reverse ~r p :: t.reverse := by
      have same : z :: s.reverse = t.reverse ++ [p] := by
        have whole := congrArg List.reverse split
        simpa using whole.symm
      rw [same]
      exact List.isRotated_concat p t.reverse
    have chain := linked_cons.1 ((linked_rotated order).1 backward)
    rw [List.isChain_cons] at chain
    have same : t.reverse ++ [p] = z :: s.reverse := by
      have whole := congrArg List.reverse split
      simpa using whole
    exact chain.1 z (by rw [same]; simp)
  subst last
  refine ⟨s, split, (linked_rotated (List.isRotated_concat _ s)).1 (split ▸ forward), ?_⟩
  exact ringed.next_prev (by simp)

/-- Two rings are joined by exchanging the ends of their lists. -/
theorem splice {p c : α} {t u : List α} (first : Ringed next prev (p :: t)) (second : Ringed next prev (c :: u))
    (nodup : ((p :: t) ++ (c :: u)).Nodup) :
    Ringed (Function.update (Function.update next (prev c) p) (prev p) c)
      (Function.update (Function.update prev c (prev p)) p (prev c)) ((p :: t) ++ (c :: u)) := by
  obtain ⟨s, splitP, linkedP, nextP⟩ := first.exists_last
  obtain ⟨m, splitC, linkedC, nextC⟩ := second.exists_last
  constructor
  · have order : ((prev p :: s) ++ (prev c :: m)).Nodup := by
      have moved : ((p :: t) ++ (c :: u)).Perm ((prev p :: s) ++ (prev c :: m)) := by
        rw [splitP, splitC]
        exact (List.perm_append_singleton _ _).append (List.perm_append_singleton _ _)
      exact moved.nodup_iff.1 nodup
    have joined := linked_splice linkedP linkedC order
    rw [nextP, nextC, ← splitC] at joined
    refine (linked_rotated ?_).1 joined
    have closed : prev p :: ((c :: u) ++ s) ~r (c :: u) ++ (p :: t) := by
      rw [splitP, ← List.append_assoc]
      exact (List.isRotated_concat _ _).symm
    exact closed.trans List.isRotated_append
  · have backP : Linked prev (p :: t.reverse) := by
      refine (linked_rotated ?_).1 first.backward
      rw [List.reverse_cons]
      exact List.isRotated_concat p t.reverse
    have backC : Linked prev (c :: u.reverse) := by
      refine (linked_rotated ?_).1 second.backward
      rw [List.reverse_cons]
      exact List.isRotated_concat c u.reverse
    have order : ((p :: t.reverse) ++ (c :: u.reverse)).Nodup := by
      have moved : ((p :: t) ++ (c :: u)).Perm ((p :: t.reverse) ++ (c :: u.reverse)) :=
        ((List.reverse_perm t).symm.cons p).append ((List.reverse_perm u).symm.cons c)
      exact moved.nodup_iff.1 nodup
    have joined := linked_splice backP backC order
    refine (linked_rotated ?_).1 joined
    have same : ((p :: t) ++ (c :: u)).reverse = (u.reverse ++ [c]) ++ t.reverse ++ [p] := by simp
    rw [same]
    exact (List.isRotated_concat p _).symm

end Ringed

section Push

/-- Let the element added last point back at `v`, and remember `v` as the new front. -/
def pushPrev (state : (α → α) × α) (v : α) : (α → α) × α :=
  (Function.update state.1 state.2 v, v)

theorem chain_extend {prev : α → α} {l : List α} {f w : α} (nodup : (l ++ [f]).Nodup)
    (chain : List.IsChain (fun a b => prev a = b) (l ++ [f])) :
    List.IsChain (fun a b => Function.update prev f w a = b) (l ++ [f] ++ [w]) := by
  have fresh : f ∉ l := fun inside => List.disjoint_of_nodup_append nodup inside (by simp)
  rw [List.isChain_append]
  refine ⟨chain_congr (fun x inside =>
    Function.update_of_ne (ne_of_mem_of_not_mem inside fresh) _ _) chain, by simp, ?_⟩
  intro x last y head
  simp only [List.getLast?_append, List.getLast?_singleton, Option.some_or, Option.mem_def,
    Option.some.injEq, List.head?_cons] at last head
  rw [← last, ← head, Function.update_self]

theorem foldl_pushPrev_of_notMem {vs : List α} {prev : α → α} {f x : α} (apart : x ≠ f) (outside : x ∉ vs) :
    (vs.foldl pushPrev (prev, f)).1 x = prev x := by
  induction vs generalizing prev f with
  | nil => rfl
  | cons v vs ih =>
    obtain ⟨notHere, notThere⟩ := not_or.1 (fun found => outside (List.mem_cons.2 found))
    rw [List.foldl_cons, pushPrev, ih notHere notThere]
    exact Function.update_of_ne apart _ _

theorem pushPrev_chain (vs : List α) (prev : α → α) {f : α} (nodup : (f :: vs).Nodup) :
    List.IsChain (fun a b => (vs.foldl pushPrev (prev, f)).1 a = b) (f :: vs) ∧
      ∃ l, f :: vs = l ++ [(vs.foldl pushPrev (prev, f)).2] := by
  induction vs using List.reverseRecOn with
  | nil => exact ⟨by simp, [], rfl⟩
  | append_singleton vs w ih =>
    rw [← List.cons_append] at nodup
    have shorter := (List.nodup_append.1 nodup).1
    obtain ⟨chain, l, split⟩ := ih shorter
    rw [List.foldl_append, List.foldl_cons, List.foldl_nil]
    refine ⟨?_, f :: vs, rfl⟩
    rw [← List.cons_append, split]
    rw [split] at chain shorter
    exact chain_extend shorter chain

/-- Pushing a list of elements and pointing the last of them back at the first closes a circle. -/
theorem linked_pushPrev {v : α} {vs : List α} {prev : α → α} (nodup : (v :: vs).Nodup) :
    Linked (Function.update ((v :: vs).foldl pushPrev (prev, v)).1 ((v :: vs).foldl pushPrev (prev, v)).2 v)
      (v :: vs) := by
  obtain ⟨chain, l, split⟩ := pushPrev_chain vs (Function.update prev v v) nodup
  rw [List.foldl_cons, pushPrev, linked_cons, ← List.cons_append, split]
  rw [split] at chain nodup
  exact chain_extend nodup chain

/-- The ring that a flood fill builds: its first vertex, and then the others, the latest first. -/
theorem ringed_push {v : α} {vs : List α} (next prev : α → α) (tail : α) (nodup : (v :: vs).Nodup) :
    Ringed (Function.update ((v :: vs).foldl push (next, tail)).1 v ((v :: vs).foldl push (next, tail)).2)
      (Function.update ((v :: vs).foldl pushPrev (prev, v)).1 ((v :: vs).foldl pushPrev (prev, v)).2 v)
      (v :: vs.reverse) := by
  refine ⟨linked_push nodup, (linked_rotated ?_).1 (linked_pushPrev nodup)⟩
  rw [List.reverse_cons, List.reverse_reverse]
  exact (List.isRotated_concat v vs).symm

end Push

end KataGo.Lib.CircularList
