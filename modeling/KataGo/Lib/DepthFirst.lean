import KataGo.Lib.Search

/-! Depth-first search by recursion, with the same labels and visits as the breadth-first search:
a vertex gets its label and is visited when the recursion first comes to it. -/

namespace KataGo.Lib.DepthFirst
open Search (Reach)

variable {V ι σ : Type*} [DecidableEq V]

/-- The labels, and what the visits have collected. -/
structure State (V ι σ : Type*) where
  labels : V → Option ι
  found : σ

/-- Visit a vertex that has no label, and go on from its wanted neighbours. -/
def trace (adjs : V → List V) (want : V → Bool) (i : ι) (visit : σ → V → σ) : Nat → State V ι σ → V → Option (State V ι σ)
  | 0, _, _ => none
  | fuel + 1, s, v =>
      if s.labels v ≠ none then some s
      else (adjs v).foldlM (fun s a => if want a then trace adjs want i visit fuel s a else some s)
        ⟨Function.update s.labels v (some i), visit s.found v⟩

variable {adjs : V → List V} {want : V → Bool} {i : ι} {visit : σ → V → σ} {s s₁ s₂ s' : State V ι σ} {v x : V}
  {l l₁ l₂ : List V}

/-- The vertices of `l` have been visited, in this order. -/
structure Traced (adjs : V → List V) (want : V → Bool) (i : ι) (visit : σ → V → σ) (s s' : State V ι σ) (l : List V) :
    Prop where
  labels : s'.labels = fun x => if x ∈ l then some i else s.labels x
  found : s'.found = l.foldl visit s.found
  nodup : l.Nodup
  fresh : ∀ x ∈ l, s.labels x = none
  closed : ∀ x ∈ l, ∀ a ∈ adjs x, want a = true → s'.labels a ≠ none

theorem Traced.refl (s : State V ι σ) : Traced adjs want i visit s s [] :=
  ⟨by simp, rfl, List.nodup_nil, by simp, by simp⟩

theorem Traced.keeps (traced : Traced adjs want i visit s s' l) (labelled : s.labels x ≠ none) : s'.labels x ≠ none := by
  rw [traced.labels]
  dsimp only
  split_ifs
  · exact Option.some_ne_none i
  · exact labelled

theorem Traced.trans (first : Traced adjs want i visit s s₁ l₁) (second : Traced adjs want i visit s₁ s₂ l₂) :
    Traced adjs want i visit s s₂ (l₁ ++ l₂) := by
  have later : ∀ x ∈ l₂, x ∉ l₁ ∧ s.labels x = none := by
    intro x member
    have free := second.fresh x member
    rw [first.labels] at free
    dsimp only at free
    split_ifs at free with before
    exact ⟨before, free⟩
  refine ⟨?_, ?_, ?_, ?_, ?_⟩
  · rw [second.labels, first.labels]
    funext x
    by_cases here : x ∈ l₁
    · simp [here]
    · simp [here]
  · rw [second.found, first.found, List.foldl_append]
  · rw [List.nodup_append]
    refine ⟨first.nodup, second.nodup, ?_⟩
    rintro x before y member rfl
    exact (later x member).1 before
  · intro x member
    rcases List.mem_append.mp member with before | after
    · exact first.fresh x before
    · exact (later x after).2
  · intro x member a adjacent wanted
    rcases List.mem_append.mp member with before | after
    · exact second.keeps (first.closed x before a adjacent wanted)
    · exact second.closed x after a adjacent wanted

omit [DecidableEq V] in
/-- What can be reached later could be reached before. -/
theorem reach_of_later {old new : V → Option ι} (fewer : ∀ a, new a = none → old a = none) (path : Reach adjs want new v x) :
    Reach adjs want old v x :=
  Relation.ReflTransGen.mono (fun _ a edge => ⟨edge.1, edge.2.1, fewer a edge.2.2⟩) _ _ path

theorem Traced.fewer (traced : Traced adjs want i visit s s' l) {a : V} (free : s'.labels a = none) : s.labels a = none := by
  by_contra labelled
  exact traced.keeps labelled free

/-- What remains to be labelled. -/
def unlabelled (U : Finset V) (s : State V ι σ) : Finset V := U.filter fun x => s.labels x = none

theorem Traced.unlabelled_le (traced : Traced adjs want i visit s s' l) (U : Finset V) :
    (unlabelled U s').card ≤ (unlabelled U s).card := by
  refine Finset.card_le_card fun x member => ?_
  obtain ⟨inside, free⟩ := Finset.mem_filter.mp member
  exact Finset.mem_filter.mpr ⟨inside, traced.fewer free⟩

/-- A call of the search: it visits the vertex first, unless that has a label, and what it visits can be reached. -/
structure Searched (adjs : V → List V) (want : V → Bool) (i : ι) (visit : σ → V → σ) (v : V) (s s' : State V ι σ)
    (l : List V) : Prop extends Traced adjs want i visit s s' l where
  labelled : s'.labels v ≠ none
  skipped : s.labels v ≠ none → l = []
  start : s.labels v = none → ∃ rest, l = v :: rest
  reached : ∀ x ∈ l, Reach adjs want s.labels v x

/-- The loop over some of the neighbours of a vertex. -/
theorem foldlM_trace {U : Finset V} {fuel : Nat} (ih : ∀ s a, want a = true → (unlabelled U s).card < fuel →
      ∃ s' l, trace adjs want i visit fuel s a = some s' ∧ Searched adjs want i visit a s s' l)
    (as : List V) (s : State V ι σ) (enough : (unlabelled U s).card < fuel) :
    ∃ s' l, as.foldlM (fun s a => if want a then trace adjs want i visit fuel s a else some s) s = some s' ∧
      Traced adjs want i visit s s' l ∧ (∀ a ∈ as, want a = true → s'.labels a ≠ none) ∧
      ∀ x ∈ l, ∃ a ∈ as, want a = true ∧ s.labels a = none ∧ Reach adjs want s.labels a x := by
  induction as generalizing s with
  | nil => exact ⟨s, [], rfl, Traced.refl s, by simp, by simp⟩
  | cons a as inner =>
    rw [List.foldlM_cons]
    by_cases wanted : want a = true
    · obtain ⟨s₁, l₁, run, searched⟩ := ih s a wanted enough
      obtain ⟨s₂, l₂, runs, traced, done, reached⟩ :=
        inner s₁ (lt_of_le_of_lt (searched.unlabelled_le U) enough)
      refine ⟨s₂, l₁ ++ l₂, ?_, searched.toTraced.trans traced, fun b member want_b => ?_, fun x member => ?_⟩
      · rw [if_pos wanted, run]
        exact runs
      · rcases List.mem_cons.mp member with rfl | later
        · exact traced.keeps searched.labelled
        · exact done b later want_b
      · rcases List.mem_append.mp member with before | after
        · refine ⟨a, List.mem_cons_self, wanted, ?_, searched.reached x before⟩
          by_contra labelled
          rw [searched.skipped labelled] at before
          cases before
        · obtain ⟨b, later, want_b, free, path⟩ := reached x after
          exact ⟨b, List.mem_cons_of_mem a later, want_b, searched.fewer free, reach_of_later (fun _ => searched.fewer) path⟩
    · obtain ⟨s₂, l₂, runs, traced, done, reached⟩ := inner s enough
      refine ⟨s₂, l₂, ?_, traced, fun b member want_b => ?_, fun x member => ?_⟩
      · rw [if_neg wanted]
        exact runs
      · rcases List.mem_cons.mp member with rfl | later
        · exact absurd want_b wanted
        · exact done b later want_b
      · obtain ⟨b, later, rest⟩ := reached x member
        exact ⟨b, List.mem_cons_of_mem a later, rest⟩

/-- With fuel for every vertex without a label a call returns. -/
theorem exists_searched {U : Finset V} (inside : ∀ a, want a = true → a ∈ U) (fuel : Nat) (s : State V ι σ) (v : V)
    (wanted : want v = true) (enough : (unlabelled U s).card < fuel) :
    ∃ s' l, trace adjs want i visit fuel s v = some s' ∧ Searched adjs want i visit v s s' l := by
  induction fuel generalizing s v with
  | zero => exact absurd enough (Nat.not_lt_zero _)
  | succ fuel ih =>
    rw [trace]
    by_cases labelled : s.labels v ≠ none
    · rw [if_pos labelled]
      exact ⟨s, [], rfl, Traced.refl s, labelled, fun _ => rfl, fun free => absurd free labelled, by simp⟩
    · rw [if_neg labelled]
      have free : s.labels v = none := not_not.mp labelled
      let s₁ : State V ι σ := ⟨Function.update s.labels v (some i), visit s.found v⟩
      have fewer : ∀ a, s₁.labels a = none → a ≠ v ∧ s.labels a = none := by
        intro a none
        have other : a ≠ v := by
          rintro rfl
          simp [s₁] at none
        exact ⟨other, (Function.update_of_ne other _ _).symm.trans none⟩
      have less : (unlabelled U s₁).card < (unlabelled U s).card := by
        refine Finset.card_lt_card ⟨fun x member => ?_, fun all => ?_⟩
        · obtain ⟨inU, none⟩ := Finset.mem_filter.mp member
          exact Finset.mem_filter.mpr ⟨inU, (fewer x none).2⟩
        · have back := all (Finset.mem_filter.mpr ⟨inside v wanted, free⟩)
          exact (fewer v (Finset.mem_filter.mp back).2).1 rfl
      obtain ⟨s', l, runs, traced, done, reached⟩ :=
        foldlM_trace (fun s a wanted enough => ih s a wanted enough) (adjs v) s₁ (by omega)
      have apart : ∀ x ∈ l, x ≠ v ∧ s.labels x = none := fun x member => fewer x (traced.fresh x member)
      refine ⟨s', v :: l, runs, ⟨?_, ?_, ?_, ?_, ?_⟩, ?_, fun labelled' => absurd free labelled', fun _ => ⟨l, rfl⟩, ?_⟩
      · rw [traced.labels]
        funext x
        by_cases here : x = v
        · simp [here, s₁]
        · simp [here, s₁]
      · exact traced.found
      · exact List.nodup_cons.mpr ⟨fun member => (apart v member).1 rfl, traced.nodup⟩
      · intro x member
        rcases List.mem_cons.mp member with rfl | later
        · exact free
        · exact (apart x later).2
      · intro x member a adjacent want_a
        rcases List.mem_cons.mp member with rfl | later
        · exact done a adjacent want_a
        · exact traced.closed x later a adjacent want_a
      · exact traced.keeps (by simp [s₁])
      · intro x member
        rcases List.mem_cons.mp member with rfl | later
        · exact Relation.ReflTransGen.refl
        · obtain ⟨a, adjacent, want_a, none, path⟩ := reached x later
          exact Relation.ReflTransGen.head ⟨adjacent, want_a, (fewer a none).2⟩
            (reach_of_later (fun b none => (fewer b none).2) path)

/-- The search visits, once each, what can be reached through wanted vertices without a label, and labels exactly that. -/
theorem trace_spec {old : V → Option ι} {acc : σ} {v : V} {U : Finset V} (wanted : want v = true) (free : old v = none)
    (inside : ∀ a, want a = true → a ∈ U) {fuel : Nat} (enough : U.card < fuel) :
    ∃ l, trace adjs want i visit fuel ⟨old, acc⟩ v =
        some ⟨fun x => if x ∈ v :: l then some i else old x, (v :: l).foldl visit acc⟩ ∧
      (v :: l).Nodup ∧ ∀ x, x ∈ v :: l ↔ Reach adjs want old v x := by
  have bound : (unlabelled U (⟨old, acc⟩ : State V ι σ)).card < fuel :=
    lt_of_le_of_lt (Finset.card_le_card (Finset.filter_subset _ _)) enough
  obtain ⟨s', l, run, searched⟩ := @exists_searched V ι σ _ adjs want i visit U inside fuel ⟨old, acc⟩ v wanted bound
  obtain ⟨rest, rfl⟩ := searched.start free
  refine ⟨rest, ?_, searched.nodup, fun x => ⟨searched.reached x, fun path => ?_⟩⟩
  · rw [run, ← searched.labels, ← searched.found]
  · induction path with
    | refl => exact List.mem_cons_self
    | @tail y a _ edge ih =>
      have labelled := searched.closed y ih a edge.1 edge.2.1
      rw [searched.labels] at labelled
      dsimp only at labelled
      split_ifs at labelled with member
      · exact member
      · exact absurd edge.2.2 labelled

end KataGo.Lib.DepthFirst
