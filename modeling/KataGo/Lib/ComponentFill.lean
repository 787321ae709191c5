import KataGo.Lib.Labelling
import KataGo.Lib.Loops
import KataGo.Lib.Search

/-! Filling connected components: a loop over some vertices that labels the whole component of each vertex that
passes a test and has no label yet. -/

namespace KataGo.Lib.ComponentFill
open Labelling

variable {V ι κ σ : Type*} [DecidableEq V] [DecidableEq κ]

/-- Label the component of a vertex. -/
def fill (adjs : V → List V) (c : V → κ) (n : Nat) (i : ι) (labels : V → Option ι) (v : V) : Option (V → Option ι) :=
  (Search.search adjs (fun a => c a = c v) i (fun _ _ => ()) n labels () v).map Search.State.labels

variable {G : SimpleGraph V} {adjs : V → List V} {c : V → κ} {n : Nat} {i : ι} {labels : V → Option ι} {v : V}
  {U : Finset V}

/-- As long as whole components have labels, filling labels one more. -/
theorem fill_spec (adjacent : ∀ p q, G.Adj p q ↔ q ∈ adjs p) (inside : ∀ a, c a = c v → a ∈ U) (enough : U.card < n)
    (closed : ∀ p q, labels p ≠ none → Chain G c p q → labels q ≠ none) (fresh : labels v = none) :
    ∃ labels', fill adjs c n i labels v = some labels' ∧
      ∀ p, (Chain G c v p → labels' p = some i) ∧ (¬ Chain G c v p → labels' p = labels p) := by
  obtain ⟨l, run, -, found⟩ := @Search.search_spec V ι Unit _ adjs (fun a => decide (c a = c v)) i (fun _ _ => ()) labels ()
    v U (by simp) fresh (fun a want => inside a (of_decide_eq_true want)) n enough
  have reach : ∀ p, p ∈ v :: l ↔ Chain G c v p := by
    intro p
    rw [found]
    constructor
    · intro path
      induction path with
      | refl => exact Chain.refl v
      | tail _ edge ih =>
        have same := of_decide_eq_true edge.2.1
        exact ih.trans (Chain.single ((adjacent _ _).mpr edge.1) (same.trans ih.label.symm))
    · intro chain
      refine (Chain.mem_of_closed (S := fun p => Chain G c v p ∧ Search.Reach adjs (fun a => decide (c a = c v)) labels v p)
        ⟨Chain.refl v, Relation.ReflTransGen.refl⟩ ?_ chain).2
      rintro x a ⟨along, path⟩ edge same
      have next := along.trans (Chain.single edge same)
      refine ⟨next, path.tail ⟨(adjacent x a).mp edge, decide_eq_true next.label, ?_⟩⟩
      by_contra labelled
      exact closed a v labelled next.symm fresh
  refine ⟨_, by rw [fill, run]; rfl, fun p => ⟨fun chain => if_pos ((reach p).mpr chain), fun none => ?_⟩⟩
  exact if_neg fun member => none ((reach p).mp member)

/-- The rule for the loop. The state holds the labels under `labelsOf`; the label of a component is a function of its
colour. -/
theorem foldlM_fill (adjacent : ∀ p q, G.Adj p q ↔ q ∈ adjs p) {l : List V} (test : V → Bool) (value : κ → ι)
    (labelsOf : σ → V → Option ι) (step : σ → V → Option σ) {s : σ} (start : labelsOf s = fun _ => none)
    (inside : ∀ v ∈ l, test v = true → ∀ a, c a = c v → a ∈ U) (enough : U.card < n)
    (fills : ∀ v ∈ l, ∀ s labels', test v = true → labelsOf s v = none →
      fill adjs c n (value (c v)) (labelsOf s) v = some labels' → ∃ s', step s v = some s' ∧ labelsOf s' = labels')
    (skips : ∀ v ∈ l, ∀ s, test v = false ∨ labelsOf s v = some (value (c v)) →
      ∃ s', step s v = some s' ∧ labelsOf s' = labelsOf s) :
    ∃ s', l.foldlM step s = some s' ∧ ∀ p,
      ((∃ v ∈ l, test v = true ∧ Chain G c v p) → labelsOf s' p = some (value (c p))) ∧
      (¬ (∃ v ∈ l, test v = true ∧ Chain G c v p) → labelsOf s' p = none) := by
  refine foldlM_seen step (fun seen s' => ∀ p,
    ((∃ v ∈ seen, test v = true ∧ Chain G c v p) → labelsOf s' p = some (value (c p))) ∧
    (¬ (∃ v ∈ seen, test v = true ∧ Chain G c v p) → labelsOf s' p = none)) (fun seen v rest s split known => ?_)
    fun p => ⟨by simp, fun _ => by rw [start]⟩
  have member : v ∈ l := by simp [← split]
  have more : ∀ p, (∃ w ∈ seen ++ [v], test w = true ∧ Chain G c w p) ↔
      (∃ w ∈ seen, test w = true ∧ Chain G c w p) ∨ test v = true ∧ Chain G c v p := by
    intro p
    simp only [List.mem_append, List.mem_singleton, or_and_right, exists_or, exists_eq_left]
  simp only [more]
  by_cases passes : test v = true
  · by_cases before : ∃ w ∈ seen, test w = true ∧ Chain G c w v
    · -- The component of this vertex has been filled before.
      obtain ⟨s', run, same⟩ := skips v member s (.inr ((known v).1 before))
      obtain ⟨w, earlier, passed, chain⟩ := before
      refine ⟨s', run, fun p => ?_⟩
      rw [same]
      refine ⟨fun found => (known p).1 ?_, fun none => (known p).2 fun found => none (.inl found)⟩
      rcases found with old | ⟨-, along⟩
      · exact old
      · exact ⟨w, earlier, passed, chain.trans along⟩
    · have closed : ∀ p q, labelsOf s p ≠ none → Chain G c p q → labelsOf s q ≠ none := by
        intro p q labelled chain
        by_cases found : ∃ w ∈ seen, test w = true ∧ Chain G c w p
        · obtain ⟨w, earlier, passed, along⟩ := found
          rw [(known q).1 ⟨w, earlier, passed, along.trans chain⟩]
          exact Option.some_ne_none _
        · exact absurd ((known p).2 found) labelled
      have fresh := (known v).2 before
      obtain ⟨labels', filled, labelled⟩ := @fill_spec V ι κ _ _ G adjs c n (value (c v)) (labelsOf s) v U adjacent
        (inside v member passes) enough closed fresh
      obtain ⟨s', run, same⟩ := fills v member s labels' passes fresh filled
      refine ⟨s', run, fun p => ?_⟩
      rw [same]
      by_cases here : Chain G c v p
      · rw [(labelled p).1 here, here.label]
        exact ⟨fun _ => rfl, fun none => absurd (.inr ⟨passes, here⟩) none⟩
      · rw [(labelled p).2 here]
        refine ⟨fun found => (known p).1 (found.resolve_right fun both => here both.2), fun none => (known p).2 fun found => ?_⟩
        exact none (.inl found)
  · obtain ⟨s', run, same⟩ := skips v member s (.inl (by simpa using passes))
    refine ⟨s', run, fun p => ?_⟩
    rw [same]
    exact ⟨fun found => (known p).1 (found.resolve_right fun both => passes both.1),
      fun none => (known p).2 fun found => none (.inl found)⟩

/-- Two loops: the first marks the components with a point that passes a test, the second labels the others. Only
vertices of some colours take part. -/
theorem foldlM_unmarked (adjacent : ∀ p q, G.Adj p q ↔ q ∈ adjs p) {l : List V} (owned : κ → Bool) (test : V → Bool)
    (value : κ → ι) (labelsOf : σ → V → Option ι) (mark : (V → Option Unit) → V → Option (V → Option Unit))
    (step : (V → Option Unit) → σ → V → Option σ) {s : σ} (start : labelsOf s = fun _ => none)
    (covers : ∀ v, owned (c v) = true → v ∈ l ∧ v ∈ U) (enough : U.card < n)
    (marks_fill : ∀ v ∈ l, ∀ m m', (owned (c v) && test v) = true → m v = none → fill adjs c n () m v = some m' →
      mark m v = some m')
    (marks_skip : ∀ v ∈ l, ∀ m, (owned (c v) && test v) = false ∨ m v = some () → mark m v = some m)
    (fills : ∀ v ∈ l, ∀ m s labels', (owned (c v) && (m v).isNone) = true → labelsOf s v = none →
      fill adjs c n (value (c v)) (labelsOf s) v = some labels' → ∃ s', step m s v = some s' ∧ labelsOf s' = labels')
    (skips : ∀ v ∈ l, ∀ m s, (owned (c v) && (m v).isNone) = false ∨ labelsOf s v = some (value (c v)) →
      ∃ s', step m s v = some s' ∧ labelsOf s' = labelsOf s) :
    ∃ m s', l.foldlM mark (fun _ => none) = some m ∧ l.foldlM (step m) s = some s' ∧ ∀ p,
      (owned (c p) = true → (¬ ∃ q, Chain G c p q ∧ test q = true) → labelsOf s' p = some (value (c p))) ∧
      ((owned (c p) = false ∨ ∃ q, Chain G c p q ∧ test q = true) → labelsOf s' p = none) := by
  have same : ∀ v a, c a = c v → owned (c v) = true → a ∈ U := fun v a colour mine => (covers a (by rw [colour]; exact mine)).2
  obtain ⟨m, marking, marked⟩ := foldlM_fill (G := G) (c := c) adjacent (fun v => owned (c v) && test v) (fun _ => ())
    (fun m : V → Option Unit => m) mark (l := l) (s := fun _ => none) rfl
    (fun v _ passes a colour => same v a colour (Bool.and_eq_true_iff.mp passes).1) enough
    (fun v member m m' passes fresh filled => ⟨m', marks_fill v member m m' passes fresh filled, rfl⟩)
    (fun v member m skip => ⟨m, marks_skip v member m skip, rfl⟩)
  obtain ⟨s', labelling, labelled⟩ := foldlM_fill (G := G) (c := c) adjacent (fun v => owned (c v) && (m v).isNone) value
    labelsOf (step m) (l := l) start
    (fun v _ passes a colour => same v a colour (Bool.and_eq_true_iff.mp passes).1) enough
    (fun v member s labels' => fills v member m s labels') (fun v member s => skips v member m s)
  have unmarked : ∀ p, owned (c p) = true → ((m p).isNone = true ↔ ¬ ∃ q, Chain G c p q ∧ test q = true) := by
    intro p mine
    by_cases found : ∃ q, Chain G c p q ∧ test q = true
    · obtain ⟨q, chain, passes⟩ := found
      have ownedQ : owned (c q) = true := by rw [chain.label]; exact mine
      rw [(marked p).1 ⟨q, (covers q ownedQ).1, Bool.and_eq_true_iff.mpr ⟨ownedQ, passes⟩, chain.symm⟩]
      exact iff_of_false (by simp) (fun none => none ⟨q, chain, passes⟩)
    · rw [(marked p).2 ?_]
      · exact iff_of_true rfl found
      · rintro ⟨v, -, passes, chain⟩
        exact found ⟨v, chain.symm, (Bool.and_eq_true_iff.mp passes).2⟩
  refine ⟨m, s', marking, labelling, fun p => ⟨fun mine calm => ?_, fun out => ?_⟩⟩
  · exact (labelled p).1 ⟨p, (covers p mine).1, Bool.and_eq_true_iff.mpr ⟨mine, (unmarked p mine).mpr calm⟩, Chain.refl p⟩
  · refine (labelled p).2 ?_
    rintro ⟨v, -, passes, chain⟩
    obtain ⟨mine, free⟩ := Bool.and_eq_true_iff.mp passes
    rcases out with other | ⟨q, along, touching⟩
    · rw [chain.label, mine] at other
      cases other
    · exact (unmarked v mine).mp free ⟨q, chain.trans along, touching⟩

end KataGo.Lib.ComponentFill
