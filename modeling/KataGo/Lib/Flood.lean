import KataGo.Lib.Labelling
import Mathlib.Data.Finset.Card
import Mathlib.Logic.Relation
import Mathlib.Data.List.Nodup

/-! Recursive flood fill over a state. `want` says which vertices the state still
wants to be filled and `visit` fills one of them; the only thing the fill relies on is
that a visit makes exactly the visited vertex unwanted. -/

namespace KataGo.Lib.Flood

variable {σ V : Type*} [DecidableEq V]

/-- Visit `v`, then flood every neighbour that is still wanted when its turn comes. -/
def flood (adjs : V → List V) (want : σ → V → Bool) (visit : σ → V → σ) : Nat → σ → V → Option σ
  | 0, _, _ => none
  | fuel + 1, s, v =>
      (adjs v).foldlM (fun s a => if want s a then flood adjs want visit fuel s a else some s) (visit s v)

variable {adjs : V → List V} {want : σ → V → Bool} {visit : σ → V → σ}

omit [DecidableEq V] in
/-- What every visit preserves, the whole flood does. -/
theorem flood_invariant (I : σ → Prop) (visits : ∀ s v, I s → I (visit s v)) (fuel : Nat) {s s' : σ} {v : V}
    (start : I s) (run : flood adjs want visit fuel s v = some s') : I s' := by
  induction fuel generalizing s v s' with
  | zero => exact (nomatch run)
  | succ fuel ih =>
    have steps : ∀ (l : List V) {s s' : σ}, I s →
        l.foldlM (fun s a => if want s a then flood adjs want visit fuel s a else some s) s = some s' → I s' := by
      intro l
      induction l with
      | nil =>
        intro s s' inv run
        obtain rfl := Option.some.inj run
        exact inv
      | cons a l rest =>
        intro s s' inv run
        obtain ⟨s₁, first, run⟩ := Option.bind_eq_some_iff.mp run
        have first : (if want s a then flood adjs want visit fuel s a else some s) = some s₁ := first
        by_cases wanted : want s a = true
        · rw [if_pos wanted] at first
          exact rest (ih inv first) run
        · rw [if_neg wanted] at first
          obtain rfl := Option.some.inj first
          exact rest inv run
    exact steps _ (visits s v start) run

theorem want_foldl (marks : ∀ s v a, want (visit s v) a = (want s a && decide (a ≠ v)))
    (s : σ) (l : List V) (a : V) : want (l.foldl visit s) a = (want s a && decide (a ∉ l)) := by
  induction l generalizing s with
  | nil => simp
  | cons v l ih =>
    rw [List.foldl_cons, ih, marks]
    by_cases same : a = v <;> simp [same]

/-- What one run of the fill has done: it visited `l` in order. -/
structure Filled (adjs : V → List V) (want : σ → V → Bool) (s : σ) (v : V) (l : List V) : Prop where
  nodup : l.Nodup
  start : v ∈ l
  wanted : ∀ x ∈ l, want s x = true
  closed : ∀ x ∈ l, ∀ a ∈ adjs x, want s a = true → a ∈ l
  reached : ∀ x ∈ l, Relation.ReflTransGen (fun x a => a ∈ adjs x ∧ want s a = true) v x

omit [DecidableEq V] in
/-- A completed fill has visited exactly what is reachable through wanted vertices. -/
theorem Filled.mem_iff {s : σ} {v : V} {l : List V} (filled : Filled adjs want s v l) (x : V) :
    x ∈ l ↔ Relation.ReflTransGen (fun x a => a ∈ adjs x ∧ want s a = true) v x := by
  refine ⟨filled.reached x, fun path => ?_⟩
  induction path with
  | refl => exact filled.start
  | tail _ edge ih => exact filled.closed _ ih _ edge.1 edge.2

omit [DecidableEq V] in
/-- A fill that wants one label of a graph visits a component. -/
theorem Filled.mem_iff_chain {κ : Type*} {G : SimpleGraph V} {c : V → κ} {s : σ} {v : V} {l : List V}
    (edges : ∀ x a, a ∈ adjs x ↔ G.Adj x a) (labels : ∀ a, want s a = true ↔ c a = c v)
    (filled : Filled adjs want s v l) (x : V) : x ∈ l ↔ Labelling.Chain G c v x := by
  refine (Labelling.chain_iff (S := (· ∈ l)) filled.start ?_ ?_ x).symm
  · intro y a inside adjacent same
    refine filled.closed y inside a ((edges y a).2 adjacent) ((labels a).2 (same.trans ?_))
    exact (labels y).1 (filled.wanted y inside)
  · intro y inside
    have path := filled.reached y inside
    induction path with
    | refl => exact Labelling.Chain.refl v
    | @tail y z before edge ih =>
      have inner := (filled.mem_iff y).2 before
      refine (ih inner).trans (Labelling.Chain.single ((edges y z).1 edge.1) ?_)
      rw [(labels z).1 edge.2, (labels y).1 (filled.wanted y inner)]

/-- The state of a run that has visited `v :: l` and the neighbours `seen` of `v`. -/
structure Partial (adjs : V → List V) (want : σ → V → Bool) (s : σ) (v : V) (l seen : List V) :
    Prop where
  nodup : (v :: l).Nodup
  wanted : ∀ x ∈ v :: l, want s x = true
  closed : ∀ x ∈ l, ∀ a ∈ adjs x, want s a = true → a ∈ v :: l
  reached : ∀ x ∈ v :: l, Relation.ReflTransGen (fun x a => a ∈ adjs x ∧ want s a = true) v x
  done : ∀ a ∈ seen, want s a = true → a ∈ v :: l

theorem partial_skip (marks : ∀ s v a, want (visit s v) a = (want s a && decide (a ≠ v)))
    {s : σ} {v a : V} {l seen : List V} (run : Partial adjs want s v l seen)
    (skip : want ((v :: l).foldl visit s) a = false) : Partial adjs want s v l (seen ++ [a]) := by
  refine ⟨run.nodup, run.wanted, run.closed, run.reached, ?_⟩
  intro b member wanted
  rcases List.mem_append.1 member with old | new
  · exact run.done b old wanted
  · obtain rfl : b = a := by simpa using new
    rw [want_foldl marks, wanted, Bool.true_and, decide_eq_false_iff_not, not_not] at skip
    exact skip

theorem partial_extend (marks : ∀ s v a, want (visit s v) a = (want s a && decide (a ≠ v)))
    {s : σ} {v a : V} {l l' seen : List V} (run : Partial adjs want s v l seen)
    (edge : a ∈ adjs v) (filled : Filled adjs want ((v :: l).foldl visit s) a l') :
    Partial adjs want s v (l ++ l') (seen ++ [a]) := by
  have fresh : ∀ x, want ((v :: l).foldl visit s) x = true ↔ want s x = true ∧ x ∉ v :: l := by
    intro x
    rw [want_foldl marks, Bool.and_eq_true, decide_eq_true_eq]
  have outside : ∀ x ∈ l', want s x = true ∧ x ∉ v :: l := fun x member =>
    (fresh x).1 (filled.wanted x member)
  refine ⟨?_, ?_, ?_, ?_, ?_⟩
  · rw [← List.cons_append, List.nodup_append]
    refine ⟨run.nodup, filled.nodup, ?_⟩
    intro x old y new same
    exact (outside y new).2 (same ▸ old)
  · intro x member
    rw [← List.cons_append, List.mem_append] at member
    exact member.elim (run.wanted x) (fun new => (outside x new).1)
  · intro x member b adjacent wanted
    rw [← List.cons_append, List.mem_append]
    by_cases old : b ∈ v :: l
    · exact Or.inl old
    · rcases List.mem_append.1 member with inside | new
      · exact Or.inl (run.closed x inside b adjacent wanted)
      · exact Or.inr (filled.closed x new b adjacent ((fresh b).2 ⟨wanted, old⟩))
  · intro x member
    rw [← List.cons_append, List.mem_append] at member
    rcases member with old | new
    · exact run.reached x old
    · have first := Relation.ReflTransGen.single (r := fun x a => a ∈ adjs x ∧ want s a = true)
        ⟨edge, (outside a filled.start).1⟩
      exact first.trans (Relation.ReflTransGen.mono (fun y b step => ⟨step.1, ((fresh b).1 step.2).1⟩) _ _
        (filled.reached x new))
  · intro b member wanted
    rw [← List.cons_append, List.mem_append]
    rcases List.mem_append.1 member with old | new
    · exact Or.inl (run.done b old wanted)
    · obtain rfl : b = a := by simpa using new
      exact Or.inr filled.start

/-- The loop over the neighbours of `v`, given what the recursive calls do. -/
theorem flood_neighbours (marks : ∀ s v a, want (visit s v) a = (want s a && decide (a ≠ v)))
    {s : σ} {v : V} {fuel : Nat} {U : Finset V} (inside : ∀ a, want s a = true → a ∈ U)
    (small : (U.erase v).card ≤ fuel)
    (calls : ∀ (s : σ) (v : V) (U : Finset V), want s v = true → (∀ a, want s a = true → a ∈ U) →
      U.card ≤ fuel → ∃ l, flood adjs want visit fuel s v = some (l.foldl visit s) ∧ Filled adjs want s v l)
    (rest : List V) {l seen : List V} (split : seen ++ rest = adjs v)
    (run : Partial adjs want s v l seen) :
    ∃ l', rest.foldlM (fun s a => if want s a then flood adjs want visit fuel s a else some s)
        ((v :: l).foldl visit s) = some ((v :: l').foldl visit s) ∧ Partial adjs want s v l' (adjs v) := by
  induction rest generalizing l seen with
  | nil =>
    obtain rfl : seen = adjs v := by simpa using split
    exact ⟨l, by simp, run⟩
  | cons a rest ih =>
    have edge : a ∈ adjs v := by simp [← split]
    have split' : (seen ++ [a]) ++ rest = adjs v := by simpa using split
    by_cases wanted : want ((v :: l).foldl visit s) a = true
    · have within : ∀ b, want ((v :: l).foldl visit s) b = true → b ∈ U.erase v := by
        intro b hb
        rw [want_foldl marks, Bool.and_eq_true, decide_eq_true_eq] at hb
        exact Finset.mem_erase.2 ⟨fun same => hb.2 (by simp [same]), inside b hb.1⟩
      obtain ⟨l', call, filled⟩ := calls _ a _ wanted within small
      obtain ⟨l'', tail, final⟩ := ih split' (partial_extend marks run edge filled)
      refine ⟨l'', ?_, final⟩
      rw [List.foldlM_cons, if_pos wanted, call, ← List.foldl_append]
      exact tail
    · obtain ⟨l'', tail, final⟩ := ih split' (partial_skip marks run (by simpa using wanted))
      refine ⟨l'', ?_, final⟩
      rw [List.foldlM_cons, if_neg wanted]
      exact tail

/-- With fuel for every wanted vertex the fill completes. -/
theorem flood_spec (adjs : V → List V) (want : σ → V → Bool) (visit : σ → V → σ)
    (marks : ∀ s v a, want (visit s v) a = (want s a && decide (a ≠ v)))
    (fuel : Nat) (s : σ) (v : V) (U : Finset V) (wanted : want s v = true)
    (inside : ∀ a, want s a = true → a ∈ U) (enough : U.card ≤ fuel) :
    ∃ l, flood adjs want visit fuel s v = some ((v :: l).foldl visit s) ∧
      Filled adjs want s v (v :: l) := by
  induction fuel generalizing s v U with
  | zero =>
    have empty : U = ∅ := Finset.card_eq_zero.1 (by omega)
    simpa [empty] using inside v wanted
  | succ fuel ih =>
    have small : (U.erase v).card ≤ fuel := by
      have shrink := Finset.card_erase_of_mem (inside v wanted)
      omega
    have start : Partial adjs want s v [] [] :=
      ⟨by simp, by simpa using wanted, by simp, by simpa using Relation.ReflTransGen.refl, by simp⟩
    obtain ⟨l, call, final⟩ := flood_neighbours marks inside small
      (fun s v U wanted inside enough => by
        obtain ⟨l, call, filled⟩ := ih s v U wanted inside enough
        exact ⟨v :: l, call, filled⟩)
      (adjs v) (List.nil_append _) start
    refine ⟨l, call, final.nodup, by simp, final.wanted, ?_, final.reached⟩
    intro x member a adjacent wantedA
    rcases List.mem_cons.1 member with same | inner
    · exact final.done a (same ▸ adjacent) wantedA
    · exact final.closed x inner a adjacent wantedA

end KataGo.Lib.Flood
