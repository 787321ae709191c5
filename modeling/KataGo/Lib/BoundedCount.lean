import KataGo.Lib.Loops
import Mathlib.Data.Set.Card

/-! A count of the vertices that a search finds, given up as soon as it exceeds a bound. The count
and the vertices counted are shared by several searches. -/

namespace KataGo.Lib.BoundedCount

variable {V : Type} [DecidableEq V]

structure State (V : Type) where
  counted : V → Bool
  count : Int

def mark (s : State V) (v : V) : State V := ⟨Function.update s.counted v true, s.count + 1⟩

/-- Count a vertex, and give up when there are too many. -/
def take (bound : Int) (s : State V) (v : V) : ExceptT Unit Option (State V) :=
  if (mark s v).count > bound then throw () else return mark s v

def push (want : V → Bool) (bound : Int) (s : State V × List V) (a : V) : ExceptT Unit Option (State V × List V) :=
  if want a ∧ ¬ s.1.counted a then do
    let s' ← take bound s.1 a
    return (s', s.2 ++ [a])
  else return s

/-- Expand what is on the queue until nothing is left. -/
def run (adjs : V → List V) (want : V → Bool) (bound : Int) : Nat → State V → List V → ExceptT Unit Option (State V)
  | 0, _, _ => ExceptT.lift none
  | _ + 1, s, [] => return s
  | rounds + 1, s, v :: queue => do
      let (s, queue) ← (adjs v).foldlM (push want bound) (s, queue)
      run adjs want bound rounds s queue

/-- Count what can be reached from a vertex and has not been counted yet. -/
def countFrom (adjs : V → List V) (want : V → Bool) (bound : Int) (rounds : Nat) (s : State V) (v : V) :
    ExceptT Unit Option (State V) :=
  if s.counted v then return s
  else do
    let s ← take bound s v
    run adjs want bound rounds s [v]

variable {adjs : V → List V} {want : V → Bool} {base bound : Int} {T : Set V} {s s' : State V} {v : V} {queue : List V}

/-- The counted vertices are some of `T`, and not yet too many. -/
structure Tally (base bound : Int) (T : Set V) (s : State V) : Prop where
  count : s.count = base + ({v | s.counted v = true}.ncard : Int)
  inside : ∀ v, s.counted v = true → v ∈ T
  within : s.count ≤ bound

/-- Giving up is right. -/
def Exceeds (base bound : Int) (T : Set V) (_ : Unit) : Prop := bound < base + (T.ncard : Int)

/-- Everything next to what has been counted has been counted, apart from what is next to the queue. -/
def Saturated (adjs : V → List V) (want : V → Bool) (s : State V) (queue : List V) : Prop :=
  ∀ v, s.counted v = true → v ∈ queue ∨ ∀ a ∈ adjs v, want a = true → s.counted a = true

omit [DecidableEq V] in
theorem Tally.le (tally : Tally base bound T s) (finite : T.Finite) : s.count ≤ base + T.ncard := by
  rw [tally.count]
  exact Int.add_le_add_left (Int.ofNat_le.2 (Set.ncard_le_ncard tally.inside finite)) base

theorem mark_counted {x : V} : (mark s v).counted x = true ↔ x = v ∨ s.counted x = true := by
  unfold mark
  by_cases here : x = v
  · simp [here]
  · simp [here]

theorem Tally.take (tally : Tally base bound T s) (finite : T.Finite) (inside : v ∈ T) (fresh : s.counted v ≠ true) :
    Ends (take bound s v) (fun s' => s' = mark s v ∧ Tally base bound T s') (Exceeds base bound T) := by
  have grown : {x | (mark s v).counted x = true} = insert v {x | s.counted x = true} := by
    ext x
    exact mark_counted
  have count : (mark s v).count = base + ({x | (mark s v).counted x = true}.ncard : Int) := by
    have outside : v ∉ {x | s.counted x = true} := fresh
    rw [grown, Set.ncard_insert_of_notMem outside (finite.subset tally.inside)]
    show s.count + 1 = _
    rw [tally.count]
    omega
  have members : ∀ x, (mark s v).counted x = true → x ∈ T := fun x marked =>
    (mark_counted.1 marked).elim (fun here => here ▸ inside) (tally.inside x)
  unfold BoundedCount.take
  by_cases many : (mark s v).count > bound
  · rw [if_pos many]
    refine Ends.throw (lt_of_lt_of_le many ?_)
    rw [count]
    exact Int.add_le_add_left (Int.ofNat_le.2 (Set.ncard_le_ncard members finite)) base
  · rw [if_neg many]
    exact Ends.pure ⟨rfl, count, members, not_lt.1 many⟩

/-- What the loop over some neighbours adds to the queue and to the count. -/
structure Pushed (base bound : Int) (T : Set V) (want : V → Bool) (s : State V) (queue seen : List V)
    (next : State V × List V) : Prop where
  tally : Tally base bound T next.1
  more : ∀ x, s.counted x = true → next.1.counted x = true
  queued : ∀ x, next.1.counted x = true → s.counted x = true ∨ x ∈ next.2
  kept : ∀ x ∈ queue, x ∈ next.2
  onQueue : ∀ x ∈ next.2, x ∈ queue ∨ next.1.counted x = true
  seen : ∀ a ∈ seen, want a = true → next.1.counted a = true
  balance : (next.2.length : Int) + s.count = queue.length + next.1.count

theorem foldlM_push (tally : Tally base bound T s) (finite : T.Finite) {as : List V}
    (inside : ∀ a ∈ as, want a = true → a ∈ T) :
    Ends (as.foldlM (push want bound) (s, queue)) (Pushed base bound T want s queue as) (Exceeds base bound T) := by
  refine Ends.foldlM (Pushed base bound T want s queue) (fun seen a rest next split pushed => ?_)
    ⟨tally, fun _ => id, fun _ => .inl, fun _ => id, fun _ => .inl, fun a absent => (nomatch absent), rfl⟩
  unfold push
  by_cases wanted : want a = true ∧ ¬ next.1.counted a = true
  · rw [if_pos wanted]
    have member : a ∈ as := split ▸ List.mem_append_right seen List.mem_cons_self
    refine (pushed.tally.take finite (inside a member wanted.1) wanted.2).bind ?_
    rintro _ ⟨rfl, tally'⟩
    refine Ends.pure ⟨tally', fun x old => mark_counted.2 (.inr (pushed.more x old)), fun x marked => ?_,
      fun x old => List.mem_append_left _ (pushed.kept x old), fun x member => ?_, fun x member open_ => ?_, ?_⟩
    · rcases mark_counted.1 marked with rfl | before
      · exact .inr (List.mem_append_right _ List.mem_cons_self)
      · exact (pushed.queued x before).imp_right (List.mem_append_left _)
    · rcases List.mem_append.1 member with before | here
      · exact (pushed.onQueue x before).imp_right fun marked => mark_counted.2 (.inr marked)
      · exact .inr (mark_counted.2 (.inl (List.mem_singleton.1 here)))
    · rcases List.mem_append.1 member with before | here
      · exact mark_counted.2 (.inr (pushed.seen x before open_))
      · exact mark_counted.2 (.inl (List.mem_singleton.1 here))
    · have balance := pushed.balance
      show ((next.2 ++ [a]).length : Int) + s.count = queue.length + (next.1.count + 1)
      rw [List.length_append, List.length_singleton]
      push_cast
      omega
  · rw [if_neg wanted]
    refine Ends.pure ⟨pushed.tally, pushed.more, pushed.queued, pushed.kept, pushed.onQueue, fun x member open_ => ?_,
      pushed.balance⟩
    rcases List.mem_append.1 member with before | here
    · exact pushed.seen x before open_
    · rw [List.mem_singleton] at here
      subst here
      exact not_not.1 fun uncounted => wanted ⟨open_, uncounted⟩

/-- With a round for every vertex of `T` the loop completes, or rightly gives up. -/
theorem run_spec (finite : T.Finite) (closed : ∀ v ∈ T, ∀ a ∈ adjs v, want a = true → a ∈ T) (rounds : Nat)
    (tally : Tally base bound T s) (queued : ∀ v ∈ queue, s.counted v = true) (saturated : Saturated adjs want s queue)
    (enough : (queue.length : Int) + T.ncard < rounds + (s.count - base)) :
    Ends (run adjs want bound rounds s queue)
      (fun s' => Tally base bound T s' ∧ Saturated adjs want s' [] ∧ ∀ x, s.counted x = true → s'.counted x = true)
      (Exceeds base bound T) := by
  induction rounds generalizing s queue with
  | zero =>
    have least := tally.le finite
    push_cast at enough
    omega
  | succ rounds ih =>
    cases queue with
    | nil => exact Ends.pure ⟨tally, saturated, fun _ => id⟩
    | cons v queue =>
      have here := queued v List.mem_cons_self
      refine (foldlM_push tally finite (closed v (tally.inside v here))).bind ?_
      rintro ⟨s₁, queue₁⟩ ⟨tally₁, more, new, kept, onQueue, seen, balance⟩
      dsimp only at tally₁ more new kept onQueue seen balance
      refine (ih tally₁ (fun x member => ?_) (fun x marked => ?_) ?_).imp fun s₂ done =>
        ⟨done.1, done.2.1, fun x old => done.2.2 x (more x old)⟩
      · exact (onQueue x member).elim (fun old => more x (queued x (List.mem_cons_of_mem _ old))) id
      · rcases new x marked with old | waiting
        · rcases saturated x old with waiting | full
          · rcases List.mem_cons.1 waiting with rfl | later
            · exact .inr seen
            · exact .inl (kept x later)
          · exact .inr fun a adjacent open_ => more a (full a adjacent open_)
        · exact .inl waiting
      · rw [List.length_cons] at enough
        push_cast at enough
        omega

theorem countFrom_spec (finite : T.Finite) (closed : ∀ v ∈ T, ∀ a ∈ adjs v, want a = true → a ∈ T) {rounds : Nat}
    (tally : Tally base bound T s) (saturated : Saturated adjs want s []) (inside : v ∈ T) (enough : T.ncard < rounds) :
    Ends (countFrom adjs want bound rounds s v)
      (fun s' => Tally base bound T s' ∧ Saturated adjs want s' [] ∧ (∀ x, s.counted x = true → s'.counted x = true) ∧
        s'.counted v = true)
      (Exceeds base bound T) := by
  unfold countFrom
  by_cases old : s.counted v = true
  · rw [if_pos old]
    exact Ends.pure ⟨tally, saturated, fun _ => id, old⟩
  · rw [if_neg old]
    refine (tally.take finite inside old).bind ?_
    rintro _ ⟨rfl, tally'⟩
    have self : (mark s v).counted v = true := mark_counted.2 (.inl rfl)
    refine (@run_spec _ _ _ _ _ _ _ _ [v] finite closed rounds tally' ?_ ?_ ?_).imp fun s₂ done =>
      ⟨done.1, done.2.1, fun x before => done.2.2 x (mark_counted.2 (.inr before)), done.2.2 v self⟩
    · intro x member
      rw [List.mem_singleton.1 member]
      exact self
    · intro x marked
      rcases mark_counted.1 marked with rfl | before
      · exact .inl List.mem_cons_self
      · refine .inr fun a adjacent open_ => mark_counted.2 (.inr ?_)
        exact ((saturated x before).resolve_left List.not_mem_nil) a adjacent open_
    · have positive : (1 : Int) ≤ (mark s v).count - base := by
        rw [tally'.count]
        have member : 0 < {x | (mark s v).counted x = true}.ncard :=
          (Set.ncard_pos (finite.subset tally'.inside)).2 ⟨v, self⟩
        omega
      rw [List.length_singleton]
      omega

omit [DecidableEq V] in
/-- When everything has been counted, the bound has not been exceeded. -/
theorem Tally.full (tally : Tally base bound T s) (all : ∀ v ∈ T, s.counted v = true) : base + (T.ncard : Int) ≤ bound := by
  have whole : {v | s.counted v = true} = T := Set.ext fun v => ⟨tally.inside v, all v⟩
  rw [← whole, ← tally.count]
  exact tally.within

end KataGo.Lib.BoundedCount
