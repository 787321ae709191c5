import Mathlib.Data.Bool.Basic
import Mathlib.Data.List.Nodup
import Mathlib.Logic.Function.Basic

/-! Computations that may fail, and loops over a list: invariants, and the arrays that a loop writes
point by point. -/

namespace KataGo.Lib

variable {α σ V : Type*}

theorem guard_bind_eq_some {β : Type} {p : Prop} [Decidable p] {f : Unit → Option β} {a : β} :
    ((guard p : Option Unit) >>= f) = some a ↔ p ∧ f () = some a := by
  by_cases holds : p
  · rw [guard, if_pos holds]
    exact (and_iff_right holds).symm
  · rw [guard, if_neg holds]
    exact ⟨fun impossible => (nomatch impossible), fun both => absurd both.1 holds⟩

/-- A loop whose body returns whenever the invariant holds, and keeps it. -/
theorem foldlM_invariant (step : σ → α → Option σ) (I : σ → Prop) {l : List α} {s : σ}
    (body : ∀ s a, a ∈ l → I s → ∃ s', step s a = some s' ∧ I s') (start : I s) :
    ∃ s', l.foldlM step s = some s' ∧ I s' := by
  induction l generalizing s with
  | nil => exact ⟨s, rfl, start⟩
  | cons a l ih =>
    obtain ⟨s', run, kept⟩ := body s a List.mem_cons_self start
    rw [List.foldlM_cons, run]
    exact ih (fun s b member => body s b (List.mem_cons_of_mem a member)) kept

/-- A loop whose invariant speaks of the elements already seen. -/
theorem foldlM_seen (step : σ → α → Option σ) (I : List α → σ → Prop) {l : List α} {s : σ}
    (body : ∀ seen a rest s, seen ++ a :: rest = l → I seen s → ∃ s', step s a = some s' ∧ I (seen ++ [a]) s')
    (start : I [] s) : ∃ s', l.foldlM step s = some s' ∧ I l s' := by
  suffices general : ∀ rest seen s, seen ++ rest = l → I seen s → ∃ s', rest.foldlM step s = some s' ∧ I l s' from
    general l [] s rfl start
  intro rest
  induction rest with
  | nil =>
    rintro seen s split kept
    rw [List.append_nil] at split
    exact ⟨s, rfl, split ▸ kept⟩
  | cons a rest ih =>
    intro seen s split kept
    obtain ⟨s₁, run, next⟩ := body seen a rest s split kept
    rw [List.foldlM_cons, run]
    exact ih (seen ++ [a]) s₁ (by rw [List.append_assoc]; exact split) next

/-- What no step of a loop changes, the loop does not. -/
theorem foldlM_keeps {β : Type*} (f : σ → β) (step : σ → α → Option σ) (keeps : ∀ s a s', step s a = some s' → f s' = f s)
    {l : List α} {s s' : σ} (run : l.foldlM step s = some s') : f s' = f s := by
  induction l generalizing s with
  | nil =>
    cases run
    rfl
  | cons a l ih =>
    obtain ⟨s₁, first, rest⟩ := Option.bind_eq_some_iff.mp run
    exact (ih rest).trans (keeps s a s₁ first)

theorem foldl_keeps {β : Type*} (f : σ → β) (step : σ → α → σ) (keeps : ∀ s a, f (step s a) = f s) (l : List α) (s : σ) :
    f (l.foldl step s) = f s := by
  induction l generalizing s with
  | nil => rfl
  | cons a l ih => exact (ih (step s a)).trans (keeps s a)

section EarlyReturn

variable {β ε : Type}

/-- The computation falls through with `P`, or returns early with `E`. -/
def Ends (x : ExceptT ε Option β) (P : β → Prop) (E : ε → Prop) : Prop :=
  (∃ a, x.run = some (.ok a) ∧ P a) ∨ ∃ e, x.run = some (.error e) ∧ E e

theorem Ends.pure {P : β → Prop} {E : ε → Prop} {a : β} (holds : P a) : Ends (Pure.pure a) P E :=
  Or.inl ⟨a, rfl, holds⟩

theorem Ends.throw {P : β → Prop} {E : ε → Prop} {e : ε} (holds : E e) :
    Ends (MonadExcept.throw e : ExceptT ε Option β) P E :=
  Or.inr ⟨e, rfl, holds⟩

theorem Ends.imp {P Q : β → Prop} {E : ε → Prop} {x : ExceptT ε Option β} (ends : Ends x P E) (weaker : ∀ a, P a → Q a) :
    Ends x Q E := by
  rcases ends with ⟨a, run, holds⟩ | early
  · exact Or.inl ⟨a, run, weaker a holds⟩
  · exact Or.inr early

theorem Ends.bind {γ : Type} {x : ExceptT ε Option β} {f : β → ExceptT ε Option γ} {P : β → Prop} {Q : γ → Prop}
    {E : ε → Prop} (first : Ends x P E) (next : ∀ a, P a → Ends (f a) Q E) : Ends (x >>= f) Q E := by
  rcases first with ⟨a, run, holds⟩ | ⟨e, run, holds⟩
  · unfold Ends at next ⊢
    rw [ExceptT.run_bind, run]
    exact next a holds
  · refine Or.inr ⟨e, ?_, holds⟩
    rw [ExceptT.run_bind, run]
    rfl

theorem Ends.lift {P : β → Prop} {E : ε → Prop} {x : Option β} {a : β} (run : x = some a) (holds : P a) :
    Ends (ExceptT.lift x) P E := by
  refine Or.inl ⟨a, ?_, holds⟩
  rw [ExceptT.run_lift, run]
  rfl

/-- The rule for loops: the invariant speaks of the elements already seen. -/
theorem Ends.foldlM {f : β → α → ExceptT ε Option β} (I : List α → β → Prop) {E : ε → Prop} {l : List α} {s : β}
    (body : ∀ seen a rest s, seen ++ a :: rest = l → I seen s → Ends (f s a) (I (seen ++ [a])) E)
    (start : I [] s) : Ends (l.foldlM f s) (I l) E := by
  suffices general : ∀ rest seen s, seen ++ rest = l → I seen s → Ends (rest.foldlM f s) (I l) E from
    general l [] s rfl start
  intro rest
  induction rest with
  | nil =>
    rintro seen s split kept
    rw [List.append_nil] at split
    exact Ends.pure (split ▸ kept)
  | cons a rest ih =>
    intro seen s split kept
    rw [List.foldlM_cons]
    exact (body seen a rest s split kept).bind fun s₁ next =>
      ih (seen ++ [a]) s₁ (by rw [List.append_assoc]; exact split) next

end EarlyReturn

/-- One more element passes the test. -/
theorem countP_lt_of_mem {p q : α → Bool} {l : List α} {a : α} (member : a ∈ l) (imp : ∀ x ∈ l, p x = true → q x = true)
    (before : p a = false) (after : q a = true) : l.countP p < l.countP q := by
  obtain ⟨left, right, rfl⟩ := List.append_of_mem member
  have first := List.countP_mono_left fun x inside => imp x (List.mem_append_left _ inside)
  have last := List.countP_mono_left fun x inside => imp x (List.mem_append_right _ (List.mem_cons_of_mem a inside))
  rw [List.countP_append, List.countP_append, List.countP_cons, List.countP_cons, before, after]
  simp only [Bool.false_eq_true, if_false, if_true]
  omega

variable [DecidableEq V] {κ : Type*}

/-- A loop that writes some of the points of an array, each from its old value. -/
theorem foldl_write_apply (keep : V → κ → Bool) (value : V → κ → κ) {l : List V} (nodup : l.Nodup) (f : V → κ) (x : V) :
    l.foldl (fun f v => if keep v (f v) then Function.update f v (value v (f v)) else f) f x =
      if x ∈ l ∧ keep x (f x) then value x (f x) else f x := by
  induction l generalizing f with
  | nil => simp
  | cons v l ih =>
    obtain ⟨absent, nodup⟩ := List.nodup_cons.mp nodup
    rw [List.foldl_cons, ih nodup]
    by_cases same : x = v
    · subst same
      by_cases kept : keep x (f x) = true <;> simp [absent, kept]
    · have other : (if keep v (f v) then Function.update f v (value v (f v)) else f) x = f x := by
        split_ifs
        · exact Function.update_of_ne same _ _
        · rfl
      simp [other, same]

section Buffers

/-- Append a value that is not there yet. -/
def pushNew (buf : List V) (v : V) : List V := if v ∈ buf then buf else buf ++ [v]

theorem mem_pushNew {buf : List V} {v x : V} : x ∈ pushNew buf v ↔ x ∈ buf ∨ x = v := by
  unfold pushNew
  split_ifs with inside
  · exact ⟨Or.inl, fun found => found.elim id fun here => here ▸ inside⟩
  · rw [List.mem_append, List.mem_singleton]

theorem nodup_pushNew {buf : List V} (nodup : buf.Nodup) (v : V) : (pushNew buf v).Nodup := by
  unfold pushNew
  split_ifs with inside
  · exact nodup
  · exact List.nodup_append.mpr ⟨nodup, List.nodup_singleton v, fun a member b single same =>
      inside (List.mem_singleton.mp single ▸ same ▸ member)⟩

/-- Collecting the values that pass a test. -/
theorem foldl_pushNew (p : V → Prop) [DecidablePred p] (l : List V) {buf : List V} (nodup : buf.Nodup) :
    (l.foldl (fun buf v => if p v then pushNew buf v else buf) buf).Nodup ∧
      ∀ x, x ∈ l.foldl (fun buf v => if p v then pushNew buf v else buf) buf ↔ x ∈ buf ∨ x ∈ l ∧ p x := by
  induction l generalizing buf with
  | nil => exact ⟨nodup, by simp⟩
  | cons v l ih =>
    rw [List.foldl_cons]
    by_cases passes : p v
    · rw [if_pos passes]
      obtain ⟨nodup', members⟩ := ih (nodup_pushNew nodup v)
      refine ⟨nodup', fun x => ?_⟩
      rw [members, mem_pushNew, List.mem_cons, or_assoc]
      refine or_congr_right ⟨?_, ?_⟩
      · rintro (rfl | later)
        · exact ⟨Or.inl rfl, passes⟩
        · exact ⟨Or.inr later.1, later.2⟩
      · rintro ⟨rfl | later, holds⟩
        · exact Or.inl rfl
        · exact Or.inr ⟨later, holds⟩
    · rw [if_neg passes]
      obtain ⟨nodup', members⟩ := ih nodup
      refine ⟨nodup', fun x => ?_⟩
      rw [members, List.mem_cons]
      refine or_congr_right ⟨fun later => ⟨Or.inr later.1, later.2⟩, ?_⟩
      rintro ⟨rfl | later, holds⟩
      · exact absurd holds passes
      · exact ⟨later, holds⟩

variable {K : Type*} [DecidableEq K]

/-- Add what an element contributes to a buffer, unless an element with the same key did before. -/
def visitOnce (p : α → Prop) [DecidablePred p] (key : α → K) (visit : α → List V → Option (List V))
    (s : List V × List K) (a : α) : Option (List V × List K) :=
  if p a ∧ key a ∉ s.2 then (visit a s.1).map fun buf => (buf, s.2 ++ [key a]) else some s

omit [DecidableEq V] in
/-- When elements with the same key contribute the same, the contributions of all are collected. -/
theorem foldlM_visitOnce {p : α → Prop} [DecidablePred p] {key : α → K} {visit : α → List V → Option (List V)}
    (adds : α → V → Prop) (l : List α)
    (visits : ∀ a ∈ l, p a → ∀ buf : List V, buf.Nodup →
      ∃ buf', visit a buf = some buf' ∧ buf'.Nodup ∧ ∀ x, x ∈ buf' ↔ x ∈ buf ∨ adds a x)
    (alike : ∀ a ∈ l, ∀ a' ∈ l, p a → p a' → key a = key a' → ∀ x, adds a x ↔ adds a' x) {buf : List V}
    (nodup : buf.Nodup) :
    ∃ buf' keys, l.foldlM (visitOnce p key visit) (buf, []) = some (buf', keys) ∧ buf'.Nodup ∧
      ∀ x, x ∈ buf' ↔ x ∈ buf ∨ ∃ a ∈ l, p a ∧ adds a x := by
  -- `seen` are the elements already passed, and `keys` the keys of those among them that count.
  have general : ∀ (rest : List α) {seen : List α} {buf' : List V} {keys : List K}, seen ++ rest = l → buf'.Nodup →
      (∀ k, k ∈ keys ↔ ∃ a ∈ seen, p a ∧ key a = k) → (∀ x, x ∈ buf' ↔ x ∈ buf ∨ ∃ a ∈ seen, p a ∧ adds a x) →
      ∃ buf'' keys', rest.foldlM (visitOnce p key visit) (buf', keys) = some (buf'', keys') ∧ buf''.Nodup ∧
        ∀ x, x ∈ buf'' ↔ x ∈ buf ∨ ∃ a ∈ l, p a ∧ adds a x := by
    intro rest
    induction rest with
    | nil =>
      intro seen buf' keys split nodup _ members
      rw [List.append_nil] at split
      exact ⟨buf', keys, rfl, nodup, split ▸ members⟩
    | cons a rest ih =>
      intro seen buf' keys split nodup known members
      have inside : a ∈ l := split ▸ by simp
      have before : ∀ e ∈ seen, e ∈ l := fun e member => split ▸ by simp [member]
      have split' : (seen ++ [a]) ++ rest = l := by rw [List.append_assoc]; exact split
      rw [List.foldlM_cons, visitOnce]
      by_cases counts : p a ∧ key a ∉ keys
      · obtain ⟨buf₁, run, nodup₁, added⟩ := visits a inside counts.1 buf' nodup
        rw [if_pos counts, run]
        refine ih split' nodup₁ (fun k => ?_) (fun x => ?_)
        · rw [List.mem_append, known, List.mem_singleton]
          constructor
          · rintro (⟨e, member, found⟩ | rfl)
            · exact ⟨e, by simp [member], found⟩
            · exact ⟨a, by simp, counts.1, rfl⟩
          · rintro ⟨e, member, found, rfl⟩
            rcases List.mem_append.mp member with old | new
            · exact Or.inl ⟨e, old, found, rfl⟩
            · exact Or.inr (by rw [List.mem_singleton.mp new])
        · rw [added, members, or_assoc]
          refine or_congr_right ⟨?_, ?_⟩
          · rintro (⟨e, member, found⟩ | here)
            · exact ⟨e, by simp [member], found⟩
            · exact ⟨a, by simp, counts.1, here⟩
          · rintro ⟨e, member, found, adds'⟩
            rcases List.mem_append.mp member with old | new
            · exact Or.inl ⟨e, old, found, adds'⟩
            · exact Or.inr (List.mem_singleton.mp new ▸ adds')
      · rw [if_neg counts]
        have repeated : p a → ∃ e ∈ seen, p e ∧ key e = key a := fun holds =>
          (known _).mp (not_not.mp fun fresh => counts ⟨holds, fresh⟩)
        refine ih split' nodup (fun k => ?_) (fun x => ?_)
        · rw [known]
          constructor
          · rintro ⟨e, member, found⟩
            exact ⟨e, by simp [member], found⟩
          · rintro ⟨e, member, found, rfl⟩
            rcases List.mem_append.mp member with old | new
            · exact ⟨e, old, found, rfl⟩
            · obtain rfl := List.mem_singleton.mp new
              exact repeated found
        · rw [members]
          refine or_congr_right ⟨?_, ?_⟩
          · rintro ⟨e, member, found⟩
            exact ⟨e, by simp [member], found⟩
          · rintro ⟨e, member, found, adds'⟩
            rcases List.mem_append.mp member with old | new
            · exact ⟨e, old, found, adds'⟩
            · obtain rfl := List.mem_singleton.mp new
              obtain ⟨e', member', found', same⟩ := repeated found
              exact ⟨e', member', found', (alike e' (before e' member') e inside found' found same x).mpr adds'⟩
  exact general l (List.nil_append l) nodup (by simp) (by simp)

end Buffers

section GreedyMarking

variable (skip : V → Bool) (images : V → List V)

/-- Mark the other images of an unmarked point. -/
def markImages (marked : V → Bool) (v : V) : V → Bool :=
  if skip v then marked
  else (images v).foldl (fun marked w => if marked v = false ∧ v ≠ w then Function.update marked w true else marked) marked

theorem foldl_mark_apply (v : V) (ws : List V) (marked : V → Bool) (x : V) :
    ws.foldl (fun marked w => if marked v = false ∧ v ≠ w then Function.update marked w true else marked) marked x =
      (marked x || (!marked v && decide (x ≠ v ∧ x ∈ ws))) := by
  induction ws generalizing marked with
  | nil => simp
  | cons w ws ih =>
    rw [List.foldl_cons, ih]
    by_cases writes : marked v = false ∧ v ≠ w
    · rw [if_pos writes, Function.update_of_ne writes.2]
      by_cases same : x = w
      · subst same
        simp [writes.1, writes.2.symm]
      · rw [Function.update_of_ne same]
        simp [same]
    · rw [if_neg writes]
      cases seen : marked v with
      | true => simp
      | false =>
        have own : v = w := by
          by_contra other
          exact writes ⟨seen, other⟩
        subst own
        by_cases same : x = v <;> simp [same, seen]

/-- What the scan knows: a marked point has an unmarked point behind it, and an unmarked one has marked its images. -/
structure Marking (done : V → Prop) (marked : V → Bool) : Prop where
  behind : ∀ q, marked q = true → ∃ p, done p ∧ skip p = false ∧ marked p = false ∧ q ∈ images p
  spread : ∀ p, done p → skip p = false → marked p = false → ∀ q ∈ images p, q ≠ p → marked q = true

variable {skip images}

theorem Marking.step {done : V → Prop} {marked : V → Bool} {v : V} (known : Marking skip images done marked)
    (symmetric : ∀ p, done p → p ∈ images v → v ∈ images p) :
    Marking skip images (fun p => done p ∨ p = v) (markImages skip images marked v) := by
  unfold markImages
  by_cases skipped : skip v = true
  · rw [if_pos skipped]
    refine ⟨fun q seen => ?_, ?_⟩
    · obtain ⟨p, before, rest⟩ := known.behind q seen
      exact ⟨p, Or.inl before, rest⟩
    · rintro p (before | rfl) free
      · exact known.spread p before free
      · rw [skipped] at free
        exact absurd free (by decide)
  rw [if_neg skipped]
  have free : skip v = false := by simpa using skipped
  have value := foldl_mark_apply v (images v) marked
  cases seen : marked v with
  | true =>
    have unchanged : (images v).foldl
        (fun marked w => if marked v = false ∧ v ≠ w then Function.update marked w true else marked) marked = marked := by
      funext x
      rw [value, seen]
      simp
    rw [unchanged]
    refine ⟨fun q marks => ?_, ?_⟩
    · obtain ⟨p, before, rest⟩ := known.behind q marks
      exact ⟨p, Or.inl before, rest⟩
    · rintro p (before | rfl) free unmarked
      · exact known.spread p before free unmarked
      · rw [seen] at unmarked
        exact absurd unmarked (by decide)
  | false =>
    generalize (images v).foldl
      (fun marked w => if marked v = false ∧ v ≠ w then Function.update marked w true else marked) marked = after at value ⊢
    have after_iff : ∀ x, after x = true ↔ marked x = true ∨ x ≠ v ∧ x ∈ images v := fun x => by simp [value, seen]
    have unmarked_of : ∀ x, after x = false → marked x = false := fun x unmarked => by
      by_contra marks
      rw [(after_iff x).mpr (Or.inl (by simpa using marks))] at unmarked
      exact absurd unmarked (by decide)
    refine ⟨fun q marks => ?_, ?_⟩
    · rcases (after_iff q).mp marks with old | ⟨other, image⟩
      · obtain ⟨p, before, free, unmarked, image⟩ := known.behind q old
        refine ⟨p, Or.inl before, free, ?_, image⟩
        -- A point behind others is not an image of `v`: it would have marked `v`.
        by_contra marks
        rcases (after_iff p).mp (by simpa using marks) with old | ⟨other, image⟩
        · rw [unmarked] at old
          exact absurd old (by decide)
        · have marked_v := known.spread p before free unmarked v (symmetric p before image) other.symm
          rw [seen] at marked_v
          exact absurd marked_v (by decide)
      · refine ⟨v, Or.inr rfl, free, ?_, image⟩
        by_contra marks
        rcases (after_iff v).mp (by simpa using marks) with old | ⟨self, _⟩
        · rw [seen] at old
          exact absurd old (by decide)
        · exact self rfl
    · rintro p (before | rfl) free unmarked q image other
      · exact (after_iff q).mpr (Or.inl (known.spread p before free (unmarked_of p unmarked) q image other))
      · exact (after_iff q).mpr (Or.inr ⟨other, image⟩)

theorem Marking.scan {l : List V} {done : V → Prop} {marked : V → Bool} (known : Marking skip images done marked)
    (symmetric : ∀ v ∈ l, ∀ p, done p ∨ p ∈ l → p ∈ images v → v ∈ images p) :
    Marking skip images (fun p => done p ∨ p ∈ l) (l.foldl (markImages skip images) marked) := by
  induction l generalizing done marked with
  | nil => simpa using known
  | cons v l ih =>
    rw [List.foldl_cons]
    have first := known.step fun p before => symmetric v List.mem_cons_self p (Or.inl before)
    have rest := ih first fun w member p scanned => symmetric w (List.mem_cons_of_mem v member) p (by
      rcases scanned with (before | rfl) | later
      · exact Or.inl before
      · exact Or.inr List.mem_cons_self
      · exact Or.inr (List.mem_cons_of_mem v later))
    simpa only [List.mem_cons, or_assoc] using rest

omit [DecidableEq V] in
theorem Marking.nothing : Marking skip images (fun _ => False) fun _ => false :=
  ⟨fun _ marks => absurd marks (by decide), fun _ none => none.elim⟩

end GreedyMarking

end KataGo.Lib
