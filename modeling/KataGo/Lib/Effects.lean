import KataGo.Lib.Replay

/-! Programs that change a state by effects. A program reads the state, may raise an error, and
may be cut off after any of its effects; nothing but the effects changes the state. -/

namespace KataGo.Lib

/-- Effects that change a state. -/
class Acts (E σ : Type) where
  act : E → σ → σ

/-- The effects of a run in their order, and how it ended. -/
structure Outcome (E ε α : Type) where
  effects : List E
  result : Except ε α

def Program (E σ ε α : Type) := σ → Outcome E ε α

section Effects

variable {E σ ε α β : Type} [Acts E σ] {s : σ} {e : E} {es fs : List E}

/-- The state that effects lead to. -/
def after (s : σ) (es : List E) : σ := es.foldl (fun s e => Acts.act e s) s

@[simp] theorem after_nil (s : σ) : after s ([] : List E) = s := rfl

@[simp] theorem after_cons (s : σ) (e : E) (es : List E) : after s (e :: es) = after (Acts.act e s) es := rfl

@[simp] theorem after_append (s : σ) (es fs : List E) : after s (es ++ fs) = after (after s es) fs := List.foldl_append

namespace Program

def perform (e : E) : Program E σ ε Unit := fun _ => ⟨[e], .ok ()⟩

def read : Program E σ ε σ := fun s => ⟨[], .ok s⟩

def lift (x : Except ε α) : Program E σ ε α := fun _ => ⟨[], x⟩

def raise (error : ε) : Program E σ ε α := lift (.error error)

def bind (x : Program E σ ε α) (f : α → Program E σ ε β) : Program E σ ε β := fun s =>
  match (x s).result with
  | .error error => ⟨(x s).effects, .error error⟩
  | .ok a => ⟨(x s).effects ++ (f a (after s (x s).effects)).effects, (f a (after s (x s).effects)).result⟩

instance : Monad (Program E σ ε) where
  pure a := lift (.ok a)
  bind := bind

/-- A block whose cleanup is run however the block ends. -/
def finally_ (x : Program E σ ε α) (cleanup : Program E σ ε Unit) : Program E σ ε α := fun s =>
  let last := cleanup (after s (x s).effects)
  ⟨(x s).effects ++ last.effects,
    match last.result with
    | .error error => .error error
    | .ok _ => (x s).result⟩

@[simp] theorem lift_ok_bind (a : α) (f : α → Program E σ ε β) : ((lift (.ok a) : Program E σ ε α) >>= f) s = f a s := rfl

@[simp] theorem lift_error_bind (error : ε) (f : α → Program E σ ε β) :
    ((lift (.error error) : Program E σ ε α) >>= f) s = ⟨[], .error error⟩ := rfl

@[simp] theorem read_bind (f : σ → Program E σ ε β) : ((read : Program E σ ε σ) >>= f) s = f s s := rfl

@[simp] theorem pure_run (a : α) : (pure a : Program E σ ε α) s = ⟨[], .ok a⟩ := rfl

theorem bind_pure (x : Program E σ ε α) (f : α → β) :
    (x >>= fun a => (pure (f a) : Program E σ ε β)) s = ⟨(x s).effects, (x s).result.map f⟩ := by
  show Program.bind x _ s = _
  unfold Program.bind
  cases ended : (x s).result with
  | error error => rfl
  | ok a =>
    show (⟨(x s).effects ++ [], .ok (f a)⟩ : Outcome E ε β) = _
    rw [List.append_nil]
    rfl

/-- A program without effects that ends before the rest does not reach it. -/
theorem lift_bind_effects {x : Except ε α} {f : α → Program E σ ε β} (quiet : ∀ a, x = .ok a → (f a s).effects = []) :
    (((lift x : Program E σ ε α) >>= f) s).effects = [] := by
  cases x with
  | error error => rfl
  | ok a => exact quiet a rfl

end Program

section Runs

variable {x : Program E σ ε α} {f : α → Program E σ ε β} {a : α} {b : β} {t u : σ}

/-- Started in `s`, the program returns `a` and leaves the state `t`. -/
def Runs (x : Program E σ ε α) (s : σ) (a : α) (t : σ) : Prop := (x s).result = .ok a ∧ after s (x s).effects = t

theorem runs_bind : Runs (x >>= f) s b u ↔ ∃ a t, Runs x s a t ∧ Runs (f a) t b u := by
  have unfolded : (x >>= f) s = Program.bind x f s := rfl
  cases ended : (x s).result with
  | error error =>
    have whole : (x >>= f) s = ⟨(x s).effects, .error error⟩ := by
      rw [unfolded, Program.bind, ended]
    constructor
    · rintro ⟨returned, -⟩
      rw [whole] at returned
      cases returned
    · rintro ⟨a, t, ⟨returned, -⟩, -⟩
      cases ended.symm.trans returned
  | ok a =>
    have whole : (x >>= f) s = ⟨(x s).effects ++ (f a (after s (x s).effects)).effects,
        (f a (after s (x s).effects)).result⟩ := by
      rw [unfolded, Program.bind, ended]
    constructor
    · rintro ⟨returned, left⟩
      rw [whole] at returned left
      rw [after_append] at left
      exact ⟨a, _, ⟨ended, rfl⟩, returned, left⟩
    · rintro ⟨a', t, ⟨same, rfl⟩, returned, left⟩
      cases ended.symm.trans same
      refine ⟨?_, ?_⟩
      · rw [whole]
        exact returned
      · rw [whole, after_append]
        exact left

theorem runs_pure {a' : α} : Runs (pure a : Program E σ ε α) s a' t ↔ a = a' ∧ s = t :=
  and_congr ⟨Except.ok.inj, congrArg Except.ok⟩ Iff.rfl

theorem runs_lift {x : Except ε α} : Runs (Program.lift x : Program E σ ε α) s a t ↔ x = .ok a ∧ s = t := Iff.rfl

theorem runs_read : Runs (Program.read : Program E σ ε σ) s u t ↔ s = u ∧ s = t :=
  and_congr ⟨Except.ok.inj, congrArg Except.ok⟩ Iff.rfl

theorem runs_perform {v : Unit} : Runs (Program.perform e : Program E σ ε Unit) s v t ↔ Acts.act e s = t :=
  ⟨fun run => run.2, fun left => ⟨rfl, left⟩⟩

theorem runs_raise {error : ε} : ¬ Runs (Program.raise error : Program E σ ε α) s a t := fun run => nomatch run.1

end Runs

section Follows

variable {allowed : σ → E → Prop}

/-- Every effect is allowed in the state in which it happens. -/
def Follows (allowed : σ → E → Prop) : σ → List E → Prop
  | _, [] => True
  | s, e :: es => allowed s e ∧ Follows allowed (Acts.act e s) es

theorem follows_append : Follows allowed s (es ++ fs) ↔ Follows allowed s es ∧ Follows allowed (after s es) fs := by
  induction es generalizing s with
  | nil => simp [Follows]
  | cons e es ih => simp [Follows, ih, and_assoc]

/-- A computation that is cut off has done nothing else. -/
theorem Follows.take (follows : Follows allowed s es) (n : Nat) : Follows allowed s (es.take n) := by
  rw [← List.take_append_drop n es] at follows
  exact (follows_append.mp follows).1

/-- What each allowed effect keeps, with the effects so far, holds after them. -/
theorem Follows.invariant {I : σ → List E → Prop}
    (kept : ∀ s l e, I s l → allowed s e → I (Acts.act e s) (l ++ [e])) {l : List E}
    (start : I s l) (follows : Follows allowed s es) : I (after s es) (l ++ es) := by
  induction es generalizing s l with
  | nil =>
    rw [List.append_nil]
    exact start
  | cons e es ih =>
    have rest := ih (kept s l e start follows.1) follows.2
    rwa [List.append_assoc] at rest

/-- Started in this state, the program has allowed effects only, and what it returns is as
described, with the effects it had. -/
structure Meets (allowed : σ → E → Prop) (x : Program E σ ε α) (s : σ) (returns : α → List E → Prop) : Prop where
  follows : Follows allowed s (x s).effects
  returned : ∀ a, (x s).result = .ok a → returns a (x s).effects

namespace Meets

variable {x : Program E σ ε α} {f : α → Program E σ ε β} {cleanup : Program E σ ε Unit}
  {P P' : α → List E → Prop} {Q : β → List E → Prop}

theorem bind (first : Meets allowed x s P)
    (next : ∀ a es, P a es → Meets allowed (f a) (after s es) fun b fs => Q b (es ++ fs)) :
    Meets allowed (x >>= f) s Q := by
  have unfolded : (x >>= f) s = Program.bind x f s := rfl
  cases ended : (x s).result with
  | error error =>
    have whole : (x >>= f) s = ⟨(x s).effects, .error error⟩ := by
      rw [unfolded, Program.bind, ended]
    constructor
    · rw [whole]
      exact first.follows
    · intro b returned
      rw [whole] at returned
      cases returned
  | ok a =>
    have whole : (x >>= f) s = ⟨(x s).effects ++ (f a (after s (x s).effects)).effects,
        (f a (after s (x s).effects)).result⟩ := by
      rw [unfolded, Program.bind, ended]
    have rest := next a (x s).effects (first.returned a ended)
    constructor
    · rw [whole]
      exact follows_append.mpr ⟨first.follows, rest.follows⟩
    · intro b returned
      rw [whole] at returned ⊢
      exact rest.returned b returned

theorem weaken (meets : Meets allowed x s P) (weaker : ∀ a es, P a es → P' a es) : Meets allowed x s P' :=
  ⟨meets.follows, fun a returned => weaker a _ (meets.returned a returned)⟩

/-- What a program returns, with its effects having been allowed. -/
theorem attach (meets : Meets allowed x s P) : Meets allowed x s fun a es => P a es ∧ Follows allowed s es :=
  ⟨meets.follows, fun a returned => ⟨meets.returned a returned, meets.follows⟩⟩

theorem pure {a : α} (holds : P a []) : Meets (ε := ε) allowed (Pure.pure a : Program E σ ε α) s P := by
  constructor
  · trivial
  · intro b returned
    cases returned
    exact holds

theorem perform {P : Unit → List E → Prop} (permitted : allowed s e) (holds : P () [e]) :
    Meets (ε := ε) allowed (Program.perform e) s P :=
  ⟨⟨permitted, trivial⟩, fun _ _ => holds⟩

theorem read {P : σ → List E → Prop} (holds : P s []) : Meets (ε := ε) allowed Program.read s P := by
  constructor
  · trivial
  · intro t returned
    cases returned
    exact holds

theorem lift {x : Except ε α} (holds : ∀ a, x = .ok a → P a []) : Meets allowed (Program.lift x) s P :=
  ⟨trivial, holds⟩

theorem raise {error : ε} : Meets allowed (Program.raise error) s P :=
  lift fun _ returned => nomatch returned

/-- The cleanup has to be allowed wherever the block may stop. -/
theorem finally_ {L : List E → Prop} (block : Meets allowed x s P) (left : L (x s).effects)
    (last : ∀ es, L es → Meets allowed cleanup (after s es) fun _ fs => ∀ a, P a es → P' a (es ++ fs)) :
    Meets allowed (Program.finally_ x cleanup) s P' := by
  have rest := last _ left
  constructor
  · exact follows_append.mpr ⟨block.follows, rest.follows⟩
  · intro a returned
    show P' a ((x s).effects ++ (cleanup (after s (x s).effects)).effects)
    have ended : (match (cleanup (after s (x s).effects)).result with
        | .error error => .error error
        | .ok _ => (x s).result) = Except.ok a := returned
    cases cleaned : (cleanup (after s (x s).effects)).result with
    | error error =>
      rw [cleaned] at ended
      cases ended
    | ok u =>
      rw [cleaned] at ended
      exact rest.returned u cleaned a (block.returned a ended)

end Meets
end Follows
end Effects
end KataGo.Lib
