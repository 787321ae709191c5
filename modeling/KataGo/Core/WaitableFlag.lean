import KataGo.Lib.Interleaving

/-! `WaitableFlag` of `cpp/core/threadsafecounter.h`. A thread that waits looks at the flag before it takes the mutex,
and then sleeps without a second look. -/

namespace KataGo.Core
open KataGo.Lib

/-- The flag, with the variable that each thread waits at, `trueCondVar` or `falseCondVar`, and the calls of
`notify_all` so far. -/
structure WaitableFlag (ι : Type) where
  value : Bool
  finished : Bool
  mutex : Option ι
  asleep : ι → Option Bool
  notified : List Bool

/-- A call of `set`, `setPermanently`, `waitUntilFalse` or `waitUntilTrue`. -/
inductive FlagCall where
  | set (b : Bool)
  | setPermanently (b : Bool)
  | waitUntil (b : Bool)
  deriving DecidableEq

/-- What a thread is about to do. -/
inductive FlagUser where
  | idle
  | entering (b permanently : Bool)
  | checking (b permanently : Bool)
  | storing (b : Bool)
  | notifying (b : Bool)
  | leaving
  | reading (b : Bool)
  | locking (b : Bool)
  | waiting (b : Bool)
  | sleeping (b : Bool)
  | rereading (b : Bool)
  deriving DecidableEq

/-- A thread makes a call, goes on, or wakes up although it was not notified. -/
inductive FlagChoice where
  | call (c : FlagCall)
  | go
  | spurious
  deriving DecidableEq

def FlagCall.begin : FlagCall → FlagUser
  | set b => .entering b false
  | setPermanently b => .entering b true
  | waitUntil b => .reading b

namespace WaitableFlag

variable {ι : Type} [DecidableEq ι]

def new (ι : Type) : WaitableFlag ι := ⟨false, false, none, fun _ => none, []⟩

/-- `notify_all` -/
def notify (s : WaitableFlag ι) (b : Bool) : WaitableFlag ι :=
  { s with asleep := fun t => if s.asleep t = some b then none else s.asleep t, notified := s.notified ++ [b] }

def advance (t : ι) (s : WaitableFlag ι) : FlagUser → Option (WaitableFlag ι × FlagUser)
  | .idle => none
  | .entering b permanently =>
      if s.mutex = none then some ({ s with mutex := some t }, .checking b permanently) else none
  | .checking b permanently =>
      if s.finished then some (s, .leaving) else some ({ s with finished := permanently }, .storing b)
  | .storing b => some ({ s with value := b }, .notifying b)
  | .notifying b => some (s.notify b, .leaving)
  | .leaving => some ({ s with mutex := none }, .idle)
  | .reading b => some (s, if s.value = b then .idle else .locking b)
  | .locking b => if s.mutex = none then some ({ s with mutex := some t }, .waiting b) else none
  | .waiting b => some ({ s with mutex := none, asleep := Function.update s.asleep t (some b) }, .sleeping b)
  | .sleeping b => if s.asleep t = none ∧ s.mutex = none then some ({ s with mutex := some t }, .rereading b) else none
  | .rereading b => some (s, if s.value = b then .leaving else .waiting b)

def act (t : ι) (choice : FlagChoice) (s : WaitableFlag ι) (l : FlagUser) : Option (WaitableFlag ι × FlagUser) :=
  match choice with
  | .call c => if l = .idle then some (s, c.begin) else none
  | .go => s.advance t l
  | .spurious => if s.asleep t ≠ none then some ({ s with asleep := Function.update s.asleep t none }, l) else none

end WaitableFlag

/-- The thread is in the mutex. -/
def FlagUser.Holds : FlagUser → Prop
  | checking _ _ | storing _ | notifying _ | leaving | waiting _ | rereading _ => True
  | _ => False

open WaitableFlag

variable {ι : Type} {s s' : WaitableFlag ι} {t u : ι} {b : Bool} {w w' : Threads ι (WaitableFlag ι) FlagUser}

/-- The invariant of every run. -/
structure Orderly (w : Threads ι (WaitableFlag ι) FlagUser) : Prop where
  holder : ∀ t, (w.locals t).Holds ↔ w.shared.mutex = some t
  sleeper : ∀ t b, w.shared.asleep t = some b → w.locals t = .sleeping b
  stored : ∀ t b, w.locals t = .notifying b → w.shared.value = b
  settled : (∀ t b, w.locals t ≠ .notifying b) → w.shared.value = w.shared.notified.getLastD false

/-- Threads that have made no call yet. -/
def unused (ι : Type) : Threads ι (WaitableFlag ι) FlagUser := ⟨.new ι, fun _ => .idle⟩

theorem unused_orderly : Orderly (unused ι) where
  holder t := by simp [unused, WaitableFlag.new, FlagUser.Holds]
  sleeper _ _ asleep := by cases asleep
  stored _ _ notifying := by cases notifying
  settled _ := rfl

variable [DecidableEq ι] {l' : FlagUser} {event : ι × FlagChoice}

theorem Orderly.next (orderly : Orderly w) (mine : l'.Holds ↔ s'.mutex = some t)
    (others : ∀ u, u ≠ t → (s'.mutex = some u ↔ w.shared.mutex = some u))
    (asleep : ∀ u b, u ≠ t → s'.asleep u = some b → w.shared.asleep u = some b)
    (own : ∀ b, s'.asleep t = some b → l' = .sleeping b) (value : s'.value = w.shared.value ∨ (w.locals t).Holds)
    (stored : ∀ b, l' = .notifying b → s'.value = b)
    (settled : (∀ b, l' ≠ .notifying b) → (∀ u b, u ≠ t → w.locals u ≠ .notifying b) →
    s'.value = s'.notified.getLastD false) :
    Orderly ⟨s', Function.update w.locals t l'⟩ where
  holder := by
    refine Threads.forall_update (P := fun u (l : FlagUser) => l.Holds ↔ s'.mutex = some u) mine fun u other => ?_
    rw [others u other]
    exact orderly.holder u
  sleeper := Threads.forall_update (P := fun u (l : FlagUser) => ∀ b, s'.asleep u = some b → l = .sleeping b) own
    fun u other b sleeps => orderly.sleeper u b (asleep u b other sleeps)
  stored := by
    refine Threads.forall_update (P := fun _ (l : FlagUser) => ∀ b, l = .notifying b → s'.value = b) stored
      fun u other b notifies => ?_
    rcases value with kept | holds
    · rw [kept]
      exact orderly.stored u b notifies
    · -- Two threads cannot be in the mutex.
      have there := (orderly.holder u).mp (by rw [notifies]; trivial)
      rw [(orderly.holder t).mp holds] at there
      exact absurd (Option.some.inj there).symm other
  settled quiet := by
    apply settled
    · intro b notifies
      exact quiet t b ((Function.update_self ..).trans notifies)
    · intro u b other notifies
      exact quiet u b ((Function.update_of_ne other ..).trans notifies)

/-- A step after which the flag has the value that it had, and nobody has been notified. -/
theorem Orderly.aside (orderly : Orderly w) (mine : l'.Holds ↔ s'.mutex = some t)
    (others : ∀ u, u ≠ t → (s'.mutex = some u ↔ w.shared.mutex = some u))
    (asleep : ∀ u b, u ≠ t → s'.asleep u = some b → w.shared.asleep u = some b)
    (own : ∀ b, s'.asleep t = some b → l' = .sleeping b) (value : s'.value = w.shared.value)
    (notified : s'.notified = w.shared.notified) (before : ∀ b, w.locals t ≠ .notifying b)
    (after : ∀ b, l' ≠ .notifying b) :
    Orderly ⟨s', Function.update w.locals t l'⟩ := by
  refine orderly.next mine others asleep own (.inl value) (fun b same => absurd same (after b)) fun _ quiet => ?_
  rw [value, notified]
  apply orderly.settled
  intro u b
  by_cases same : u = t
  · rw [same]
    exact before b
  · exact quiet u b same

/-- A thread that takes the mutex. -/
theorem Orderly.lock (orderly : Orderly w) (free : w.shared.mutex = none) (holds : l'.Holds)
    (after : ∀ b, l' ≠ .notifying b)
    (awake : w.shared.asleep t = none) (outside : ¬(w.locals t).Holds) :
    Orderly ⟨{ w.shared with mutex := some t }, Function.update w.locals t l'⟩ := by
  refine orderly.aside (iff_of_true holds rfl) ?_ (fun _ _ _ asleep => asleep) ?_ rfl rfl ?_ after
  · intro u other
    rw [free]
    simp [Ne.symm other]
  · intro b asleep
    rw [awake] at asleep
    cases asleep
  · intro b notifies
    rw [notifies] at outside
    exact outside trivial

/-- A thread that holds the mutex lets it go. -/
theorem Orderly.unlock (orderly : Orderly w) (holds : (w.locals t).Holds) (before : ∀ b, w.locals t ≠ .notifying b)
    (outside : ¬l'.Holds) (mutex : s'.mutex = none) (value : s'.value = w.shared.value)
    (notified : s'.notified = w.shared.notified) (asleep : ∀ u, u ≠ t → s'.asleep u = w.shared.asleep u)
    (own : ∀ b, s'.asleep t = some b → l' = .sleeping b) : Orderly ⟨s', Function.update w.locals t l'⟩ := by
  have mine := (orderly.holder t).mp holds
  refine orderly.aside ?_ ?_ ?_ own value notified before ?_
  · rw [mutex]
    exact iff_of_false outside (by simp)
  · intro u other
    rw [mutex, mine]
    simp [Ne.symm other]
  · intro u b other sleeps
    rw [← asleep u other]
    exact sleeps
  · intro b notifies
    rw [notifies] at outside
    exact outside trivial

/-- A thread that goes on in the mutex, or outside it. -/
theorem Orderly.stay (orderly : Orderly w) (same : l'.Holds ↔ (w.locals t).Holds) (mutex : s'.mutex = w.shared.mutex)
    (awake : w.shared.asleep t = none) (asleep : s'.asleep = w.shared.asleep) (value : s'.value = w.shared.value)
    (notified : s'.notified = w.shared.notified) (before : ∀ b, w.locals t ≠ .notifying b)
    (after : ∀ b, l' ≠ .notifying b) :
    Orderly ⟨s', Function.update w.locals t l'⟩ := by
  refine orderly.aside ?_ ?_ ?_ ?_ value notified before after
  · rw [same, mutex]
    exact orderly.holder t
  · intro u _
    rw [mutex]
  · intro u b _ sleeps
    rw [← asleep]
    exact sleeps
  · intro b sleeps
    rw [asleep, awake] at sleeps
    cases sleeps

omit [DecidableEq ι] in
/-- A thread that does not sleep is at no variable. -/
theorem Orderly.awake (orderly : Orderly w) (here : ∀ b, w.locals t ≠ .sleeping b) : w.shared.asleep t = none := by
  cases asleep : w.shared.asleep t with
  | none => rfl
  | some b => exact absurd (orderly.sleeper t b asleep) (here b)

theorem Orderly.advance (orderly : Orderly w) (acted : w.shared.advance t (w.locals t) = some (s', l')) :
    Orderly ⟨s', Function.update w.locals t l'⟩ := by
  cases here : w.locals t with
  | idle =>
    rw [here] at acted
    cases acted
  | entering b permanently =>
    rw [here] at acted
    obtain ⟨free, ⟨⟩⟩ := Option.ite_none_right_eq_some.mp acted
    exact orderly.lock free trivial (by simp) (orderly.awake (by simp [here])) (by rw [here]; exact id)
  | locking b =>
    rw [here] at acted
    obtain ⟨free, ⟨⟩⟩ := Option.ite_none_right_eq_some.mp acted
    exact orderly.lock free trivial (by simp) (orderly.awake (by simp [here])) (by rw [here]; exact id)
  | sleeping b =>
    rw [here] at acted
    obtain ⟨⟨awake, free⟩, ⟨⟩⟩ := Option.ite_none_right_eq_some.mp acted
    exact orderly.lock free trivial (by simp) awake (by rw [here]; exact id)
  | leaving =>
    rw [here] at acted
    cases acted
    refine orderly.unlock (by rw [here]; trivial) (by simp [here]) id rfl rfl rfl (fun _ _ => rfl) ?_
    intro b asleep
    rw [orderly.awake (by simp [here])] at asleep
    cases asleep
  | waiting b =>
    rw [here] at acted
    cases acted
    refine orderly.unlock (by rw [here]; trivial) (by simp [here]) id rfl rfl rfl ?_ ?_
    · intro u other
      exact Function.update_of_ne other _ _
    · intro b' asleep
      cases (Function.update_self ..).symm.trans asleep
      rfl
  | checking b permanently =>
    rw [here] at acted
    have awake : w.shared.asleep t = none := orderly.awake (by simp [here])
    simp only [WaitableFlag.advance] at acted
    split at acted <;> cases acted <;>
      exact orderly.stay (by rw [here]; exact Iff.rfl) rfl awake rfl rfl rfl (by simp [here]) (by simp)
  | reading b =>
    rw [here] at acted
    have awake : w.shared.asleep t = none := orderly.awake (by simp [here])
    cases acted
    split <;> exact orderly.stay (by rw [here]; exact Iff.rfl) rfl awake rfl rfl rfl (by simp [here]) (by simp)
  | rereading b =>
    rw [here] at acted
    have awake : w.shared.asleep t = none := orderly.awake (by simp [here])
    cases acted
    split <;> exact orderly.stay (by rw [here]; exact Iff.rfl) rfl awake rfl rfl rfl (by simp [here]) (by simp)
  | storing b =>
    rw [here] at acted
    cases acted
    have holds : (w.locals t).Holds := by rw [here]; trivial
    refine orderly.next (iff_of_true trivial ((orderly.holder t).mp holds)) (fun _ _ => Iff.rfl)
      (fun _ _ _ asleep => asleep) ?_
      (.inr holds) ?_ (fun quiet => absurd rfl (quiet b))
    · intro b' asleep
      rw [orderly.awake (by simp [here])] at asleep
      cases asleep
    · intro b' same
      cases same
      rfl
  | notifying b =>
    rw [here] at acted
    cases acted
    have holds : (w.locals t).Holds := by rw [here]; trivial
    refine orderly.next (iff_of_true trivial ((orderly.holder t).mp holds)) (fun _ _ => Iff.rfl) ?_ ?_ (.inl rfl)
      (by simp) ?_
    · intro u b' _ asleep
      simp only [notify] at asleep
      split at asleep
      · cases asleep
      · exact asleep
    · intro b' asleep
      simp only [notify] at asleep
      rw [orderly.awake (by simp [here])] at asleep
      cases asleep
    · intro _ _
      rw [notify, List.getLastD_concat]
      exact orderly.stored t b here

theorem Orderly.step (orderly : Orderly w) (taken : Threads.step WaitableFlag.act w event = some w') : Orderly w' := by
  obtain ⟨s', l', acted, rfl⟩ := Threads.step_eq_some.mp taken
  obtain ⟨t, choice⟩ := event
  have holder := orderly.holder t
  have sleeper := orderly.sleeper t
  have kept (u : ι) (b : Bool) (_ : u ≠ t) (asleep : w.shared.asleep u = some b) : w.shared.asleep u = some b := asleep
  cases choice with
  | call c =>
    obtain ⟨idle, ⟨⟩⟩ := Option.ite_none_right_eq_some.mp acted
    rw [idle] at holder sleeper
    refine orderly.aside ?_ (fun _ _ => Iff.rfl) kept ?_ rfl rfl (by simp [idle]) ?_
    · rw [← holder]
      cases c <;> simp [FlagCall.begin, FlagUser.Holds]
    · intro b asleep
      cases sleeper b asleep
    · cases c <;> simp [FlagCall.begin]
  | spurious =>
    obtain ⟨asleep, ⟨⟩⟩ := Option.ite_none_right_eq_some.mp acted
    obtain ⟨b, waits⟩ := Option.ne_none_iff_exists'.mp asleep
    have here := sleeper b waits
    refine orderly.aside holder (fun _ _ => Iff.rfl) ?_ ?_ rfl rfl (by simp [here]) (by simp [here])
    · intro u b other sleeps
      exact (Function.update_of_ne other ..).symm.trans sleeps
    · intro b sleeps
      cases (Function.update_self ..).symm.trans sleeps
  | go => exact orderly.advance acted

theorem Orderly.run {schedule : List (ι × FlagChoice)} (orderly : Orderly w)
    (ran : Threads.run WaitableFlag.act w schedule = some w') : Orderly w' :=
  Threads.run_invariant Orderly (fun _ _ _ => Orderly.step) ran orderly

/-- Between two states, a thread that sleeps at a variable is woken by the calls of `notify_all` for it and by nothing
else. -/
def Slept (t : ι) (b : Bool) (s s' : WaitableFlag ι) : Prop :=
  ∃ new, s'.notified = s.notified ++ new ∧ (s'.asleep t = some b ↔ s.asleep t = some b ∧ b ∉ new)

omit [DecidableEq ι] in
theorem Slept.of_same (notified : s'.notified = s.notified) (asleep : s'.asleep t = s.asleep t) : Slept t b s s' := by
  refine ⟨[], by rw [notified, List.append_nil], ?_⟩
  rw [asleep]
  simp

omit [DecidableEq ι] in
theorem Slept.trans {s'' : WaitableFlag ι} (first : Slept t b s s') (second : Slept t b s' s'') : Slept t b s s'' := by
  obtain ⟨new, notified, asleep⟩ := first
  obtain ⟨new', notified', asleep'⟩ := second
  refine ⟨new ++ new', by rw [notified', notified, List.append_assoc], ?_⟩
  rw [asleep', asleep, List.mem_append, not_or, and_assoc]

theorem slept_act {choice : FlagChoice} {l : FlagUser} (other : u ≠ t)
    (acted : WaitableFlag.act u choice s l = some (s', l')) :
    Slept t b s s' := by
  cases choice with
  | call c =>
    obtain ⟨-, ⟨⟩⟩ := Option.ite_none_right_eq_some.mp acted
    exact .of_same rfl rfl
  | spurious =>
    obtain ⟨-, ⟨⟩⟩ := Option.ite_none_right_eq_some.mp acted
    exact .of_same rfl (Function.update_of_ne other.symm _ _)
  | go =>
    cases l with
    | idle => cases acted
    | entering | locking | sleeping =>
      obtain ⟨-, ⟨⟩⟩ := Option.ite_none_right_eq_some.mp acted
      exact .of_same rfl rfl
    | checking b permanently =>
      simp only [WaitableFlag.act, WaitableFlag.advance] at acted
      split at acted <;> cases acted <;> exact .of_same rfl rfl
    | storing | leaving | reading | rereading =>
      cases acted
      exact .of_same rfl rfl
    | waiting =>
      cases acted
      exact .of_same rfl (Function.update_of_ne other.symm _ _)
    | notifying b' =>
      cases acted
      refine ⟨[b'], rfl, ?_⟩
      simp only [notify, List.mem_singleton]
      split
      · next same => simp [same, eq_comm]
      · next different =>
        refine ⟨fun asleep => ⟨asleep, fun same => different (same ▸ asleep)⟩, And.left⟩

theorem slept_run {schedule : List (ι × FlagChoice)} (ran : Threads.run WaitableFlag.act w schedule = some w')
    (others : ∀ event ∈ schedule, event.1 ≠ t) : Slept t b w.shared w'.shared := by
  induction schedule generalizing w with
  | nil =>
    cases ran
    exact .of_same rfl rfl
  | cons event schedule ih =>
    obtain ⟨w₁, first, rest⟩ := Option.bind_eq_some_iff.mp ran
    obtain ⟨s', l', acted, rfl⟩ := Threads.step_eq_some.mp first
    have second := ih rest fun event member => others event (List.mem_cons_of_mem _ member)
    exact (slept_act (others event List.mem_cons_self) acted).trans second

/-- A thread sleeps on although the flag has the value that it waits for, exactly when the flag had this value already
when the thread went to sleep, and has not been set since. -/
theorem waitUntil_oversleeps_iff {before after : List (ι × FlagChoice)}
    (ran : Threads.run WaitableFlag.act (unused ι) before = some w)
    (here : w.locals t = .waiting b) (ran' : Threads.run WaitableFlag.act w ((t, .go) :: after) = some w')
    (others : ∀ event ∈ after, event.1 ≠ t) (quiet : ∀ u b, w'.locals u ≠ .notifying b) :
    (w'.shared.asleep t = some b ∧ w'.shared.value = b) ↔ w.shared.value = b ∧
    w'.shared.notified = w.shared.notified := by
  have orderly := unused_orderly.run ran
  have alone (u : ι) (b' : Bool) : w.locals u ≠ .notifying b' := by
    intro notifies
    have mine := (orderly.holder t).mp (by rw [here]; trivial)
    have there := (orderly.holder u).mp (by rw [notifies]; trivial)
    rw [mine] at there
    cases there
    rw [here] at notifies
    cases notifies
  have value := orderly.settled alone
  have value' := (orderly.run ran').settled quiet
  obtain ⟨w₁, first, rest⟩ := Option.bind_eq_some_iff.mp ran'
  obtain ⟨s', l', acted, rfl⟩ := Threads.step_eq_some.mp first
  rw [WaitableFlag.act, here] at acted
  cases acted
  obtain ⟨new, notified, asleep⟩ := slept_run (b := b) rest others
  have sleeps : w'.shared.asleep t = some b ↔ b ∉ new := asleep.trans (and_iff_right (Function.update_self ..))
  change w'.shared.notified = w.shared.notified ++ new at notified
  rw [sleeps, value', notified, value]
  rcases List.eq_nil_or_concat new with rfl | ⟨new, last, rfl⟩
  · simp
  · rw [List.concat_eq_append, ← List.append_assoc, List.getLastD_concat]
    apply iff_of_false
    · rintro ⟨missed, value⟩
      exact missed (List.mem_append_right _ (List.mem_singleton.mpr value.symm))
    · rintro ⟨-, same⟩
      have longer := congrArg List.length same
      simp at longer

/-- One thread sets the flag and sets it back, while the other one is between its look at the flag and the mutex. -/
def hasty : List (Bool × FlagChoice) :=
  (true, .call (.set true)) :: List.replicate 5 (true, .go) ++ [(false, .call (.waitUntil false)), (false, .go)] ++
    (true, .call (.setPermanently false)) :: List.replicate 5 (true, .go) ++ [(false, .go)]

theorem waitUntil_oversleeps_iff_hasty : ∃ w w', Threads.run WaitableFlag.act (unused Bool) hasty = some w ∧
    Threads.run WaitableFlag.act w [(false, .go)] = some w' ∧ w'.shared.asleep false = some false ∧
      w'.shared.value = false := by
  have check : ((Threads.run WaitableFlag.act (unused Bool) hasty).bind fun w =>
      (Threads.run WaitableFlag.act w [(false, .go)]).map fun w' =>
      (decide (w.locals false = .waiting false) && !w.shared.value &&
        decide (w'.shared.notified = w.shared.notified) && decide (w'.locals false = .sleeping false)) &&
        decide (w'.locals true = .idle)) = some true := by decide
  obtain ⟨w, ran, next⟩ := Option.bind_eq_some_iff.mp check
  obtain ⟨w', ran', holds⟩ := Option.map_eq_some_iff.mp next
  simp only [Bool.and_eq_true, decide_eq_true_eq, Bool.not_eq_true'] at holds
  obtain ⟨⟨⟨⟨here, value⟩, same⟩, sleeping⟩, idle⟩ := holds
  have quiet : ∀ u b, w'.locals u ≠ .notifying b := by
    intro u b
    cases u with
    | false => simp [sleeping]
    | true => simp [idle]
  exact ⟨w, w', ran, ran', (waitUntil_oversleeps_iff ran here ran' (by simp) quiet).mpr ⟨value, same⟩⟩

/-- The flag is finished, and no call is about to set it. -/
structure Closed (value : Bool) (notified : List Bool) (w : Threads ι (WaitableFlag ι) FlagUser) : Prop where
  finished : w.shared.finished = true
  quiet : ∀ u b, w.locals u ≠ .storing b ∧ w.locals u ≠ .notifying b
  value : w.shared.value = value
  notified : w.shared.notified = notified

theorem closed_act {choice : FlagChoice} {l : FlagUser} (finished : s.finished = true)
    (quiet : ∀ b, l ≠ .storing b ∧ l ≠ .notifying b) (acted : WaitableFlag.act u choice s l = some (s', l')) :
    s'.finished = true ∧ (∀ b, l' ≠ .storing b ∧ l' ≠ .notifying b) ∧ s'.value = s.value ∧
      s'.notified = s.notified := by
  cases choice with
  | call c =>
    obtain ⟨-, ⟨⟩⟩ := Option.ite_none_right_eq_some.mp acted
    exact ⟨finished, by cases c <;> simp [FlagCall.begin], rfl, rfl⟩
  | spurious =>
    obtain ⟨-, ⟨⟩⟩ := Option.ite_none_right_eq_some.mp acted
    exact ⟨finished, quiet, rfl, rfl⟩
  | go =>
    cases l with
    | idle => cases acted
    | entering | locking | sleeping =>
      obtain ⟨-, ⟨⟩⟩ := Option.ite_none_right_eq_some.mp acted
      exact ⟨finished, by simp, rfl, rfl⟩
    | checking b permanently =>
      simp only [WaitableFlag.act, WaitableFlag.advance, if_pos finished] at acted
      cases acted
      exact ⟨finished, by simp, rfl, rfl⟩
    | leaving | waiting =>
      cases acted
      exact ⟨finished, by simp, rfl, rfl⟩
    | reading | rereading =>
      cases acted
      exact ⟨finished, by split <;> simp, rfl, rfl⟩
    | storing b => exact absurd rfl (quiet b).1
    | notifying b => exact absurd rfl (quiet b).2

theorem Closed.step {value : Bool} {notified : List Bool} (closed : Closed value notified w)
    (taken : Threads.step WaitableFlag.act w event = some w') : Closed value notified w' := by
  obtain ⟨s', l', acted, rfl⟩ := Threads.step_eq_some.mp taken
  obtain ⟨finished, quiet, same, silent⟩ := closed_act closed.finished (closed.quiet event.1) acted
  refine ⟨finished, ?_, same.trans closed.value, silent.trans closed.notified⟩
  intro u b
  show Function.update w.locals event.1 l' u ≠ .storing b ∧ Function.update w.locals event.1 l' u ≠ .notifying b
  by_cases here : u = event.1
  · rw [here, Function.update_self]
    exact quiet b
  · rw [Function.update_of_ne here]
    exact closed.quiet u b

/-- Once the flag is finished and no call is about to set it, a thread that sleeps is never notified again, whatever
the value is. -/
theorem setPermanently_forever {schedule : List (ι × FlagChoice)} (finished : w.shared.finished = true)
    (quiet : ∀ u b, w.locals u ≠ .storing b ∧ w.locals u ≠ .notifying b) (asleep : w.shared.asleep t = some b)
    (ran : Threads.run WaitableFlag.act w schedule = some w') (others : ∀ event ∈ schedule, event.1 ≠ t) :
    w'.shared.asleep t = some b ∧ w'.shared.value = w.shared.value := by
  have closed := Threads.run_invariant (Closed w.shared.value w.shared.notified) (fun _ _ _ => Closed.step) ran
    ⟨finished, quiet, rfl, rfl⟩
  obtain ⟨new, notified, sleeps⟩ := slept_run (b := b) ran others
  have nobody : new = [] := by
    apply List.append_cancel_left_eq w.shared.notified new [] |>.mp
    rw [← notified, closed.notified, List.append_nil]
  rw [nobody] at sleeps
  exact ⟨sleeps.mpr ⟨asleep, List.not_mem_nil⟩, closed.value⟩

theorem setPermanently_forever_hasty : ∃ w w',
    Threads.run WaitableFlag.act (unused Bool) (hasty ++ [(false, .go)]) = some w ∧
    Threads.run WaitableFlag.act w ((true, .call (.set false)) :: List.replicate 3 (true, .go)) = some w' ∧
      w'.shared.asleep false = some false := by
  have check : ((Threads.run WaitableFlag.act (unused Bool) (hasty ++ [(false, .go)])).bind fun w =>
      (Threads.run WaitableFlag.act w ((true, .call (.set false)) :: List.replicate 3 (true, .go))).map fun _ =>
        (w.shared.finished && decide (w.locals false = .sleeping false) && decide (w.locals true = .idle) &&
          decide (w.shared.asleep false = some false))) = some true := by decide
  obtain ⟨w, ran, next⟩ := Option.bind_eq_some_iff.mp check
  obtain ⟨w', ran', holds⟩ := Option.map_eq_some_iff.mp next
  simp only [Bool.and_eq_true, decide_eq_true_eq] at holds
  obtain ⟨⟨⟨finished, sleeping⟩, idle⟩, asleep⟩ := holds
  have quiet : ∀ u b, w.locals u ≠ .storing b ∧ w.locals u ≠ .notifying b := by
    intro u b
    cases u with
    | false => simp [sleeping]
    | true => simp [idle]
  exact ⟨w, w', ran, ran', (setPermanently_forever finished quiet asleep ran' (by simp)).1⟩

end KataGo.Core
