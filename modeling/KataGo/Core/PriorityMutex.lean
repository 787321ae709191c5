import KataGo.Lib.Interleaving
import Mathlib.Algebra.Order.Ring.Int

/-! `PriorityMutex` of `cpp/core/prioritymutex.h`: threads of low priority wait until no thread of high priority wants
the mutex. -/

namespace KataGo.Core
open KataGo.Lib

/-- The mutex, who sleeps at `lowPriorityOkayToGo`, and the counter. -/
structure PriorityMutex (ι : Type) where
  mutex : Option ι
  asleep : ι → Bool
  numHighPriorityThreads : Int

/-- What a thread is about to do. -/
inductive PriorityUser where
  | idle
  | announced
  | high
  | withdrawn (newValue : Int)
  | unlocking
  | requesting
  | checking
  | waiting
  | sleeping
  | low
  | failed
  deriving DecidableEq

/-- A thread calls `lockHighPriority` or `lockLowPriority`, goes on (with the lock, it unlocks), or wakes up although
it was not notified. -/
inductive PriorityChoice where
  | lockHighPriority
  | lockLowPriority
  | go
  | spurious
  deriving DecidableEq

namespace PriorityMutex

variable {ι : Type} [DecidableEq ι]

def new (ι : Type) : PriorityMutex ι := ⟨none, fun _ => false, 0⟩

def advance (t : ι) (s : PriorityMutex ι) : PriorityUser → Option (PriorityMutex ι × PriorityUser)
  | .idle | .failed => none
  | .announced => if s.mutex = none then some ({ s with mutex := some t }, .high) else none
  | .high =>
      let newValue := s.numHighPriorityThreads - 1
      some ({ s with numHighPriorityThreads := newValue }, .withdrawn newValue)
  | .withdrawn newValue =>
      if newValue < 0 then some (s, .failed)
      else if newValue ≤ 0 then some ({ s with asleep := fun _ => false }, .unlocking)
      else some (s, .unlocking)
  | .unlocking | .low => some ({ s with mutex := none }, .idle)
  | .requesting => if s.mutex = none then some ({ s with mutex := some t }, .checking) else none
  | .checking => some (s, if s.numHighPriorityThreads > 0 then .waiting else .low)
  | .waiting => some ({ s with mutex := none, asleep := Function.update s.asleep t true }, .sleeping)
  | .sleeping => if s.asleep t = false ∧ s.mutex = none then some ({ s with mutex := some t }, .checking) else none

def act (t : ι) (choice : PriorityChoice) (s : PriorityMutex ι) (l : PriorityUser) :
    Option (PriorityMutex ι × PriorityUser) :=
  match choice with
  | .lockHighPriority =>
      if l = .idle then some ({ s with numHighPriorityThreads := s.numHighPriorityThreads + 1 }, .announced) else none
  | .lockLowPriority => if l = .idle then some (s, .requesting) else none
  | .go => s.advance t l
  | .spurious => if s.asleep t = true then some ({ s with asleep := Function.update s.asleep t false }, l) else none

end PriorityMutex

namespace PriorityUser

/-- The thread is in the mutex. -/
def Holds : PriorityUser → Prop
  | high | withdrawn _ | unlocking | checking | waiting | low | failed => True
  | _ => False

/-- The thread has been counted. -/
def announces : PriorityUser → Int
  | announced | high => 1
  | _ => 0

end PriorityUser

open PriorityMutex PriorityUser

section Runs

variable {ι : Type} {s s' : PriorityMutex ι} {t u : ι} {w w' : Threads ι (PriorityMutex ι) PriorityUser}

/-- The invariant of every run. A thread sleeps only while the counter is not zero, or while a thread is about to
notify it. -/
structure Attended [Fintype ι] (w : Threads ι (PriorityMutex ι) PriorityUser) : Prop where
  holder : ∀ t, (w.locals t).Holds ↔ w.shared.mutex = some t
  sleeper : ∀ t, w.shared.asleep t = true → w.locals t = .sleeping
  count : w.shared.numHighPriorityThreads = ∑ t, (w.locals t).announces
  withdrawn : ∀ t v, w.locals t = .withdrawn v → 0 ≤ v ∧ v ≤ w.shared.numHighPriorityThreads
  waiting : ∀ t, w.locals t = .waiting → 0 < w.shared.numHighPriorityThreads
  attended : ∀ t, w.shared.asleep t = true → 0 < w.shared.numHighPriorityThreads ∨ ∃ u, w.locals u = .withdrawn 0
  sound : ∀ t, w.locals t ≠ .failed

/-- Threads that do not want the mutex. -/
def nobody (ι : Type) : Threads ι (PriorityMutex ι) PriorityUser := ⟨.new ι, fun _ => .idle⟩

variable [Fintype ι]

theorem nobody_attended : Attended (nobody ι) where
  holder t := by simp [nobody, PriorityMutex.new, Holds]
  sleeper _ asleep := by cases asleep
  count := (Finset.sum_eq_zero fun _ _ => rfl).symm
  withdrawn _ _ same := by cases same
  waiting _ same := by cases same
  attended _ asleep := by cases asleep
  sound _ same := by cases same

theorem announces_nonneg (w : Threads ι (PriorityMutex ι) PriorityUser) : 0 ≤ ∑ t, (w.locals t).announces := by
  apply Finset.sum_nonneg
  intro t _
  cases w.locals t <;> simp [announces]

/-- A thread that has been counted keeps the counter from zero. -/
theorem Attended.positive (attended : Attended w) (counted : (w.locals t).announces = 1) :
    0 < w.shared.numHighPriorityThreads := by
  rw [attended.count]
  apply Finset.sum_pos'
  · intro u _
    cases w.locals u <;> simp [announces]
  · exact ⟨t, Finset.mem_univ t, by rw [counted]; exact Int.one_pos⟩

variable [DecidableEq ι] {l' : PriorityUser} {event : ι × PriorityChoice}

theorem Attended.next (attended : Attended w) (mine : l'.Holds ↔ s'.mutex = some t)
    (others : ∀ u, u ≠ t → (s'.mutex = some u ↔ w.shared.mutex = some u))
    (asleep : ∀ u, u ≠ t → s'.asleep u = true → w.shared.asleep u = true) (own : s'.asleep t = true → l' = .sleeping)
    (count : s'.numHighPriorityThreads + (w.locals t).announces = w.shared.numHighPriorityThreads + l'.announces)
    (lower : w.shared.numHighPriorityThreads ≤ s'.numHighPriorityThreads ∨ (w.locals t).Holds)
    (withdrawn : ∀ v, l' = .withdrawn v → 0 ≤ v ∧ v ≤ s'.numHighPriorityThreads)
    (waiting : l' = .waiting → 0 < s'.numHighPriorityThreads)
    (woken : ∀ u, s'.asleep u = true → 0 < s'.numHighPriorityThreads ∨ ∃ u,
    Function.update w.locals t l' u = .withdrawn 0)
    (sound : l' ≠ .failed) : Attended ⟨s', Function.update w.locals t l'⟩ := by
  -- A thread in the mutex sees the counter grow only.
  have grows (u : ι) (other : u ≠ t) (holds : (w.locals u).Holds) :
      w.shared.numHighPriorityThreads ≤ s'.numHighPriorityThreads := by
    rcases lower with grown | here
    · exact grown
    · have there := (attended.holder u).mp holds
      rw [(attended.holder t).mp here] at there
      exact absurd (Option.some.inj there).symm other
  constructor
  · refine Threads.forall_update (P := fun u (l : PriorityUser) => l.Holds ↔ s'.mutex = some u) mine fun u other => ?_
    rw [others u other]
    exact attended.holder u
  · exact Threads.forall_update (P := fun u (l : PriorityUser) => s'.asleep u = true → l = .sleeping) own
      fun u other sleeps => attended.sleeper u (asleep u other sleeps)
  · have sum := Threads.sum_update announces w.locals t l'
    have before := attended.count
    show s'.numHighPriorityThreads = ∑ u, (Function.update w.locals t l' u).announces
    omega
  · refine Threads.forall_update (P := fun _ (l : PriorityUser) => ∀ v, l = .withdrawn v → 0 ≤ v ∧
      v ≤ s'.numHighPriorityThreads) withdrawn ?_
    intro u other v here
    have bounds := attended.withdrawn u v here
    exact ⟨bounds.1, bounds.2.trans (grows u other (by rw [here]; trivial))⟩
  · refine Threads.forall_update (P := fun _ (l : PriorityUser) => l = .waiting → 0 < s'.numHighPriorityThreads)
      waiting fun u other here => ?_
    exact (attended.waiting u here).trans_le (grows u other (by rw [here]; trivial))
  · exact woken
  · exact Threads.forall_update (P := fun _ (l : PriorityUser) => l ≠ .failed) sound fun u _ => attended.sound u

/-- A step that neither counts anybody nor follows on the last withdrawal. -/
theorem Attended.aside (attended : Attended w) (mine : l'.Holds ↔ s'.mutex = some t)
    (others : ∀ u, u ≠ t → (s'.mutex = some u ↔ w.shared.mutex = some u))
    (asleep : ∀ u, s'.asleep u = true → w.shared.asleep u = true) (own : s'.asleep t = true → l' = .sleeping)
    (counter : s'.numHighPriorityThreads = w.shared.numHighPriorityThreads)
    (counted : (w.locals t).announces = l'.announces)
    (before : ∀ v, w.locals t ≠ .withdrawn v) (after : ∀ v, l' ≠ .withdrawn v)
    (waiting : l' = .waiting → 0 < w.shared.numHighPriorityThreads) (sound : l' ≠ .failed) :
    Attended ⟨s', Function.update w.locals t l'⟩ := by
  refine attended.next mine others (fun u _ => asleep u) own (by rw [counter, counted]) (.inl counter.ge)
    (fun v same => absurd same (after v)) (by rwa [counter]) ?_ sound
  intro u sleeps
  rw [counter]
  rcases attended.attended u (asleep u sleeps) with positive | ⟨v, last⟩
  · exact .inl positive
  · refine .inr ⟨v, ?_⟩
    rw [Function.update_of_ne]
    · exact last
    · intro same
      exact before 0 (same ▸ last)

omit [DecidableEq ι] in
/-- A thread that does not sleep is not at the variable. -/
theorem Attended.awake (attended : Attended w) (here : w.locals t ≠ .sleeping) : w.shared.asleep t = false := by
  rw [← Bool.not_eq_true]
  intro asleep
  exact here (attended.sleeper t asleep)

/-- A thread takes the mutex. -/
theorem Attended.lock (attended : Attended w) (free : w.shared.mutex = none) (holds : l'.Holds)
    (awake : w.shared.asleep t = false) (counted : (w.locals t).announces = l'.announces)
    (before : ∀ v, w.locals t ≠ .withdrawn v)
    (after : ∀ v, l' ≠ .withdrawn v) (decided : l' ≠ .waiting) (sound : l' ≠ .failed) :
    Attended ⟨{ w.shared with mutex := some t }, Function.update w.locals t l'⟩ := by
  refine attended.aside (iff_of_true holds rfl) ?_ (fun _ asleep => asleep) ?_ rfl counted before after
    (fun same => absurd same decided) sound
  · intro u other
    rw [free]
    simp [Ne.symm other]
  · intro asleep
    rw [awake] at asleep
    cases asleep

/-- A thread lets the mutex go, after it has unlocked it. -/
theorem Attended.unlock (attended : Attended w) (holds : (w.locals t).Holds) (here : (w.locals t).announces = 0)
    (before : ∀ v, w.locals t ≠ .withdrawn v) :
    Attended ⟨{ w.shared with mutex := none }, Function.update w.locals t .idle⟩ := by
  have mine := (attended.holder t).mp holds
  refine attended.aside (iff_of_false id (by simp)) ?_ (fun _ asleep => asleep) ?_ rfl here before (by simp) (by simp)
    (by simp)
  · intro u other
    rw [mine]
    simp [Ne.symm other]
  · intro asleep
    have sleeping := attended.sleeper t asleep
    rw [sleeping] at holds
    cases holds

theorem Attended.advance (attended : Attended w) (acted : w.shared.advance t (w.locals t) = some (s', l')) :
    Attended ⟨s', Function.update w.locals t l'⟩ := by
  have holder := attended.holder t
  cases here : w.locals t with
  | idle | failed =>
    rw [here] at acted
    cases acted
  | announced =>
    rw [here] at acted
    obtain ⟨free, ⟨⟩⟩ := Option.ite_none_right_eq_some.mp acted
    exact attended.lock free trivial (attended.awake (by simp [here])) (by rw [here]; rfl) (by simp [here]) (by simp)
      (by simp)
      (by simp)
  | requesting =>
    rw [here] at acted
    obtain ⟨free, ⟨⟩⟩ := Option.ite_none_right_eq_some.mp acted
    exact attended.lock free trivial (attended.awake (by simp [here])) (by rw [here]; rfl) (by simp [here]) (by simp)
      (by simp)
      (by simp)
  | sleeping =>
    rw [here] at acted
    obtain ⟨⟨awake, free⟩, ⟨⟩⟩ := Option.ite_none_right_eq_some.mp acted
    exact attended.lock free trivial awake (by rw [here]; rfl) (by simp [here]) (by simp) (by simp) (by simp)
  | unlocking | low =>
    rw [here] at acted
    cases acted
    exact attended.unlock (by rw [here]; trivial) (by rw [here]; rfl) (by simp [here])
  | checking =>
    rw [here] at acted holder
    have awake := attended.awake (t := t) (by simp [here])
    have stays (l' : PriorityUser) (holds : l'.Holds) (counted : l'.announces = 0) (after : ∀ v, l' ≠ .withdrawn v)
        (waiting : l' = .waiting → 0 < w.shared.numHighPriorityThreads) (sound : l' ≠ .failed) :
        Attended ⟨w.shared, Function.update w.locals t l'⟩ := by
      refine attended.aside (iff_of_true holds (holder.mp trivial)) (fun _ _ => Iff.rfl) (fun _ asleep => asleep) ?_ rfl
        (by rw [here, counted]; rfl) (by simp [here]) after waiting sound
      intro asleep
      rw [awake] at asleep
      cases asleep
    cases acted
    by_cases busy : w.shared.numHighPriorityThreads > 0
    · rw [if_pos busy]
      exact stays .waiting trivial rfl (by simp) (fun _ => busy) (by simp)
    · rw [if_neg busy]
      exact stays .low trivial rfl (by simp) (by simp) (by simp)
  | waiting =>
    rw [here] at acted
    cases acted
    have positive := attended.waiting t here
    have mine := holder.mp (by rw [here]; trivial)
    refine attended.next (iff_of_false id (by simp)) ?_ ?_ (fun _ => rfl) (by rw [here]; rfl) (.inl le_rfl) (by simp)
      (by simp)
      (fun _ _ => .inl positive) (by simp)
    · intro u other
      rw [mine]
      simp [Ne.symm other]
    · intro u other asleep
      exact (Function.update_of_ne other ..).symm.trans asleep
  | high =>
    rw [here] at acted holder
    cases acted
    have awake := attended.awake (t := t) (by simp [here])
    have positive := attended.positive (t := t) (by rw [here]; rfl)
    refine attended.next (iff_of_true trivial (holder.mp trivial)) (fun _ _ => Iff.rfl) (fun _ _ asleep => asleep) ?_ ?_
      (.inr (by rw [here]; trivial)) ?_ (by simp) ?_ (by simp)
    · intro asleep
      rw [awake] at asleep
      cases asleep
    · rw [here]
      simp [announces]
    · rintro v ⟨⟩
      exact ⟨by omega, le_rfl⟩
    · intro u _
      show 0 < w.shared.numHighPriorityThreads - 1 ∨ _
      by_cases last : w.shared.numHighPriorityThreads - 1 = 0
      · refine .inr ⟨t, ?_⟩
        rw [Function.update_self, last]
      · exact .inl (by omega)
  | withdrawn v =>
    rw [here] at acted holder
    have bounds := attended.withdrawn t v here
    have awake := attended.awake (t := t) (by simp [here])
    simp only [PriorityMutex.advance, if_neg (not_lt.mpr bounds.1)] at acted
    split at acted
    · cases acted
      exact attended.next (iff_of_true trivial (holder.mp trivial)) (fun _ _ => Iff.rfl) (by simp) (by simp)
        (by rw [here]; rfl)
        (.inl le_rfl) (by simp) (by simp) (by simp) (by simp)
    · cases acted
      refine attended.next (iff_of_true trivial (holder.mp trivial)) (fun _ _ => Iff.rfl) (fun _ _ asleep => asleep) ?_
        (by rw [here]; rfl) (.inl le_rfl) (by simp) (by simp) (fun _ _ => .inl (by omega)) (by simp)
      intro asleep
      rw [awake] at asleep
      cases asleep

theorem Attended.step (attended : Attended w) (taken : Threads.step PriorityMutex.act w event = some w') :
    Attended w' := by
  obtain ⟨s', l', acted, rfl⟩ := Threads.step_eq_some.mp taken
  obtain ⟨t, choice⟩ := event
  have holder := attended.holder t
  cases choice with
  | go => exact attended.advance acted
  | lockHighPriority =>
    obtain ⟨idle, ⟨⟩⟩ := Option.ite_none_right_eq_some.mp acted
    rw [idle] at holder
    have zero : 0 ≤ w.shared.numHighPriorityThreads := attended.count ▸ announces_nonneg w
    have later : 0 < w.shared.numHighPriorityThreads + 1 := by omega
    refine attended.next (iff_of_false id fun mine => holder.mpr mine) (fun _ _ => Iff.rfl) (fun _ _ asleep => asleep)
      ?_ ?_
      (.inl (by simp)) (by simp) (by simp) (fun _ _ => .inl later) (by simp)
    · intro asleep
      have sleeping := attended.sleeper t asleep
      rw [idle] at sleeping
      cases sleeping
    · rw [idle]
      simp [announces]
  | lockLowPriority =>
    obtain ⟨idle, ⟨⟩⟩ := Option.ite_none_right_eq_some.mp acted
    rw [idle] at holder
    refine attended.aside (iff_of_false id fun mine => holder.mpr mine) (fun _ _ => Iff.rfl) (fun _ asleep => asleep)
      ?_ rfl
      (by rw [idle]; rfl) (by simp [idle]) (by simp) (by simp) (by simp)
    intro asleep
    have sleeping := attended.sleeper t asleep
    rw [idle] at sleeping
    cases sleeping
  | spurious =>
    obtain ⟨asleep, ⟨⟩⟩ := Option.ite_none_right_eq_some.mp acted
    have here : w.locals t = .sleeping := attended.sleeper t asleep
    refine attended.aside holder (fun _ _ => Iff.rfl) ?_ (fun _ => here) rfl rfl (by simp [here]) (by simp [here])
      (by simp [here])
      (by simp [here])
    intro u sleeps
    by_cases same : u = t
    · rw [same]
      exact asleep
    · exact (Function.update_of_ne same ..).symm.trans sleeps

theorem Attended.run {schedule : List (ι × PriorityChoice)} (attended : Attended w)
    (ran : Threads.run PriorityMutex.act w schedule = some w') : Attended w' :=
  Threads.run_invariant Attended (fun _ _ _ => Attended.step) ran attended

/-- At most one thread is in the mutex, the counter counts the threads of high priority from their call to the
beginning of their unlocking, and a thread of low priority gets the lock at a time at which there is none of them. -/
theorem priorityMutex_excludes {schedule : List (ι × PriorityChoice)}
    (ran : Threads.run PriorityMutex.act (nobody ι) schedule = some w) :
    (∀ t u, (w.locals t).Holds → (w.locals u).Holds → t = u) ∧
      w.shared.numHighPriorityThreads = ∑ t, (w.locals t).announces ∧ (∀ t, w.locals t ≠ .failed) ∧
      ∀ t w', w.locals t ≠ .low → Threads.step PriorityMutex.act w (t, .go) = some w' → w'.locals t = .low →
        ∀ u, w.locals u ≠ .announced ∧ w.locals u ≠ .high := by
  have attended := nobody_attended.run ran
  refine ⟨?_, attended.count, attended.sound, ?_⟩
  · intro t u here there
    have mine := (attended.holder t).mp here
    rw [(attended.holder u).mp there] at mine
    exact (Option.some.inj mine).symm
  · intro t w' before taken got u
    obtain ⟨s', l', acted, rfl⟩ := Threads.step_eq_some.mp taken
    have low : l' = .low := (Function.update_self ..).symm.trans got
    have clear : w.shared.numHighPriorityThreads ≤ 0 := by
      by_contra busy
      rw [low] at acted
      cases here : w.locals t with
      | idle | failed | high | unlocking | waiting =>
        rw [here] at acted
        cases acted
      | low => exact before here
      | announced | requesting | sleeping =>
        rw [here] at acted
        cases (Option.ite_none_right_eq_some.mp acted).2
      | withdrawn v =>
        rw [here] at acted
        simp only [PriorityMutex.act, PriorityMutex.advance] at acted
        split at acted
        · cases acted
        · split at acted <;> cases acted
      | checking =>
        rw [here] at acted
        simp only [PriorityMutex.act, PriorityMutex.advance, if_pos (not_le.mp busy)] at acted
        cases acted
    constructor
    · intro here
      have positive := attended.positive (t := u) (by rw [here]; rfl)
      omega
    · intro here
      have positive := attended.positive (t := u) (by rw [here]; rfl)
      omega

/-- No thread waits for ever: whoever is not idle can go on, or another one can that is not idle either. -/
theorem priorityMutex_progress {schedule : List (ι × PriorityChoice)}
    (ran : Threads.run PriorityMutex.act (nobody ι) schedule = some w)
    (busy : w.locals t ≠ .idle) : ∃ u w', w.locals u ≠ .idle ∧ Threads.step PriorityMutex.act w (u, .go) = some w' := by
  have attended := nobody_attended.run ran
  have goes {u : ι} {next : PriorityMutex ι × PriorityUser} (other : w.locals u ≠ .idle)
      (acts : w.shared.advance u (w.locals u) = some next) :
      ∃ u w', w.locals u ≠ .idle ∧ Threads.step PriorityMutex.act w (u, .go) = some w' := by
    refine ⟨u, ⟨next.1, Function.update w.locals u next.2⟩, other, ?_⟩
    exact Threads.step_eq_some.mpr ⟨next.1, next.2, acts, rfl⟩
  cases mutex : w.shared.mutex with
  | some u =>
    have holds := (attended.holder u).mpr mutex
    cases here : w.locals u with
    | idle | announced | requesting | sleeping =>
      rw [here] at holds
      cases holds
    | failed => exact absurd here (attended.sound u)
    | high | unlocking | checking | waiting | low => exact goes (u := u) (by simp [here]) (by rw [here]; rfl)
    | withdrawn v =>
      have bounds := attended.withdrawn u v here
      by_cases last : v ≤ 0
      · exact goes (u := u) (by simp [here]) (by rw [here, PriorityMutex.advance, if_neg (not_lt.mpr bounds.1),
          if_pos last])
      · exact goes (u := u) (by simp [here]) (by rw [here, PriorityMutex.advance, if_neg (not_lt.mpr bounds.1),
          if_neg last])
  | none =>
    have outside (u : ι) : ¬(w.locals u).Holds := by
      intro holds
      rw [attended.holder u, mutex] at holds
      cases holds
    cases here : w.locals t with
    | idle => exact absurd here busy
    | announced | requesting =>
      exact goes (u := t) busy (by rw [here, PriorityMutex.advance, if_pos mutex])
    | high | withdrawn | unlocking | checking | waiting | low | failed =>
      exact absurd (by rw [here]; trivial) (outside t)
    | sleeping =>
      cases asleep : w.shared.asleep t with
      | false => exact goes (u := t) busy (by rw [here, PriorityMutex.advance, if_pos ⟨asleep, mutex⟩])
      | true =>
        rcases attended.attended t asleep with positive | ⟨u, last⟩
        · rw [attended.count] at positive
          obtain ⟨u, -, counted⟩ := Finset.exists_ne_zero_of_sum_ne_zero positive.ne'
          cases there : w.locals u with
          | announced => exact goes (u := u) (by simp [there]) (by rw [there, PriorityMutex.advance, if_pos mutex])
          | high => exact absurd (by rw [there]; trivial) (outside u)
          | _ =>
            rw [there] at counted
            exact absurd rfl counted
        · exact absurd (by rw [last]; trivial) (outside u)

end Runs

/-- A thread of low priority sleeps while another one has the lock at high priority. -/
def crowded : List (Bool × PriorityChoice) :=
  [(true, .lockHighPriority), (false, .lockLowPriority), (false, .go), (false, .go), (false, .go), (true, .go)]

theorem priorityMutex_excludes_crowded : ∃ w, Threads.run PriorityMutex.act (nobody Bool) crowded = some w ∧
    (∀ t u, (w.locals t).Holds → (w.locals u).Holds → t = u) ∧
      w.shared.numHighPriorityThreads = ∑ t, (w.locals t).announces := by
  obtain ⟨w, ran⟩ := Option.isSome_iff_exists.mp
    (by decide : (Threads.run PriorityMutex.act (nobody Bool) crowded).isSome = true)
  have excludes := priorityMutex_excludes ran
  exact ⟨w, ran, excludes.1, excludes.2.1⟩

theorem priorityMutex_progress_crowded : ∃ w, Threads.run PriorityMutex.act (nobody Bool) crowded = some w ∧
    w.locals false = .sleeping ∧ ∃ u w', w.locals u ≠ .idle ∧ Threads.step PriorityMutex.act w (u, .go) = some w' := by
  have check : (Threads.run PriorityMutex.act (nobody Bool) crowded).map
    (fun w => decide (w.locals false = .sleeping)) = some true := by
    decide
  obtain ⟨w, ran, sleeping⟩ := Option.map_eq_some_iff.mp check
  rw [decide_eq_true_eq] at sleeping
  exact ⟨w, ran, sleeping, priorityMutex_progress (t := false) ran (by simp [sleeping])⟩

end KataGo.Core
