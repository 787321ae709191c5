import KataGo.Search.NodeVisits
import Mathlib.Algebra.BigOperators.Group.List.Basic

/-! No visit of a node is lost or counted twice, and the statistics of a node at rest have seen all visits of its
edges. -/

namespace KataGo.Search
open KataGo.Lib

variable {ι : Type} {spurious : Bool} {s s' : NodeVisits} {l l' : Visitor} {waiting waiting' : Nat → Nat}
  {choice : VisitChoice} {seen : List Nat}
  {known : Nat → Prop} {slack : Int} {childIdx i : Nat}

namespace NodeVisits

theorem edge_addEdgeVisit (i : Nat) (inside : childIdx < s.edgeVisits.length) :
    (s.addEdgeVisit childIdx).edge i = s.edge i + if i = childIdx then 1 else 0 := by
  rw [edge, edge, addEdgeVisit, List.getD_eq_getElem?_getD, List.getD_eq_getElem?_getD, List.getElem?_modify]
  by_cases same : i = childIdx
  · rw [same, List.getElem?_eq_getElem inside]
    simp
  · simp [same, Ne.symm same]

theorem sum_modify (l : List Nat) (inside : i < l.length) : (l.modify i (· + 1)).sum = l.sum + 1 := by
  induction l generalizing i with
  | nil => cases inside
  | cons a l ih =>
    cases i with
    | zero =>
      rw [List.modify_zero_cons, List.sum_cons, List.sum_cons]
      omega
    | succ i =>
      rw [List.modify_succ_cons, List.sum_cons, List.sum_cons, ih (Nat.lt_of_succ_lt_succ inside)]
      omega

theorem edge_of_le (outside : s.edgeVisits.length ≤ i) : s.edge i = 0 := by
  rw [edge, List.getD_eq_getElem?_getD, List.getElem?_eq_none outside]
  rfl

theorem edge_of_some {edgeVisits : Nat} (found : s.edgeVisits[i]? = some edgeVisits) : s.edge i = edgeVisits := by
  rw [edge, List.getD_eq_getElem?_getD, found]
  rfl

theorem edge_newChild (i : Nat) : { s with edgeVisits := s.edgeVisits ++ [0] }.edge i = s.edge i := by
  show (s.edgeVisits ++ [0]).getD i 0 = s.edgeVisits.getD i 0
  rw [List.getD_eq_getElem?_getD, List.getD_eq_getElem?_getD, List.getElem?_append]
  by_cases inside : i < s.edgeVisits.length
  · rw [if_pos inside]
  · rw [if_neg inside, List.getElem?_eq_none (l := s.edgeVisits) (by omega)]
    cases i - s.edgeVisits.length <;> rfl

/-- The visits of the known edges have been seen, but for those that are still to be announced and as many as the
slack has room for. -/
def Covers (s : NodeVisits) (waiting : Nat → Nat) (slack : Int) (known : Nat → Prop) (seen : List Nat) : Prop :=
  ∀ i, known i → seen.getD i 0 ≤ s.edge i ∧ (s.edge i : Int) ≤ seen.getD i 0 + waiting i + slack

/-- What the steps of other threads can do to a node, as a thread that recomputes its statistics sees it. -/
structure Later (s : NodeVisits) (waiting : Nat → Nat) (s' : NodeVisits) (waiting' : Nat → Nat) : Prop where
  edge : ∀ i, s.edge i ≤ s'.edge i
  announced : ∀ i, (s'.edge i : Int) + waiting i + s.dirtyCounter ≤ s.edge i + waiting' i + s'.dirtyCounter
  dirtyCounter : s.dirtyCounter ≤ s'.dirtyCounter
  counted : s'.counted = s.counted

theorem Covers.later {n : Int} (covers : s.Covers waiting (s.dirtyCounter - n) known seen)
    (later : Later s waiting s' waiting') :
    s'.Covers waiting' (s'.dirtyCounter - n) known seen := by
  intro i mem
  have before := covers i mem
  have edge := later.edge i
  have announced := later.announced i
  omega

/-- One more edge is read. -/
theorem Covers.read {edgeVisits capacity : Nat} {n : Int}
    (covers : s.Covers waiting (s.dirtyCounter - n) (fun i => i < seen.length ∨ capacity ≤ i) seen)
    (found : s.edgeVisits[seen.length]? = some edgeVisits) (claimed : n ≤ s.dirtyCounter) :
    s.Covers waiting (s.dirtyCounter - n) (fun i => i < (seen ++ [edgeVisits]).length ∨ capacity ≤ i)
      (seen ++ [edgeVisits]) := by
  intro i read
  rw [List.getD_eq_getElem?_getD, List.getElem?_append]
  by_cases before : i < seen.length
  · rw [if_pos before, ← List.getD_eq_getElem?_getD]
    exact covers i (.inl before)
  · rw [if_neg before]
    by_cases here : i = seen.length
    · rw [here, Nat.sub_self, edge_of_some found]
      simp only [List.getElem?_cons_zero, Option.getD_some]
      omega
    · have outside : capacity ≤ i := by
        apply read.resolve_left
        rw [List.length_append, List.length_singleton]
        omega
      have known := covers i (.inr outside)
      rw [List.getD_eq_getElem?_getD, List.getElem?_eq_none (by omega)] at known
      rw [List.getElem?_eq_none (by rw [List.length_singleton]; omega)]
      exact known

/-- There are no more edges to read. -/
theorem Covers.all {n : Int} (covers : s.Covers waiting (s.dirtyCounter - n) known seen)
    (unread : ∀ i, seen.length ≤ i → s.edge i = 0) (reads : ∀ i, i < seen.length → known i)
    (claimed : n ≤ s.dirtyCounter) :
    s.Covers waiting (s.dirtyCounter - n) (fun _ => True) seen := by
  intro i _
  by_cases before : i < seen.length
  · exact covers i (reads i before)
  · rw [unread i (not_lt.mp before), List.getD_eq_getElem?_getD, List.getElem?_eq_none (not_lt.mp before),
      Option.getD_none]
    omega

end NodeVisits

open NodeVisits

namespace Visitor

/-- What a thread knows of the node. -/
def Own (s : NodeVisits) (waiting : Nat → Nat) : Visitor → Prop
  | idle | catchingUp _ _ _ | announcing _ => True
  | starting n => 0 < n ∧ n ≤ s.dirtyCounter
  | recomputing n capacity seen => (0 < n ∧ n ≤ s.dirtyCounter) ∧
      s.Covers waiting (s.dirtyCounter - n) (fun i => i < seen.length ∨ capacity ≤ i) seen
  | storing n seen => (0 < n ∧ n ≤ s.dirtyCounter) ∧ s.Covers waiting (s.dirtyCounter - n) (fun _ => True) seen
  | undoing n => (0 < n ∧ n ≤ s.dirtyCounter) ∧ s.Covers waiting (s.dirtyCounter - n) (fun _ => True) s.counted
  | failed => False

theorem Own.later (own : l.Own s waiting) (later : Later s waiting s' waiting') : l.Own s' waiting' := by
  have counter := later.dirtyCounter
  cases l with
  | idle | catchingUp | announcing => trivial
  | starting n => exact ⟨own.1, own.2.trans counter⟩
  | recomputing n capacity seen => exact ⟨⟨own.1.1, own.1.2.trans counter⟩, own.2.later later⟩
  | storing n seen => exact ⟨⟨own.1.1, own.1.2.trans counter⟩, own.2.later later⟩
  | undoing n =>
    refine ⟨⟨own.1.1, own.1.2.trans counter⟩, ?_⟩
    rw [later.counted]
    exact own.2.later later
  | failed => exact own

/-- A thread that updates nothing knows nothing that a step could break. -/
theorem Own.of_updates (own : l.Own s waiting) (none : l.updates = 0) : l.Own s' waiting' := by
  cases l with
  | idle | catchingUp | announcing => trivial
  | starting | recomputing | storing | undoing => cases none
  | failed => exact own

end Visitor

open Visitor

section Runs

variable [Fintype ι] [DecidableEq ι] {w w' : Threads ι NodeVisits Visitor} {base : Int} {t : ι}
  {event : ι × VisitChoice}

/-- The visits of an edge that no thread has announced yet. -/
def waitingFor (locals : ι → Visitor) (childIdx : Nat) : Nat := ∑ t, announces childIdx (locals t)

/-- The invariant of every run. The visits of the node are those of its edges and `base` more. -/
structure Counted (base : Int) (w : Threads ι NodeVisits Visitor) : Prop where
  capacity : w.shared.edgeVisits.length ≤ w.shared.childrenCapacity
  counter : 0 ≤ w.shared.dirtyCounter
  one : ∑ t, (w.locals t).updates = if w.shared.dirtyCounter = 0 then 0 else 1
  own : ∀ t, (w.locals t).Own w.shared (waitingFor w.locals)
  rest : w.shared.dirtyCounter = 0 → w.shared.Covers (waitingFor w.locals) 0 (fun _ => True) w.shared.counted
  visits : w.shared.visits + w.shared.dirtyCounter + ∑ t, (w.locals t).owes = base + w.shared.edgeVisits.sum

theorem waitingFor_update (locals : ι → Visitor) (t : ι) (l : Visitor) (i : Nat) :
    waitingFor (Function.update locals t l) i + announces i (locals t) = waitingFor locals i + announces i l :=
  Threads.sum_update (announces i) locals t l

/-- A step of one thread keeps the invariant if its own knowledge is kept, and if it is the one that updates the
statistics or does nothing that the others would not expect. -/
theorem Counted.next {delta : Int} (counted : Counted base w) (capacity : s'.edgeVisits.length ≤ s'.childrenCapacity)
    (counter : 0 ≤ s'.dirtyCounter)
    (one : l'.updates + (if w.shared.dirtyCounter = 0 then 0 else 1) =
      (w.locals t).updates + if s'.dirtyCounter = 0 then 0 else 1)
    (own : l'.Own s' (waitingFor (Function.update w.locals t l')))
    (others : (w.locals t).updates = 1 ∨
      Later w.shared (waitingFor w.locals) s' (waitingFor (Function.update w.locals t l')))
    (rest : s'.dirtyCounter = 0 → s'.Covers (waitingFor (Function.update w.locals t l')) 0 (fun _ => True) s'.counted)
    (visits : s'.visits + s'.dirtyCounter + l'.owes + w.shared.edgeVisits.sum =
      w.shared.visits + w.shared.dirtyCounter + (w.locals t).owes + s'.edgeVisits.sum + delta) :
    Counted (base + delta) ⟨s', Function.update w.locals t l'⟩ where
  capacity := capacity
  counter := counter
  one := by
    have sum := Threads.sum_update updates w.locals t l'
    have before := counted.one
    show ∑ u, (Function.update w.locals t l' u).updates = if s'.dirtyCounter = 0 then 0 else 1
    omega
  own := by
    refine Threads.forall_update (P := fun _ (l : Visitor) => l.Own s' _) own fun u other => ?_
    rcases others with updating | later
    · apply (counted.own u).of_updates
      apply Threads.others_none (p := updates) _ updating.ge other
      rw [counted.one]
      split <;> omega
    · exact (counted.own u).later later
  rest := rest
  visits := by
    have sum := Threads.sum_update owes w.locals t l'
    have before := counted.visits
    show s'.visits + s'.dirtyCounter + ∑ u, (Function.update w.locals t l' u).owes = base + delta + s'.edgeVisits.sum
    omega

/-- What the others see of a step that announces the visit of an edge, counts one, or changes no edge. -/
theorem later_of_edges (locals : ι → Visitor) (t : ι) (counted : s'.counted = s.counted)
    (counter : s.dirtyCounter ≤ s'.dirtyCounter)
    (edge : ∀ i, s.edge i ≤ s'.edge i)
    (announced : ∀ i, (s'.edge i : Int) + announces i (locals t) + s.dirtyCounter ≤
      s.edge i + announces i l' + s'.dirtyCounter) :
    Later s (waitingFor locals) s' (waitingFor (Function.update locals t l')) where
  edge := edge
  announced i := by
    have moved := waitingFor_update locals t l' i
    have bound := announced i
    omega
  dirtyCounter := counter
  counted := counted

/-- A step that changes neither the counter nor who updates the statistics. -/
theorem Counted.aside {delta : Int} (counted : Counted base w) (capacity : s'.edgeVisits.length ≤ s'.childrenCapacity)
    (counter : s'.dirtyCounter = w.shared.dirtyCounter) (same : s'.counted = w.shared.counted)
    (before : (w.locals t).updates = 0) (after : l'.updates = 0) (sound : l' ≠ .failed)
    (edge : ∀ i, w.shared.edge i ≤ s'.edge i)
    (announced : ∀ i, s'.edge i + announces i (w.locals t) ≤ w.shared.edge i + announces i l')
    (visits : s'.visits + l'.owes + w.shared.edgeVisits.sum =
      w.shared.visits + (w.locals t).owes + s'.edgeVisits.sum + delta) :
    Counted (base + delta) ⟨s', Function.update w.locals t l'⟩ := by
  have later : Later w.shared (waitingFor w.locals) s' (waitingFor (Function.update w.locals t l')) := by
    apply later_of_edges w.locals t same counter.ge edge
    intro i
    have bound := announced i
    omega
  have zero := counted.counter
  apply counted.next capacity (by omega) _ _ (.inr later) _ (by omega)
  · rw [before, after, counter]
  · cases l' with
    | idle | catchingUp | announcing => trivial
    | starting | recomputing | storing | undoing => cases after
    | failed => exact absurd rfl sound
  · intro none
    rw [counter] at none
    have covers := counted.rest none
    rw [show (0 : Int) = w.shared.dirtyCounter - 0 by omega] at covers
    have moved := covers.later later
    rw [counter, none, same] at *
    exact moved

/-- A thread counts the visit of an edge, which it has still to announce. -/
theorem Counted.descend (counted : Counted base w) (inside : childIdx < w.shared.edgeVisits.length)
    (before : (w.locals t).updates = 0) (owed : (w.locals t).owes = 0) (silent : ∀ i, announces i (w.locals t) = 0) :
    Counted (base + 0) ⟨w.shared.addEdgeVisit childIdx, Function.update w.locals t (.announcing childIdx)⟩ := by
  refine counted.aside ?_ rfl rfl before rfl (by simp) ?_ ?_ ?_
  · show (w.shared.edgeVisits.modify childIdx (· + 1)).length ≤ _
    rw [List.length_modify]
    exact counted.capacity
  · intro i
    rw [edge_addEdgeVisit i inside]
    omega
  · intro i
    rw [edge_addEdgeVisit i inside, silent, announces]
    by_cases same : i = childIdx
    · rw [if_pos same, if_pos (by rw [same])]
    · rw [if_neg same, add_zero, add_zero]
      exact Nat.le_add_right _ _
  · rw [owed]
    show w.shared.visits + 1 + w.shared.edgeVisits.sum = w.shared.visits + 0 +
      (w.shared.edgeVisits.modify childIdx (· + 1)).sum + 0
    rw [sum_modify _ inside]
    omega

theorem waitingFor_same (locals : ι → Visitor) (t : ι) (same : ∀ i, announces i l = announces i (locals t)) :
    waitingFor (Function.update locals t l) = waitingFor locals := by
  funext i
  have moved := waitingFor_update locals t l i
  rw [same i] at moved
  omega

/-- A step of the thread that updates the statistics, which it goes on doing. -/
theorem Counted.updating (counted : Counted base w) {n : Int} (here : (w.locals t).completed = some n)
    (still : l'.updates = 1) (edges : s'.edgeVisits = w.shared.edgeVisits)
    (capacity : s'.childrenCapacity = w.shared.childrenCapacity) (counter : 0 < s'.dirtyCounter)
    (own : l'.Own s' (waitingFor w.locals))
    (visits : s'.visits + s'.dirtyCounter + l'.owes = w.shared.visits + w.shared.dirtyCounter + (w.locals t).owes) :
    Counted base ⟨s', Function.update w.locals t l'⟩ := by
  have before : (w.locals t).updates = 1 := by rw [updates, here]; rfl
  have silent (l : Visitor) (i : Nat) (busy : l.updates = 1) : announces i l = 0 := by
    cases l with
    | announcing => cases busy
    | _ => rfl
  have dirty : w.shared.dirtyCounter ≠ 0 := by
    intro clean
    have most := counted.one
    rw [if_pos clean] at most
    have none := Finset.sum_eq_zero_iff.mp most t (Finset.mem_univ t)
    omega
  have waits : waitingFor (Function.update w.locals t l') = waitingFor w.locals := by
    apply waitingFor_same
    intro i
    rw [silent l' i still, silent _ i before]
  have next : Counted (base + 0) ⟨s', Function.update w.locals t l'⟩ := by
    apply counted.next _ counter.le _ _ (.inl before) _ _
    · rw [edges, capacity]
      exact counted.capacity
    · rw [if_neg dirty, if_neg counter.ne', before, still]
    · rw [waits]
      exact own
    · intro clean
      omega
    · rw [edges]
      omega
  rwa [add_zero] at next

/-- A thread begins to do something at the node. -/
theorem Counted.begin {visit : Visit} (counted : Counted base w) (here : w.locals t = .idle)
    (begun : w.shared.begin visit = some (s', l')) :
    Counted (base + if visit = .leaf then 1 else 0) ⟨s', Function.update w.locals t l'⟩ := by
  have capacity := counted.capacity
  have before : (w.locals t).updates = 0 := by rw [here]; rfl
  have owed : (w.locals t).owes = 0 := by rw [here]; rfl
  have silent (i : Nat) : announces i (w.locals t) = 0 := by rw [here]; rfl
  cases visit with
  | grow larger =>
    obtain ⟨more, ⟨⟩⟩ := Option.ite_none_right_eq_some.mp begun
    refine counted.aside (capacity.trans more.le) rfl rfl before rfl (by simp) (fun _ => le_rfl) ?_ ?_
    · intro i
      rw [silent]
      rfl
    · rw [owed]
      simp [owes]
  | newChild =>
    obtain ⟨free, ⟨⟩⟩ := Option.ite_none_right_eq_some.mp begun
    refine counted.aside ?_ rfl rfl before rfl (by simp) (fun i => (edge_newChild i).ge) ?_ ?_
    · rw [List.length_append]
      exact free
    · intro i
      rw [silent, edge_newChild]
      rfl
    · rw [owed]
      simp [owes]
  | leaf =>
    cases begun
    refine counted.aside capacity rfl rfl before rfl (by simp) (fun _ => le_rfl) ?_ ?_
    · intro i
      rw [silent]
      rfl
    · rw [owed, if_pos rfl]
      simp only [owes]
      omega
  | descended childIdx =>
    obtain ⟨inside, ⟨⟩⟩ := Option.ite_none_right_eq_some.mp begun
    exact counted.descend inside before owed silent
  | catchUp childIdx childVisits =>
    obtain ⟨edgeVisits, -, ⟨⟩⟩ := Option.map_eq_some_iff.mp begun
    refine counted.aside capacity rfl rfl before rfl (by simp) (fun _ => le_rfl) ?_ ?_
    · intro i
      rw [silent]
      rfl
    · rw [owed]
      simp [owes]

/-- The visits that are still to be announced, once a thread has announced its own. -/
theorem Counted.announce (counted : Counted base w) (here : w.locals t = .announcing childIdx)
    (acted : w.shared.advance spurious (.announcing childIdx) = some (s', l')) :
    Counted base ⟨s', Function.update w.locals t l'⟩ := by
  have zero := counted.counter
  have before : (w.locals t).updates = 0 := by rw [here]; rfl
  simp only [advance, if_neg (not_lt.mpr zero)] at acted
  have later (l' : Visitor) (silent : ∀ i, announces i l' = 0) :
      Later w.shared (waitingFor w.locals) { w.shared with dirtyCounter := w.shared.dirtyCounter + 1 }
        (waitingFor (Function.update w.locals t l')) := by
    refine later_of_edges w.locals t rfl (Int.le.intro 1 rfl) (fun _ => le_rfl) ?_
    intro i
    rw [here, silent]
    show (w.shared.edge i : Int) + announces i (.announcing childIdx) + w.shared.dirtyCounter ≤
      w.shared.edge i + 0 + (w.shared.dirtyCounter + 1)
    rw [announces]
    split <;> omega
  have rest : w.shared.dirtyCounter + 1 ≠ 0 := by omega
  have next : Counted (base + 0) ⟨s', Function.update w.locals t l'⟩ := by
    by_cases busy : w.shared.dirtyCounter > 0
    · rw [if_pos busy] at acted
      cases acted
      refine counted.next counted.capacity (by show 0 ≤ w.shared.dirtyCounter + 1; omega) ?_ trivial
        (.inr (later .idle fun _ => rfl)) (fun clean => absurd clean rest) ?_
      · rw [before, if_neg busy.ne', if_neg rest]
        rfl
      · rw [here]
        simp only [owes]
        omega
    · rw [if_neg busy] at acted
      cases acted
      have clean : w.shared.dirtyCounter = 0 := by omega
      refine counted.next counted.capacity (by show 0 ≤ w.shared.dirtyCounter + 1; omega) ?_ ⟨by omega, ?_⟩
        (.inr (later _ fun _ => rfl)) (fun clean => absurd clean rest) ?_
      · rw [before, if_pos clean, if_neg rest]
        rfl
      · show 1 ≤ w.shared.dirtyCounter + 1
        omega
      · rw [here]
        simp only [owes]
        omega
  rwa [add_zero] at next

/-- The thread that updates the statistics gives the visits back that it has counted. -/
theorem Counted.undo {n : Int} (counted : Counted base w) (here : w.locals t = .undoing n)
    (acted : w.shared.advance spurious (.undoing n) = some (s', l')) :
    Counted base ⟨s', Function.update w.locals t l'⟩ := by
  have own := counted.own t
  rw [here] at own
  obtain ⟨⟨positive, most⟩, covers⟩ := own
  have before : (w.locals t).updates = 1 := by rw [here]; rfl
  have silent (i : Nat) : announces i (w.locals t) = 0 := by rw [here]; rfl
  have dirty : w.shared.dirtyCounter ≠ 0 := by omega
  simp only [advance] at acted
  by_cases done : w.shared.dirtyCounter - n ≤ 0
  · have clean : w.shared.dirtyCounter - n = 0 := by omega
    rw [if_pos done, if_pos clean] at acted
    cases acted
    have next : Counted (base + 0) ⟨{ w.shared with dirtyCounter := w.shared.dirtyCounter - n },
        Function.update w.locals t .idle⟩ := by
      refine counted.next counted.capacity clean.ge ?_ trivial (.inl before) ?_ ?_
      · rw [before, if_neg dirty, if_pos clean]
        rfl
      · intro _
        rw [waitingFor_same (l := .idle) w.locals t fun i => (silent i).symm, ← clean]
        exact covers
      · rw [here]
        simp only [owes]
        omega
    rwa [add_zero] at next
  · rw [if_neg done] at acted
    cases acted
    refine counted.updating (n := n) (by rw [here]; rfl) rfl rfl rfl (not_le.mp done) ⟨not_le.mp done, le_rfl⟩ ?_
    rw [here]
    simp only [owes]
    omega

theorem Counted.advance {spurious : Bool} (counted : Counted base w)
    (acted : w.shared.advance spurious (w.locals t) = some (s', l')) :
    Counted base ⟨s', Function.update w.locals t l'⟩ := by
  have capacity := counted.capacity
  have own := counted.own t
  cases here : w.locals t with
  | idle | failed =>
    rw [here] at acted
    cases acted
  | catchingUp childIdx childVisits edgeVisits =>
    have before : (w.locals t).updates = 0 := by rw [here]; rfl
    have owed : (w.locals t).owes = 0 := by rw [here]; rfl
    have silent (i : Nat) : announces i (w.locals t) = 0 := by rw [here]; rfl
    have unchanged (l' : Visitor) (passive : l'.updates = 0) (sound : l' ≠ .failed) (still : l'.owes = 0)
        (quiet : ∀ i, announces i l' = 0) : Counted (base + 0) ⟨w.shared, Function.update w.locals t l'⟩ := by
      refine counted.aside capacity rfl rfl before passive sound (fun _ => le_rfl) ?_ ?_
      · intro i
        rw [silent, quiet]
      · rw [owed, still, add_zero, add_zero]
    rw [← add_zero base]
    rw [here] at acted
    simp only [NodeVisits.advance] at acted
    split at acted
    · cases acted
      exact unchanged .idle rfl (by simp) rfl fun _ => rfl
    · split at acted
      · next exchanged =>
        cases acted
        exact counted.descend (List.getElem?_eq_some_iff.mp exchanged.1).1 before owed silent
      · obtain ⟨_, -, ⟨⟩⟩ := Option.map_eq_some_iff.mp acted
        exact unchanged _ rfl (by simp) rfl fun _ => rfl
  | announcing childIdx =>
    rw [here] at acted
    exact counted.announce here acted
  | starting n =>
    rw [here] at acted own
    cases acted
    refine counted.updating (n := n) (by rw [here]; rfl) rfl rfl rfl (own.1.trans_le own.2) ⟨own, ?_⟩
      (by rw [here]; rfl)
    -- There is no child yet that the array has no room for.
    intro i unread
    have absent : w.shared.edge i = 0 := edge_of_le (capacity.trans (unread.resolve_left (Nat.not_lt_zero i)))
    have most := own.2
    rw [absent, List.getD_nil]
    omega
  | recomputing n childrenCapacity seen =>
    rw [here] at acted own
    obtain ⟨claimed, covers⟩ := own
    have positive := claimed.1.trans_le claimed.2
    simp only [NodeVisits.advance] at acted
    split at acted
    · split at acted
      · next edgeVisits found =>
        cases acted
        refine counted.updating (n := n) (by rw [here]; rfl) rfl rfl rfl positive ⟨claimed, ?_⟩ (by rw [here]; rfl)
        exact covers.read found claimed.2
      · next none =>
        cases acted
        refine counted.updating (n := n) (by rw [here]; rfl) rfl rfl rfl positive ⟨claimed, ?_⟩ (by rw [here]; rfl)
        exact covers.all (fun i unread => edge_of_le ((List.getElem?_eq_none_iff.mp none).trans unread))
          (fun _ => .inl) claimed.2
    · next full =>
      cases acted
      refine counted.updating (n := n) (by rw [here]; rfl) rfl rfl rfl positive ⟨claimed, ?_⟩ (by rw [here]; rfl)
      intro i _
      exact covers i (by omega)
  | storing n seen =>
    rw [here] at acted own
    cases acted
    refine counted.updating (n := n) (by rw [here]; rfl) rfl rfl rfl (own.1.1.trans_le own.1.2) own ?_
    rw [here]
    simp only [owes]
    omega
  | undoing n =>
    rw [here] at acted
    exact counted.undo here acted

/-- How often the node itself is visited as a leaf. -/
def leafVisits (schedule : List (ι × VisitChoice)) : Nat := schedule.countP fun event => event.2 = .start .leaf

theorem Counted.step (counted : Counted base w) (taken : Threads.step NodeVisits.act w event = some w') :
    Counted (base + leafVisits [event]) w' := by
  obtain ⟨s', l', acted, rfl⟩ := Threads.step_eq_some.mp taken
  obtain ⟨t, choice⟩ := event
  have goesOn (spurious : Bool) (acted : w.shared.advance spurious (w.locals t) = some (s', l'))
    (other : choice ≠ .start .leaf) :
      Counted (base + leafVisits [(t, choice)]) ⟨s', Function.update w.locals t l'⟩ := by
    have none : leafVisits [(t, choice)] = 0 := by simp [leafVisits, other]
    rw [none, Nat.cast_zero, add_zero]
    exact counted.advance acted
  cases choice with
  | start visit =>
    obtain ⟨here, begun⟩ := Option.ite_none_right_eq_some.mp acted
    have leaves : (leafVisits [(t, VisitChoice.start visit)] : Int) = if visit = .leaf then 1 else 0 := by
      cases visit <;> rfl
    rw [leaves]
    exact counted.begin here begun
  | go => exact goesOn false acted (by simp)
  | spurious => exact goesOn true acted (by simp)

theorem Counted.run {schedule : List (ι × VisitChoice)} (counted : Counted base w)
    (ran : Threads.run NodeVisits.act w schedule = some w') : Counted (base + leafVisits schedule) w' := by
  induction schedule generalizing w base with
  | nil =>
    cases ran
    rw [leafVisits, List.countP_nil, Nat.cast_zero, add_zero]
    exact counted
  | cons event schedule ih =>
    obtain ⟨w₁, first, rest⟩ := Option.bind_eq_some_iff.mp ran
    have whole : base + leafVisits [event] + leafVisits schedule = base + leafVisits (event :: schedule) := by
      rw [add_assoc, ← Nat.cast_add, leafVisits, leafVisits, ← List.countP_append]
      rfl
    rw [← whole]
    exact ih (counted.step first) rest

/-- No thread is in the middle of a visit, and the statistics have seen all visits of the edges. -/
structure AtRest (w : Threads ι NodeVisits Visitor) : Prop where
  idle : ∀ t, w.locals t = .idle
  capacity : w.shared.edgeVisits.length ≤ w.shared.childrenCapacity
  clean : w.shared.dirtyCounter = 0
  seen : ∀ i, w.shared.counted.getD i 0 = w.shared.edge i

omit [DecidableEq ι] in
theorem AtRest.counted (start : AtRest w) : Counted (w.shared.visits - w.shared.edgeVisits.sum) w where
  capacity := start.capacity
  counter := start.clean.ge
  one := by
    rw [if_pos start.clean]
    exact Finset.sum_eq_zero fun t _ => by rw [start.idle t]; rfl
  own t := by
    rw [start.idle t]
    trivial
  rest _ i _ := by
    rw [start.seen i]
    omega
  visits := by
    have none : ∑ t, (w.locals t).owes = 0 := Finset.sum_eq_zero fun t _ => by rw [start.idle t]; rfl
    rw [none, start.clean]
    omega

omit [DecidableEq ι] in
theorem Counted.atRest (counted : Counted base w) (idle : ∀ t, w.locals t = .idle) :
    AtRest w ∧ w.shared.visits = base + w.shared.edgeVisits.sum := by
  have free : ∑ t, (w.locals t).updates = 0 := Finset.sum_eq_zero fun t _ => by rw [idle t]; rfl
  have none : ∑ t, (w.locals t).owes = 0 := Finset.sum_eq_zero fun t _ => by rw [idle t]; rfl
  have silent (i : Nat) : waitingFor w.locals i = 0 := Finset.sum_eq_zero fun t _ => by rw [idle t]; rfl
  have clean : w.shared.dirtyCounter = 0 := by
    by_contra dirty
    have one := counted.one
    rw [if_neg dirty, free] at one
    cases one
  refine ⟨⟨idle, counted.capacity, clean, ?_⟩, ?_⟩
  · intro i
    have covers := counted.rest clean i trivial
    rw [silent] at covers
    omega
  · have visits := counted.visits
    rw [none, clean] at visits
    omega

/-- At most one thread at a time recomputes the statistics, and no assertion fails. -/
theorem updateStatsAfterPlayout_one {schedule : List (ι × VisitChoice)} (start : AtRest w)
    (ran : Threads.run NodeVisits.act w schedule = some w') :
    (∀ t, w'.locals t ≠ .failed) ∧ 0 ≤ w'.shared.dirtyCounter ∧
      ∀ t u n m, (w'.locals t).completed = some n → (w'.locals u).completed = some m → t = u ∧ 0 < n ∧
      n ≤ w'.shared.dirtyCounter := by
  have counted := start.counted.run ran
  refine ⟨?_, counted.counter, ?_⟩
  · intro t failed
    have own := counted.own t
    rw [failed] at own
    exact own
  · intro t u n m here there
    have own := counted.own t
    have most : ∑ t, (w'.locals t).updates ≤ 1 := by
      rw [counted.one]
      split <;> omega
    refine ⟨?_, ?_⟩
    · by_contra other
      have none := Threads.others_none (p := updates) most (t := t) (by rw [updates, here]; rfl) (Ne.symm other)
      rw [updates, there] at none
      cases none
    · cases phase : w'.locals t with
      | idle | catchingUp | announcing | failed =>
        rw [phase] at here
        cases here
      | starting =>
        rw [phase] at here own
        cases here
        exact own
      | recomputing | storing | undoing =>
        rw [phase] at here own
        cases here
        exact own.1

/-- Whatever the threads do at once, in the end each visit of an edge or of the node as a leaf was counted once. -/
theorem updateStatsAfterPlayout_conserves {schedule : List (ι × VisitChoice)} (start : AtRest w)
    (ran : Threads.run NodeVisits.act w schedule = some w') (ended : ∀ t, w'.locals t = .idle) :
    AtRest w' ∧ w'.shared.visits + w.shared.edgeVisits.sum =
      w.shared.visits + w'.shared.edgeVisits.sum + leafVisits schedule := by
  have rest := (start.counted.run ran).atRest ended
  refine ⟨rest.1, ?_⟩
  have visits := rest.2
  omega

end Runs

/-- A node with two children that have had four visits. -/
def visitedNode : Threads Bool NodeVisits Visitor := ⟨⟨8, [3, 1], 0, 5, [3, 1]⟩, fun _ => .idle⟩

theorem visitedNode_atRest : AtRest visitedNode := ⟨fun _ => rfl, by decide, rfl, fun _ => rfl⟩

/-- The second thread announces its visit while the first one recomputes the statistics, so that this does it again. -/
def visitedSchedule : List (Bool × VisitChoice) :=
  [(false, .start (.descended 0)), (true, .start (.catchUp 1 4)), (true, .spurious), (true, .go), (false, .go),
    (true, .go)] ++
    List.replicate 12 (false, .go) ++ [(true, .start .leaf)]

theorem updateStatsAfterPlayout_one_visited : ∃ w,
    Threads.run NodeVisits.act visitedNode (visitedSchedule.take 9) = some w ∧
    (∀ t, w.locals t ≠ .failed) ∧ 0 ≤ w.shared.dirtyCounter := by
  obtain ⟨w, ran⟩ := Option.isSome_iff_exists.mp
    (by decide +kernel : (Threads.run NodeVisits.act visitedNode (visitedSchedule.take 9)).isSome = true)
  have one := updateStatsAfterPlayout_one visitedNode_atRest ran
  exact ⟨w, ran, one.1, one.2.1⟩

theorem updateStatsAfterPlayout_conserves_visited : ∃ w,
    Threads.run NodeVisits.act visitedNode visitedSchedule = some w ∧ AtRest w ∧
    w.shared.visits + 4 = 5 + w.shared.edgeVisits.sum + 1 := by
  have check : (Threads.run NodeVisits.act visitedNode visitedSchedule).map (fun w =>
      [false, true].all fun t => w.locals t = .idle) = some true := by decide +kernel
  obtain ⟨w, ran, ended⟩ := Option.map_eq_some_iff.mp check
  exact ⟨w, ran, updateStatsAfterPlayout_conserves visitedNode_atRest ran fun t =>
    of_decide_eq_true (List.all_eq_true.mp ended t (by cases t <;> simp))⟩

end KataGo.Search
