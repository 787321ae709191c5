import KataGo.Search.PlayoutSteps

/-! The invariant survives a step in each phase of a playout. -/

namespace KataGo.Search
open KataGo.Lib SearchChildrenSizes Playout PlayoutPhase
open Threads (forall_update)

variable {ι ν : Type} [Fintype ι] [DecidableEq ν] {settings : PlayoutSettings} {base : ν → Int}
  {kids : ν → List (ν × Nat)} {w w' : Threads ι (SearchTree ι ν) (Playout ν)} {s' : SearchTree ι ν}
  {l' : Playout ν} {t : ι}
  {choice : PlayoutChoice ν} {nodeState : SearchNodeState} {found : List Nat} {childIdx move : Nat} {child : ν}

theorem prefix_concat {α : Type} {first all : List α} {a : α} (start : first <+: all)
    (next : all[first.length]? = some a) :
    first ++ [a] <+: all := by
  obtain ⟨rest, rfl⟩ := start
  rw [List.getElem?_append_right (Nat.le_refl _), Nat.sub_self] at next
  cases rest with
  | nil => cases next
  | cons b rest =>
    cases next
    exact ⟨rest, by simp⟩

namespace Sound

/-- The node that a thread is at. -/
theorem here (sound : Sound settings base kids w) (t : ι) :
    (w.shared.nodes (w.locals t).node).Shaped settings.policySize settings.needsHumanOutputInTree
      (kids (w.locals t).node) :=
  sound.shaped _ (sound.own t).alive

/-- What a thread knows in its phase. -/
theorem knows {phase : PlayoutPhase ν} (sound : Sound settings base kids w) (at_ : (w.locals t).phase = phase) :
    phase.Knows settings (w.shared.nodes (w.locals t).node) (kids (w.locals t).node) w.shared.table :=
  at_ ▸ (sound.own t).knows

/-- A child that the thread knows is in its slot. -/
theorem slot_of_kid (sound : Sound settings base kids w)
    (kid : (kids (w.locals t).node)[childIdx]? = some (child, move)) :
    (w.shared.nodes (w.locals t).node).slot childIdx = some ⟨some child, move⟩ := by
  have view := (sound.here t).view childIdx
  rw [kid, SearchNode.view] at view
  obtain ⟨⟨data, movePos⟩, found, seen⟩ := Option.bind_eq_some_iff.mp view
  obtain ⟨stored, there, same⟩ := Option.map_eq_some_iff.mp seen
  cases same
  cases there
  exact found

/-- Behind the last child, a slot is empty. -/
theorem kid_of_slot (sound : Sound settings base kids w) {p : SearchChildPointer ν}
    (slot : (w.shared.nodes (w.locals t).node).slot childIdx = some p) :
    p.data.isSome = true ↔ childIdx < (kids (w.locals t).node).length := by
  have view := (sound.here t).view childIdx
  rw [SearchNode.view, slot, Option.bind_some, SearchChildPointer.view] at view
  have same := congrArg Option.isSome view
  rw [Option.isSome_map] at same
  rw [same]
  simp

/-- The thread whose node waits for it finds the state that it left. -/
theorem sole_at {phase : PlayoutPhase ν} (sound : Sound settings base kids w) (at_ : (w.locals t).phase = phase) :
    phase.Sole (w.shared.nodes (w.locals t).node) := at_ ▸ (sound.own t).sole

theorem held_at {phase : PlayoutPhase ν} (sound : Sound settings base kids w) (at_ : (w.locals t).phase = phase) :
    phase.Held (w.shared.nodes (w.locals t).node) (kids (w.locals t).node) := at_ ▸ (sound.own t).held

theorem kids_here (sound : Sound settings base kids w) (t : ι) :
    ∀ kid ∈ kids (w.locals t).node, kid.1 ∈ w.shared.table :=
  sound.members _ (sound.own t).alive

/-- A slot that the arrays have. -/
theorem slot_here (sound : Sound settings base kids w)
    (inside : childIdx < getChildrenCapacity (w.shared.nodes (w.locals t).node).state) :
    ∃ p, (w.shared.nodes (w.locals t).node).slot childIdx = some p := (sound.here t).slot inside (Nat.le_refl _)

variable [DecidableEq ι]

section Outputs

/-- The first thread that has a network output stores it. -/
theorem storeHuman (sound : Sound settings base kids w) (at_ : (w.locals t).phase = .storingHuman)
    (acted : act settings t choice w.shared (w.locals t) = some (s', l')) :
    Next settings base kids w ⟨s', Function.update w.locals t l'⟩ := by
  simp only [act, at_] at acted
  cases acted
  refine sound.changeTo ⟨Nat.le_refl _, id, fun _ => rfl, List.prefix_rfl, rfl⟩ (sound.here t).setHuman
    (sound.kids_here t)
    (fun _ => rfl) ⟨trivial, trivial⟩ (.inl ⟨rfl, fun _ => rfl⟩) (.inr ⟨rfl, fun _ _ => id⟩)
    (iff_of_false id (at_ ▸ id))
    (fun alone => alone.elim) (fun pending => .inr ⟨pending, at_ ▸ id⟩) (by rw [at_]; rfl) (by simp)

theorem storeNN (sound : Sound settings base kids w) (at_ : (w.locals t).phase = .storingNN)
    (acted : act settings t choice w.shared (w.locals t) = some (s', l')) :
    Next settings base kids w ⟨s', Function.update w.locals t l'⟩ := by
  have shaped := sound.here t
  simp only [act, at_] at acted
  by_cases stored : (w.shared.nodes (w.locals t).node).nnOutput = true
  · rw [if_pos stored] at acted
    cases acted
    exact sound.leaves (at_ ▸ ⟨id, id, rfl⟩)
  · rw [if_neg stored] at acted
    cases acted
    have state : (w.shared.nodes (w.locals t).node).state = .unevaluated := by
      have early : ¬1 ≤ (w.shared.nodes (w.locals t).node).state.toNat := fun late => stored (shaped.evaluated late)
      cases state : (w.shared.nodes (w.locals t).node).state <;> simp [state, SearchNodeState.toNat] at early ⊢
    have rests : ¬(w.shared.nodes (w.locals t).node).Pending := by
      rintro (⟨-, there⟩ | ⟨a, growing⟩)
      · exact stored there
      · rw [state] at growing
        cases a <;> cases growing
    exact sound.changeTo ⟨Nat.le_refl _, fun _ => rfl, id, List.prefix_rfl, rfl⟩ (shaped.setNN (sound.knows at_))
      (sound.kids_here t)
      rfl ⟨state, trivial⟩ (.inl ⟨rfl, fun _ => rfl⟩) (.inr ⟨rfl, fun _ _ => id⟩) (iff_of_false id (at_ ▸ id))
      (fun _ => .inr rests) (fun _ => .inl trivial) (by rw [at_]; rfl) (by simp)

theorem renewHuman {next : Option SearchNodeState} (sound : Sound settings base kids w)
    (at_ : (w.locals t).phase = .renewingHuman next)
    (acted : act settings t choice w.shared (w.locals t) = some (s', l')) :
    Next settings base kids w ⟨s', Function.update w.locals t l'⟩ := by
  simp only [act, at_] at acted
  cases acted
  exact sound.changeTo ⟨Nat.le_refl _, id, fun _ => rfl, List.prefix_rfl, rfl⟩ (sound.here t).setHuman
    (sound.kids_here t)
    ⟨fun _ => rfl, sound.knows at_⟩ ⟨trivial, trivial⟩ (.inl ⟨rfl, fun _ => rfl⟩) (.inr ⟨rfl, fun _ _ => id⟩)
    (iff_of_false id (at_ ▸ id)) (fun alone => alone.elim) (fun pending => .inr ⟨pending, at_ ▸ id⟩) (by rw [at_]; rfl)
    (by simp)

theorem renewNN {next : Option SearchNodeState} (sound : Sound settings base kids w)
    (at_ : (w.locals t).phase = .renewingNN next)
    (acted : act settings t choice w.shared (w.locals t) = some (s', l')) :
    Next settings base kids w ⟨s', Function.update w.locals t l'⟩ := by
  have knows := sound.knows at_
  have later : (w.shared.nodes (w.locals t).node).Later (kids (w.locals t).node)
      { w.shared.nodes (w.locals t).node with nnOutput := true } (kids (w.locals t).node) :=
    ⟨Nat.le_refl _, fun _ => rfl, id, List.prefix_rfl, rfl⟩
  have pending : { w.shared.nodes (w.locals t).node with nnOutput := true }.Pending →
      (w.shared.nodes (w.locals t).node).Pending := by
    rintro (⟨new, -⟩ | growing)
    · have early : 2 ≤ (w.shared.nodes (w.locals t).node).state.toNat := knows.2.1
      rw [show (w.shared.nodes (w.locals t).node).state = .unevaluated from new] at early
      exact absurd early (by decide)
    · exact .inr growing
  cases next with
  | none =>
    simp only [act, at_] at acted
    cases acted
    exact sound.changeLast later ((sound.here t).setNN knows.1) (.inl ⟨rfl, fun _ => rfl⟩) (fun _ _ => id) (at_ ▸ id)
      (fun waits => ⟨pending waits, at_ ▸ id⟩) (by rw [at_]; rfl)
  | some nodeState =>
    simp only [act, at_] at acted
    cases acted
    exact sound.changeTo later ((sound.here t).setNN knows.1) (sound.kids_here t)
      ⟨knows.2.2 nodeState rfl, List.nil_prefix, Nat.zero_le _⟩ ⟨trivial, trivial⟩ (.inl ⟨rfl, fun _ => rfl⟩)
      (.inr ⟨rfl, fun _ _ => id⟩) (iff_of_false id (at_ ▸ id)) (fun alone => alone.elim)
      (fun waits => .inr ⟨pending waits, at_ ▸ id⟩) (by rw [at_]; rfl) (by simp)

end Outputs

section Growing

theorem claim (sound : Sound settings base kids w) (at_ : (w.locals t).phase = .claiming)
    (acted : act settings t choice w.shared (w.locals t) = some (s', l')) :
    Next settings base kids w ⟨s', Function.update w.locals t l'⟩ := by
  have state : (w.shared.nodes (w.locals t).node).state = .unevaluated := sound.sole_at at_
  have nnOutput := sound.knows at_
  have shaped := sound.here t
  simp only [act, at_, if_pos state] at acted
  cases acted
  refine sound.changeTo ?_ (shaped.begin (a := .children0) state nnOutput (Nat.zero_le _)) (sound.kids_here t)
    ⟨nnOutput, fun _ _ none => by cases none⟩ ⟨⟨rfl, ?_⟩, trivial⟩ (.inr (.inl (at_ ▸ trivial)))
    (.inr ⟨rfl, fun _ _ => id⟩)
    (iff_of_false id (at_ ▸ id)) (fun _ => .inl (at_ ▸ trivial)) (fun _ => .inl trivial) (by rw [at_]; rfl) (by simp)
  · exact ⟨by rw [state]; exact Nat.zero_le _, id, id, List.prefix_rfl, rfl⟩
  · exact shaped.absent .children0 (by rw [state]; decide)

theorem allocate {a : ChildArray} {next : Option (Nat × Nat)} (sound : Sound settings base kids w)
    (at_ : (w.locals t).phase = .allocating a next)
    (acted : act settings t choice w.shared (w.locals t) = some (s', l')) :
    Next settings base kids w ⟨s', Function.update w.locals t l'⟩ := by
  obtain ⟨state, absent⟩ := sound.sole_at at_
  have missing : ¬((w.shared.nodes (w.locals t).node).children a).isSome = true := by
    rw [absent]
    exact Bool.false_ne_true
  simp only [act, at_, if_neg missing] at acted
  cases acted
  exact sound.changeTo ⟨Nat.le_refl _, id, id, List.prefix_rfl, rfl⟩ ((sound.here t).allocate state absent)
    (sound.kids_here t)
    (sound.knows at_) ⟨⟨state, SearchNode.isSome_allocate⟩, trivial⟩ (.inr (.inl (at_ ▸ trivial)))
    (.inr ⟨rfl, fun _ _ => SearchNode.slot_allocate absent⟩) (iff_of_false id (at_ ▸ id))
    (fun _ => .inl (at_ ▸ trivial))
    (fun _ => .inl trivial) (by rw [at_]; rfl) (by simp)

theorem publish {a : ChildArray} {next : Option (Nat × Nat)} (sound : Sound settings base kids w)
    (at_ : (w.locals t).phase = .publishing a next)
    (acted : act settings t choice w.shared (w.locals t) = some (s', l')) :
    Next settings base kids w ⟨s', Function.update w.locals t l'⟩ := by
  obtain ⟨state, there⟩ := sound.sole_at at_
  have knows := sound.knows at_
  have later : (w.shared.nodes (w.locals t).node).Later (kids (w.locals t).node)
      { w.shared.nodes (w.locals t).node with state := a.done } (kids (w.locals t).node) :=
    ⟨by rw [state]; exact a.growing_le_done, id, id, List.prefix_rfl, rfl⟩
  have rests : ¬{ w.shared.nodes (w.locals t).node with state := a.done }.Pending := SearchNode.not_pending_of_done rfl
  cases next with
  | none =>
    simp only [act, at_] at acted
    cases acted
    exact sound.changeLast later ((sound.here t).publish state there) (.inr (at_ ▸ trivial)) (fun _ _ => id) (at_ ▸ id)
      (fun waits => absurd waits rests) (by rw [at_]; rfl)
  | some place =>
    obtain ⟨childIdx, move⟩ := place
    obtain ⟨rfl, room⟩ := knows.2 childIdx move rfl
    simp only [act, at_] at acted
    cases acted
    exact sound.changeTo later ((sound.here t).publish state there) (sound.kids_here t)
      ⟨Nat.le_refl _, ChildArray.start_lt_capacity a, room⟩ ⟨trivial, trivial⟩ (.inr (.inl (at_ ▸ trivial)))
      (.inr ⟨rfl, fun _ _ => id⟩) (iff_of_false id (at_ ▸ id)) (fun alone => alone.elim)
      (fun waits => absurd waits rests)
      (by rw [at_]; rfl) (by simp)

/-- A thread that finds the arrays full grows them, or yields to the thread that does so. -/
theorem expand (sound : Sound settings base kids w) (at_ : (w.locals t).phase = .expanding nodeState childIdx move)
    (acted : act settings t choice w.shared (w.locals t) = some (s', l')) :
    Next settings base kids w ⟨s', Function.update w.locals t l'⟩ := by
  obtain ⟨read, most, room⟩ := sound.knows at_
  have shaped := sound.here t
  have few : ¬maxNNPolicySize ≤ childIdx :=
    Nat.not_le.mpr ((room.lt shaped.moves shaped.small).trans_le settings.fits)
  simp only [act, at_, if_neg few] at acted
  by_cases inside : childIdx < getChildrenCapacity nodeState
  · rw [if_pos inside] at acted
    cases acted
    exact sound.looks (at_ ▸ ⟨id, id, rfl⟩) ⟨id, id, rfl⟩ ⟨read.2, inside, room⟩ (by simp)
  · have full : getChildrenCapacity nodeState = childIdx := Nat.le_antisymm (Nat.le_of_not_lt inside) most
    rw [if_neg inside, if_neg (not_not.mpr full)] at acted
    have tried := Option.some.inj acted
    have again : Next settings base kids w ⟨w.shared, Function.update w.locals t ((w.locals t).goTo .yielding)⟩ :=
      sound.looks (at_ ▸ ⟨id, id, rfl⟩) ⟨id, id, rfl⟩ (read.1.trans read.2) (by simp)
    have grow {a : ChildArray} (before : nodeState = a.before) (start : a.start = childIdx) :
        (w.shared.nodes (w.locals t).node).state = nodeState →
        Next settings base kids w ⟨w.shared.setNode (w.locals t).node
          { w.shared.nodes (w.locals t).node with state := a.growing },
          Function.update w.locals t ((w.locals t).goTo (.allocating a (some (childIdx, move))))⟩ := by
      intro state
      have older := state.trans before
      have rests : ¬(w.shared.nodes (w.locals t).node).Pending := by
        rintro (⟨new, -⟩ | ⟨b, growing⟩)
        · have early := read.2
          rw [new] at early
          exact absurd (read.1.trans early) (by decide)
        · rw [older] at growing
          cases a <;> cases b <;> cases growing
      have evaluated := shaped.evaluated ((Nat.le_of_lt read.1).trans read.2)
      refine sound.changeTo ?_ (shaped.begin older evaluated (start ▸ room.le)) (sound.kids_here t)
        ⟨evaluated, ?_⟩ ⟨⟨rfl, shaped.absent a ?_⟩, trivial⟩ (.inr (.inr rests)) (.inr ⟨rfl, fun _ _ => id⟩)
        (iff_of_false id (at_ ▸ id)) (fun _ => .inr rests) (fun _ => .inl trivial) (by rw [at_]; rfl) (by simp)
      · exact ⟨by rw [older]; exact Nat.le_of_lt a.before_lt_growing, id, id, List.prefix_rfl, rfl⟩
      · intro i m same
        cases same
        exact ⟨start.symm, room⟩
      · rw [older]
        exact a.before_lt_growing
    have exchange {a : ChildArray} (before : nodeState = a.before) (start : a.start = childIdx)
        (tried : (if (w.shared.nodes (w.locals t).node).state = nodeState then
            (w.shared.setNode (w.locals t).node { w.shared.nodes (w.locals t).node with state := a.growing },
              (w.locals t).goTo (.allocating a (some (childIdx, move))))
          else (w.shared, (w.locals t).goTo .yielding)) = (s', l')) :
        Next settings base kids w ⟨s', Function.update w.locals t l'⟩ := by
      split at tried
      · next state =>
        cases tried
        exact grow before start state
      · cases tried
        exact again
    cases nodeState with
    | unevaluated | evaluating => exact absurd read.1 (by decide)
    | expanded0 => exact exchange (a := .children1) rfl full tried
    | expanded1 => exact exchange (a := .children2) rfl full tried
    | growing1 | growing2 =>
      cases tried
      exact again
    | expanded2 => exact absurd full.le (Nat.not_le.mpr (Nat.lt_of_not_le few))

/-- The thread reads the state of the node anew. -/
theorem reload (sound : Sound settings base kids w) (at_ : (w.locals t).phase = .yielding)
    (acted : act settings t choice w.shared (w.locals t) = some (s', l')) :
    Next settings base kids w ⟨s', Function.update w.locals t l'⟩ := by
  have late := sound.knows at_
  simp only [act, at_] at acted
  cases acted
  exact sound.looks (at_ ▸ ⟨id, id, rfl⟩) ⟨id, id, rfl⟩
    ⟨⟨late, Nat.le_refl _⟩, List.nil_prefix, Nat.zero_le _⟩ (by simp)

end Growing

section Looking

/-- A thread begins a call. -/
theorem enter (sound : Sound settings base kids w) (at_ : (w.locals t).phase = .entering)
    (acted : act settings t choice w.shared (w.locals t) = some (s', l')) :
    Next settings base kids w ⟨s', Function.update w.locals t l'⟩ := by
  have free : (w.locals t).phase.Free := at_ ▸ ⟨id, id, rfl⟩
  simp only [act, at_] at acted
  split at acted
  · cases acted
    exact sound.leaves free
  · split at acted
    · cases acted
      split
      · exact sound.looks free ⟨id, id, rfl⟩ trivial (by simp)
      · next none => exact sound.looks free ⟨id, id, rfl⟩ (fun needs => absurd (by simp [needs]) none) (by simp)
    · next evaluated =>
      split at acted
      · cases acted
        exact sound.leaves free
      · next expanded =>
        have late : 2 ≤ (w.shared.nodes (w.locals t).node).state.toNat := by
          cases state : (w.shared.nodes (w.locals t).node).state <;>
            simp [state, SearchNodeState.toNat] at evaluated expanded ⊢
        have read : Read (w.shared.nodes (w.locals t).node) (w.shared.nodes (w.locals t).node).state :=
          ⟨late, Nat.le_refl _⟩
        split at acted
        · cases acted
          split
          · exact sound.looks free ⟨id, id, rfl⟩ ⟨late, fun _ same => Option.some.inj same ▸ read⟩ (by simp)
          · next none =>
            exact sound.looks free ⟨id, id, rfl⟩ ⟨fun needs => absurd (by simp [needs]) none, late,
              fun _ same => Option.some.inj same ▸ read⟩ (by simp)
        · cases acted
          exact sound.looks free ⟨id, id, rfl⟩ ⟨read, List.nil_prefix, Nat.zero_le _⟩ (by simp)

theorem count (sound : Sound settings base kids w) (at_ : (w.locals t).phase = .counting nodeState found)
    (acted : act settings t choice w.shared (w.locals t) = some (s', l')) :
    Next settings base kids w ⟨s', Function.update w.locals t l'⟩ := by
  obtain ⟨read, seen⟩ := sound.knows at_
  have shaped := sound.here t
  have evaluated := shaped.evaluated ((Nat.le_of_lt read.1).trans read.2)
  have free : (w.locals t).phase.Free := at_ ▸ ⟨id, id, rfl⟩
  simp only [act, at_, evaluated, Bool.not_true, Bool.false_eq_true, if_false] at acted
  split at acted
  · cases acted
    exact sound.looks free ⟨id, id, rfl⟩ ⟨read, seen⟩ (by simp)
  · next inside =>
    obtain ⟨p, slot⟩ := shaped.slot (Nat.lt_of_not_le inside) read.2
    rw [slot] at acted
    cases acted
    split
    · next stored =>
      exact sound.looks free ⟨id, id, rfl⟩ ⟨read, seen, (sound.kid_of_slot slot).mp stored, Nat.lt_of_not_le inside⟩
        (by simp)
    · exact sound.looks free ⟨id, id, rfl⟩ ⟨read, seen⟩ (by simp)

theorem readMove (sound : Sound settings base kids w) (at_ : (w.locals t).phase = .reading nodeState found)
    (acted : act settings t choice w.shared (w.locals t) = some (s', l')) :
    Next settings base kids w ⟨s', Function.update w.locals t l'⟩ := by
  obtain ⟨read, seen, stored, inside⟩ := sound.knows at_
  have kid := List.getElem?_eq_getElem stored
  have slot := sound.slot_of_kid kid
  simp only [act, at_, slot] at acted
  cases acted
  refine sound.looks (at_ ▸ ⟨id, id, rfl⟩) ⟨id, id, rfl⟩ ⟨read, prefix_concat seen.1 ?_, ?_⟩ (by simp)
  · rw [List.getElem?_map, kid]
    rfl
  · rw [List.length_append]
    exact inside

theorem select (sound : Sound settings base kids w) (at_ : (w.locals t).phase = .selecting nodeState found)
    (acted : act settings t choice w.shared (w.locals t) = some (s', l')) :
    Next settings base kids w ⟨s', Function.update w.locals t l'⟩ := by
  obtain ⟨read, seen⟩ := sound.knows at_
  have shaped := sound.here t
  have late := read.1.trans read.2
  have length : found.length ≤ (kids (w.locals t).node).length := by
    simpa using seen.1.length_le
  have free : (w.locals t).phase.Free := at_ ▸ ⟨id, id, rfl⟩
  cases choice with
  | go | allocate =>
    simp only [act, at_] at acted
    cases acted
  | giveUp =>
    simp only [act, at_] at acted
    cases acted
    exact sound.leaves (at_ ▸ ⟨id, id, rfl⟩)
  | renew =>
    simp only [act, at_] at acted
    cases acted
    split
    · exact sound.looks free ⟨id, id, rfl⟩ ⟨late, fun _ none => by cases none⟩ (by simp)
    · have evaluated := shaped.evaluated ((Nat.le_of_lt read.1).trans read.2)
      exact sound.looks free ⟨id, id, rfl⟩
        ⟨fun needs => shaped.human needs evaluated, late, fun _ none => by cases none⟩ (by simp)
  | explore childIdx =>
    simp only [act, at_] at acted
    obtain ⟨inside, same⟩ := Option.ite_none_right_eq_some.mp acted
    cases same
    exact sound.looks free ⟨id, id, rfl⟩ (inside.trans_le length) (by simp)
  | expand move =>
    simp only [act, at_] at acted
    obtain ⟨⟨small, new⟩, same⟩ := Option.ite_none_right_eq_some.mp acted
    cases same
    refine sound.looks free ⟨id, id, rfl⟩ ⟨read, seen.2, length, small, ?_⟩ (by simp)
    rw [List.map_take, ← List.prefix_iff_eq_take.mp seen.1]
    exact new

theorem find (sound : Sound settings base kids w) (at_ : (w.locals t).phase = .finding childIdx)
    (acted : act settings t choice w.shared (w.locals t) = some (s', l')) :
    Next settings base kids w ⟨s', Function.update w.locals t l'⟩ := by
  have kid := List.getElem?_eq_getElem (sound.knows at_)
  have slot := sound.slot_of_kid kid
  simp only [act, at_, slot, Option.bind_some] at acted
  cases acted
  exact sound.looks (at_ ▸ ⟨id, id, rfl⟩) ⟨id, id, rfl⟩ ⟨_, kid⟩ (by simp)

theorem return_ (sound : Sound settings base kids w) (at_ : (w.locals t).phase = .returned childIdx child)
    (acted : act settings t choice w.shared (w.locals t) = some (s', l')) :
    Next settings base kids w ⟨s', Function.update w.locals t l'⟩ := by
  obtain ⟨move, kid⟩ := sound.knows at_
  simp only [act, at_, sound.slot_of_kid kid] at acted
  cases acted
  exact sound.goOn trivial trivial (at_ ▸ id) id (iff_of_false id (at_ ▸ id)) (by rw [at_]; rfl) (by simp)

end Looking

section Losses

omit [Fintype ι] [DecidableEq ι] in
theorem losses_raised (v : ν → Int) (child x : ν) (n : Int) :
    Function.update v child (v child + 1) x + (n + 0) = v x + (n + if some child = some x then 1 else 0) := by
  by_cases same : x = child
  · rw [same, Function.update_self, if_pos rfl]
    omega
  · rw [Function.update_of_ne same, if_neg fun other => same (Option.some.inj other).symm]

omit [Fintype ι] [DecidableEq ι] in
theorem losses_lowered (v : ν → Int) (child x : ν) (n : Int) :
    Function.update v child (v child + -1) x + (n + if some child = some x then 1 else 0) = v x + n := by
  by_cases same : x = child
  · rw [same, Function.update_self, if_pos rfl]
    omega
  · rw [Function.update_of_ne same, if_neg fun other => same (Option.some.inj other).symm]
    omega

/-- A thread counts itself among the virtual losses of a child, before it takes the mutex or goes down. -/
theorem raises {phase : PlayoutPhase ν} (sound : Sound settings base kids w) (before : (w.locals t).phase.Free)
    (free : ¬phase.Holds) (alone : ¬phase.Alone) (counts : phase.child? = some child)
    (knows : phase.Knows settings (w.shared.nodes (w.locals t).node) (kids (w.locals t).node) w.shared.table)
    (busy : phase ≠ .idle) :
    Next settings base kids w
      ⟨w.shared.addVirtualLoss child 1, Function.update w.locals t ((w.locals t).goTo phase)⟩ := by
  refine sound.stay rfl rfl rfl ((sound.own t).goTo knows (sole_of_not_alone alone) (held_of_not_holds free) busy) ?_
    (fun _ _ _ => Iff.rfl) before.2.1 alone ?_
  · intro m
    exact (sound.holder t m).trans (iff_of_false (fun holds => before.1 holds.1) fun holds => free holds.1)
  · intro x
    rw [Playout.losses, Playout.losses, before.2.2]
    simp only [Playout.goTo, counts]
    exact losses_raised w.shared.virtualLosses child x _

theorem giveUp (sound : Sound settings base kids w) (at_ : (w.locals t).phase = .givingUp child)
    (acted : act settings t choice w.shared (w.locals t) = some (s', l')) :
    Next settings base kids w ⟨s', Function.update w.locals t l'⟩ := by
  simp only [act, at_] at acted
  cases acted
  refine sound.stay rfl rfl rfl ((sound.own t).goTo trivial trivial trivial (by simp)) ?_ (fun _ _ _ => Iff.rfl)
    (at_ ▸ id) id ?_
  · intro m
    refine (sound.holder t m).trans (and_congr_left fun _ => ?_)
    rw [at_]
    exact Iff.rfl
  · intro x
    rw [Playout.losses, Playout.losses, at_]
    exact (losses_lowered w.shared.virtualLosses child x _).trans (by simp [Playout.goTo, child?, graphPath])

theorem leaveChild (sound : Sound settings base kids w) (at_ : (w.locals t).phase = .leaving child)
    (acted : act settings t choice w.shared (w.locals t) = some (s', l')) :
    Next settings base kids w ⟨s', Function.update w.locals t l'⟩ := by
  simp only [act, at_] at acted
  cases acted
  refine sound.stay rfl rfl rfl (sound.own t).leave ?_ (fun _ _ _ => Iff.rfl) (at_ ▸ id) not_alone_leave ?_
  · intro m
    refine (sound.holder t m).trans (iff_of_false ?_ fun holds => not_holds_leave holds.1)
    rw [at_]
    exact And.left
  · intro x
    rw [losses_leave, Playout.losses, at_]
    exact losses_lowered w.shared.virtualLosses child x _

end Losses

section Mutex

/-- The mutex of the node that the thread is at. -/
theorem lock (sound : Sound settings base kids w) (at_ : (w.locals t).phase = .locking childIdx move child)
    (acted : act settings t choice w.shared (w.locals t) = some (s', l')) :
    Next settings base kids w ⟨s', Function.update w.locals t l'⟩ := by
  simp only [act, at_] at acted
  obtain ⟨free, same⟩ := Option.ite_none_right_eq_some.mp acted
  cases same
  have knows := sound.knows at_
  refine sound.stay rfl rfl rfl ((sound.own t).goTo ?_ trivial trivial (by simp)) ?_ ?_ (at_ ▸ id) id ?_
  · exact knows
  · intro m
    show Function.update w.shared.mutexes _ (some t) m = some t ↔ True ∧ _
    by_cases here : m = (w.shared.nodes (w.locals t).node).mutexIdx
    · rw [here, Function.update_self]
      exact iff_of_true rfl ⟨trivial, rfl⟩
    · rw [Function.update_of_ne here, sound.holder t m, at_]
      exact iff_of_false And.left fun there => here there.2.symm
  · intro m u other
    show Function.update w.shared.mutexes _ (some t) m = some u ↔ _
    by_cases here : m = (w.shared.nodes (w.locals t).node).mutexIdx
    · rw [here, Function.update_self, free]
      exact iff_of_false (fun same => other (Option.some.inj same).symm) (by simp)
    · rw [Function.update_of_ne here]
  · intro x
    rw [Playout.losses, Playout.losses, at_]
    rfl

/-- A thread that leaves the mutex, and goes on or ends its call. -/
theorem unlocks (sound : Sound settings base kids w) (holds : (w.locals t).phase.Holds)
    (before : ¬(w.locals t).phase.Alone)
    (own : l'.Own settings w.shared kids) (free : ¬l'.phase.Holds) (alone : ¬l'.phase.Alone)
    (losses : ∀ x, l'.losses x = (w.locals t).losses x) :
    Next settings base kids w
      ⟨w.shared.setMutex (w.shared.nodes (w.locals t).node).mutexIdx none, Function.update w.locals t l'⟩ := by
  refine sound.stay rfl rfl rfl own ?_ ?_ before alone fun x => by rw [losses x]; rfl
  · intro m
    show Function.update w.shared.mutexes _ none m = some t ↔ _
    refine iff_of_false ?_ fun there => free there.1
    by_cases here : m = (w.shared.nodes (w.locals t).node).mutexIdx
    · rw [here, Function.update_self]
      simp
    · rw [Function.update_of_ne here, sound.holder t m]
      exact fun there => here there.2.symm
  · intro m u other
    show Function.update w.shared.mutexes _ none m = some u ↔ _
    by_cases here : m = (w.shared.nodes (w.locals t).node).mutexIdx
    · rw [here, Function.update_self, (sound.holder t _).mpr ⟨holds, rfl⟩]
      exact iff_of_false (by simp) fun same => other (Option.some.inj same).symm
    · rw [Function.update_of_ne here]

theorem unlock (sound : Sound settings base kids w) (at_ : (w.locals t).phase = .unlocking childIdx child)
    (acted : act settings t choice w.shared (w.locals t) = some (s', l')) :
    Next settings base kids w ⟨s', Function.update w.locals t l'⟩ := by
  simp only [act, at_] at acted
  cases acted
  have knows := sound.knows at_
  refine sound.unlocks (at_ ▸ trivial) (at_ ▸ id) ((sound.own t).goTo ?_ trivial trivial (by simp)) id id ?_
  · exact knows
  · intro x
    rw [Playout.losses, Playout.losses, at_]
    rfl

theorem abandon (sound : Sound settings base kids w) (at_ : (w.locals t).phase = .abandoning)
    (acted : act settings t choice w.shared (w.locals t) = some (s', l')) :
    Next settings base kids w ⟨s', Function.update w.locals t l'⟩ := by
  simp only [act, at_] at acted
  cases acted
  refine sound.unlocks (at_ ▸ trivial) (at_ ▸ id) (sound.own t).leave not_holds_leave not_alone_leave ?_
  intro x
  rw [losses_leave, Playout.losses, at_]
  simp [child?]

theorem check (sound : Sound settings base kids w) (at_ : (w.locals t).phase = .checking childIdx move child)
    (acted : act settings t choice w.shared (w.locals t) = some (s', l')) :
    Next settings base kids w ⟨s', Function.update w.locals t l'⟩ := by
  have knows := sound.knows at_
  obtain ⟨p, slot⟩ := sound.slot_here knows.1
  simp only [act, at_, slot] at acted
  cases acted
  split
  · exact sound.goOn trivial trivial (at_ ▸ id) id (iff_of_true trivial (at_ ▸ trivial)) (by rw [at_]; rfl) (by simp)
  · next empty =>
    refine sound.goOn knows ?_ (at_ ▸ id) id (iff_of_true trivial (at_ ▸ trivial)) (by rw [at_]; rfl) (by simp)
    exact Nat.le_antisymm (Nat.le_of_not_lt fun stored => empty ((sound.kid_of_slot slot).mpr stored)) knows.2.1.le

theorem setMove (sound : Sound settings base kids w) (at_ : (w.locals t).phase = .settingMove childIdx move child)
    (acted : act settings t choice w.shared (w.locals t) = some (s', l')) :
    Next settings base kids w ⟨s', Function.update w.locals t l'⟩ := by
  have knows := sound.knows at_
  have last : (kids (w.locals t).node).length = childIdx := sound.held_at at_
  obtain ⟨p, slot⟩ := sound.slot_here knows.1
  have empty : p.data = none := by
    rw [← Option.not_isSome_iff_eq_none, sound.kid_of_slot slot]
    omega
  simp only [act, at_, slot, empty] at acted
  cases acted
  refine sound.changeTo ⟨Nat.le_refl _, id, id, List.prefix_rfl, rfl⟩ ((sound.here t).setMove slot empty)
    (sound.kids_here t) knows
    ⟨trivial, last, ?_⟩ (.inl ⟨rfl, SearchNode.isSome_setSlot⟩) (.inl (at_ ▸ trivial))
    (iff_of_true trivial (at_ ▸ trivial))
    (fun alone => alone.elim) (fun pending => .inr ⟨pending, at_ ▸ id⟩) (by rw [at_]; rfl) (by simp)
  rw [SearchNode.slot_setSlot, if_pos rfl, slot]
  rfl

theorem store (sound : Sound settings base kids w) (at_ : (w.locals t).phase = .storing childIdx move child)
    (acted : act settings t choice w.shared (w.locals t) = some (s', l')) :
    Next settings base kids w ⟨s', Function.update w.locals t l'⟩ := by
  obtain ⟨inside, room, member⟩ := sound.knows at_
  obtain ⟨last, slot⟩ := sound.held_at at_
  have new : move ∉ (kids (w.locals t).node).map Prod.snd := by
    have new := room.new
    rwa [← last, List.take_length] at new
  simp only [act, at_, slot] at acted
  cases acted
  subst last
  refine sound.changeTo ⟨Nat.le_refl _, id, id, List.prefix_append _ _, rfl⟩ ((sound.here t).store slot new room.small)
    ?_
    ⟨move, ?_⟩ ⟨trivial, trivial⟩ (.inl ⟨rfl, SearchNode.isSome_setSlot⟩) (.inl (at_ ▸ trivial))
    (iff_of_true trivial (at_ ▸ trivial)) (fun alone => alone.elim) (fun pending => .inr ⟨pending, at_ ▸ id⟩)
    (by rw [at_]; rfl)
    (by simp)
  · intro kid added
    rcases List.mem_append.mp added with old | here
    · exact sound.kids_here t kid old
    · rw [List.mem_singleton.mp here]
      exact member
  · rw [List.getElem?_append_right (Nat.le_refl _), Nat.sub_self]
    rfl

end Mutex

section Children

omit [Fintype ι] [DecidableEq ι] in
theorem grown_insert {mutexIdx : Nat} {s : SearchTree ι ν} (fresh : ¬s.Alive child) :
    s.Grown kids (s.insert child mutexIdx) (Function.update kids child []) := by
  refine ⟨rfl, List.subset_cons_self child s.table, fun x alive => ?_⟩
  have other : x ≠ child := by
    rintro rfl
    exact fresh alive
  show (s.nodes x).Later (kids x) (Function.update s.nodes child (.new mutexIdx) x) _
  rw [Function.update_of_ne other, Function.update_of_ne other]
  exact .refl

omit [Fintype ι] [DecidableEq ι] in
theorem alive_insert {mutexIdx : Nat} {s : SearchTree ι ν} {x : ν} (alive : (s.insert child mutexIdx).Alive x) :
    x = child ∨ s.Alive x := by
  rcases alive with root | member
  · exact .inr (.inl root)
  · exact (List.mem_cons.mp member).imp_right .inr

/-- A new node, which no thread is at. -/
theorem inserts {mutexIdx : Nat} {phase : PlayoutPhase ν} (sound : Sound settings base kids w)
    (fresh : ¬w.shared.Alive child)
    (before : (w.locals t).phase.Free) (after : phase.Free)
    (knows : phase.Knows settings (w.shared.nodes (w.locals t).node) (kids (w.locals t).node) (child :: w.shared.table))
    (busy : phase ≠ .idle) :
    Next settings base kids w
      ⟨w.shared.insert child mutexIdx, Function.update w.locals t ((w.locals t).goTo phase)⟩ := by
  have grown : w.shared.Grown kids (w.shared.insert child mutexIdx) (Function.update kids child []) :=
    grown_insert fresh
  have old {x : ν} (alive : w.shared.Alive x) : x ≠ child := by
    rintro rfl
    exact fresh alive
  have nodes {x : ν} (alive : w.shared.Alive x) : (w.shared.insert child mutexIdx).nodes x = w.shared.nodes x :=
    Function.update_of_ne (old alive) ..
  have here : (w.shared.insert child mutexIdx).nodes child = .new mutexIdx := Function.update_self ..
  have keeps {l : Playout ν} (own : l.Own settings w.shared kids) :
      l.Own settings (w.shared.insert child mutexIdx) (Function.update kids child []) := by
    refine own.later grown ?_ ?_
    · rw [nodes own.alive]
      exact own.sole
    · rw [nodes own.alive, Function.update_of_ne (old own.alive)]
      exact own.held
  have free : ¬Playout.phase ((w.locals t).goTo phase) = .idle := busy
  refine ⟨_, ?_, grown⟩
  constructor
  · show w.shared.root ∉ child :: w.shared.table
    refine fun member => (List.mem_cons.mp member).elim (fun same => fresh (.inl same.symm)) sound.root
  · intro x alive
    rcases alive_insert alive with rfl | alive
    · rw [Function.update_self]
      show SearchNode.Shaped _ _ _ ((w.shared.insert x mutexIdx).nodes x)
      rw [here]
      exact SearchNode.new_shaped mutexIdx
    · rw [Function.update_of_ne (old alive)]
      show SearchNode.Shaped _ _ _ ((w.shared.insert child mutexIdx).nodes x)
      rw [nodes alive]
      exact sound.shaped x alive
  · intro x alive kid member
    rcases alive_insert alive with rfl | alive
    · rw [Function.update_self] at member
      cases member
    · rw [Function.update_of_ne (old alive)] at member
      exact List.mem_cons_of_mem _ (sound.members x alive kid member)
  · refine forall_update (P := fun _ (l : Playout ν) => l.Own settings (w.shared.insert child mutexIdx) _) ?_
      fun u _ => keeps
      (sound.own u)
    have entered : ((w.locals t).goTo .entering).Own settings w.shared kids :=
      (sound.own t).goTo trivial trivial trivial (by simp)
    have alive := (sound.own t).alive
    show (((w.locals t).goTo .entering).goTo phase).Own _ _ _
    refine (keeps entered).goTo ?_ (sole_of_not_alone after.2.1) (held_of_not_holds after.1) busy
    show phase.Knows settings ((w.shared.insert child mutexIdx).nodes (w.locals t).node)
      (Function.update kids child [] (w.locals t).node) _
    rw [nodes alive, Function.update_of_ne (old alive)]
    exact knows
  · refine forall_update (P := fun u (l : Playout ν) => ∀ m, w.shared.mutexes m = some u ↔ l.phase.Holds ∧
      ((w.shared.insert child mutexIdx).nodes l.node).mutexIdx = m) ?_ ?_
    · intro m
      rw [sound.holder t m]
      exact iff_of_false (fun holds => before.1 holds.1) fun holds => after.1 holds.1
    · intro u _ m
      rw [nodes (sound.own u).alive]
      exact sound.holder u m
  · refine forall_update (P := fun u (l : Playout ν) => ∀ v, l.phase.Alone →
      (Function.update w.locals t ((w.locals t).goTo phase) v).phase.Alone →
      l.node = (Function.update w.locals t ((w.locals t).goTo phase) v).node → u = v)
        (fun _ alone => absurd alone after.2.1) fun u _ => ?_
    exact forall_update (P := fun v (l : Playout ν) => (w.locals u).phase.Alone → l.phase.Alone →
      (w.locals u).node = l.node → u = v)
      (fun _ alone => absurd alone after.2.1) fun v _ => sound.sole u v
  · intro x alive pending
    rcases alive_insert alive with rfl | alive
    · rw [show (w.shared.insert x mutexIdx).nodes x = _ from here] at pending
      rcases pending with ⟨-, evaluated⟩ | ⟨a, growing⟩
      · cases evaluated
      · cases a <;> cases growing
    · obtain ⟨u, alone, same⟩ := sound.pending x alive (nodes alive ▸ pending)
      have other : u ≠ t := by
        rintro rfl
        exact before.2.1 alone
      refine ⟨u, ?_⟩
      show (Function.update w.locals t _ u).phase.Alone ∧ (Function.update w.locals t _ u).node = x
      rw [Function.update_of_ne other]
      exact ⟨alone, same⟩
  · refine sound.losses_update fun x => ?_
    rw [Playout.losses, Playout.losses, before.2.2]
    simp only [Playout.goTo, after.2.2]
    rfl

/-- The child may be a node of the tree already. -/
theorem make (sound : Sound settings base kids w) (at_ : (w.locals t).phase = .making nodeState childIdx move)
    (acted : act settings t choice w.shared (w.locals t) = some (s', l')) :
    Next settings base kids w ⟨s', Function.update w.locals t l'⟩ := by
  obtain ⟨reached, inside, room⟩ := sound.knows at_
  have free : (w.locals t).phase.Free := at_ ▸ ⟨id, id, rfl⟩
  have inside' := inside.trans_le (capacity_mono reached)
  simp only [act, at_, if_neg (Nat.not_le.mpr inside)] at acted
  cases choice with
  | go | giveUp | renew | explore | expand => cases acted
  | allocate child mutexIdx =>
    simp only at acted
    split at acted
    · next member =>
      cases acted
      exact sound.looks free ⟨id, id, rfl⟩ ⟨inside', room, member⟩ (by simp)
    · next missing =>
      obtain ⟨other, same⟩ := Option.ite_none_left_eq_some.mp acted
      cases same
      exact sound.inserts (fun alive => alive.elim other missing) free ⟨id, id, rfl⟩
        ⟨inside', room, List.mem_cons_self⟩ (by simp)

theorem add (sound : Sound settings base kids w) (at_ : (w.locals t).phase = .adding childIdx move child)
    (acted : act settings t choice w.shared (w.locals t) = some (s', l')) :
    Next settings base kids w ⟨s', Function.update w.locals t l'⟩ := by
  have knows := sound.knows at_
  simp only [act, at_] at acted
  cases acted
  refine sound.raises (at_ ▸ ⟨id, id, rfl⟩) id id rfl ?_ (by simp)
  exact knows

theorem raise (sound : Sound settings base kids w) (at_ : (w.locals t).phase = .raising childIdx child)
    (acted : act settings t choice w.shared (w.locals t) = some (s', l')) :
    Next settings base kids w ⟨s', Function.update w.locals t l'⟩ := by
  have knows := sound.knows at_
  simp only [act, at_] at acted
  cases acted
  refine sound.raises (at_ ▸ ⟨id, id, rfl⟩) id id rfl ?_ (by simp)
  exact knows

/-- A thread goes down to the child, unless that is on its path. -/
theorem visit (sound : Sound settings base kids w) (at_ : (w.locals t).phase = .visited childIdx child)
    (acted : act settings t choice w.shared (w.locals t) = some (s', l')) :
    Next settings base kids w ⟨s', Function.update w.locals t l'⟩ := by
  obtain ⟨move, kid⟩ := sound.knows at_
  have own := sound.own t
  simp only [act, at_, sound.slot_of_kid kid, Option.isNone_some, Bool.false_eq_true, if_false] at acted
  split at acted
  · cases acted
    exact sound.goOn trivial trivial (at_ ▸ id) id (iff_of_false id (at_ ▸ id)) (by rw [at_]; rfl) (by simp)
  · next deeper =>
    cases acted
    have new : child ∉ (w.locals t).graphPath := fun member => deeper (.inr member)
    refine sound.stay rfl rfl rfl ?_ ?_ (fun _ _ _ => Iff.rfl) (at_ ▸ id) id ?_
    · exact {
        knows := trivial
        sole := trivial
        held := trivial
        path := congrArg (child :: ·) own.path
        nodup := List.nodup_cons.mpr ⟨new, own.nodup⟩
        table := fun x member => (List.mem_cons.mp member).elim
          (fun same => same ▸ sound.kids_here t _ (List.mem_of_getElem? kid)) (own.table x)
        outer := fun d member => (List.mem_cons.mp member).elim (fun same => same ▸ ⟨move, kid⟩) (own.outer d)
        idle := fun idle => by cases idle }
    · intro m
      refine (sound.holder t m).trans (iff_of_false ?_ And.left)
      rw [at_]
      exact And.left
    · intro x
      rw [Playout.losses, Playout.losses, at_]
      simp only [graphPath, child?, List.map_cons, List.count_cons, beq_iff_eq, Option.some.injEq]
      split <;> simp

/-- A thread begins a playout at the root. -/
theorem start (sound : Sound settings base kids w) (at_ : (w.locals t).phase = .idle)
    (acted : act settings t choice w.shared (w.locals t) = some (s', l')) :
    Next settings base kids w ⟨s', Function.update w.locals t l'⟩ := by
  have outer := (sound.own t).idle at_
  simp only [act, at_] at acted
  cases acted
  refine sound.stay rfl rfl rfl ?_ ?_ (fun _ _ _ => Iff.rfl) (at_ ▸ id) id ?_
  · exact {
      knows := trivial
      sole := trivial
      held := trivial
      path := rfl
      nodup := List.nodup_nil
      table := fun x member => by cases member
      outer := fun d member => by cases member
      idle := fun _ => rfl }
  · intro m
    refine (sound.holder t m).trans (iff_of_false ?_ And.left)
    rw [at_]
    exact And.left
  · intro x
    rw [Playout.losses, Playout.losses, at_, graphPath, graphPath, outer]
    rfl

end Children

/-- Whatever a thread does next. -/
theorem act_next (sound : Sound settings base kids w)
    (acted : act settings t choice w.shared (w.locals t) = some (s', l')) :
    Next settings base kids w ⟨s', Function.update w.locals t l'⟩ := by
  cases at_ : (w.locals t).phase with
  | idle => exact sound.start at_ acted
  | entering => exact sound.enter at_ acted
  | storingHuman => exact sound.storeHuman at_ acted
  | storingNN => exact sound.storeNN at_ acted
  | claiming => exact sound.claim at_ acted
  | allocating a next => exact sound.allocate at_ acted
  | publishing a next => exact sound.publish at_ acted
  | renewingHuman next => exact sound.renewHuman at_ acted
  | renewingNN next => exact sound.renewNN at_ acted
  | counting nodeState found => exact sound.count at_ acted
  | reading nodeState found => exact sound.readMove at_ acted
  | selecting nodeState found => exact sound.select at_ acted
  | expanding nodeState childIdx move => exact sound.expand at_ acted
  | yielding => exact sound.reload at_ acted
  | making nodeState childIdx move => exact sound.make at_ acted
  | adding childIdx move child => exact sound.add at_ acted
  | locking childIdx move child => exact sound.lock at_ acted
  | checking childIdx move child => exact sound.check at_ acted
  | settingMove childIdx move child => exact sound.setMove at_ acted
  | storing childIdx move child => exact sound.store at_ acted
  | unlocking childIdx child => exact sound.unlock at_ acted
  | givingUp child => exact sound.giveUp at_ acted
  | abandoning => exact sound.abandon at_ acted
  | finding childIdx => exact sound.find at_ acted
  | raising childIdx child => exact sound.raise at_ acted
  | visited childIdx child => exact sound.visit at_ acted
  | returned childIdx child => exact sound.return_ at_ acted
  | leaving child => exact sound.leaveChild at_ acted
  | failed => exact (sound.knows at_).elim

end Sound
end KataGo.Search
