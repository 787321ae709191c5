import Mathlib.Data.List.Basic
import Mathlib.Data.List.Nodup
import Mathlib.Logic.Function.Basic

/-! `SearchNode` of `cpp/search/searchnode.h`: its state and the arrays of its children. Of the network's outputs only
is kept whether they are there. -/

namespace KataGo.Search

/-- `SearchNode::STATE_*` -/
inductive SearchNodeState where
  | unevaluated
  | evaluating
  | expanded0
  | growing1
  | expanded1
  | growing2
  | expanded2
  deriving DecidableEq

def SearchNodeState.toNat : SearchNodeState → Nat
  | unevaluated => 0
  | evaluating => 1
  | expanded0 => 2
  | growing1 => 3
  | expanded1 => 4
  | growing2 => 5
  | expanded2 => 6

def maxNNPolicySize : Nat := 19 * 19 + 1

namespace SearchChildrenSizes

def size0Total : Nat := 8
def size1Total : Nat := 64
def size2Total : Nat := maxNNPolicySize
def size0Overflow : Nat := size0Total
def size1Overflow : Nat := size1Total - size0Total
def size2Overflow : Nat := size2Total - size1Total

end SearchChildrenSizes

open SearchChildrenSizes

def getChildrenCapacity (stateValue : SearchNodeState) : Nat :=
  if stateValue.toNat < SearchNodeState.expanded0.toNat then 0
  else if stateValue.toNat < SearchNodeState.expanded1.toNat then size0Total
  else if stateValue.toNat < SearchNodeState.expanded2.toNat then size1Total
  else size2Total

/-- The arrays `children0`, `children1` and `children2`. -/
inductive ChildArray where
  | children0
  | children1
  | children2
  deriving DecidableEq

namespace ChildArray

/-- The number of children in the arrays before this one. -/
def start : ChildArray → Nat
  | children0 => 0
  | children1 => size0Total
  | children2 => size1Total

def size : ChildArray → Nat
  | children0 => size0Overflow
  | children1 => size1Overflow
  | children2 => size2Overflow

/-- The state in which a thread may decide to allocate the array, the state in which it does so, and the state after
that. -/
def before : ChildArray → SearchNodeState
  | children0 => .unevaluated
  | children1 => .expanded0
  | children2 => .expanded1

def growing : ChildArray → SearchNodeState
  | children0 => .evaluating
  | children1 => .growing1
  | children2 => .growing2

def done : ChildArray → SearchNodeState
  | children0 => .expanded0
  | children1 => .expanded1
  | children2 => .expanded2

/-- The array of a child, and its index in there. -/
def place (i : Nat) : ChildArray × Nat :=
  if i < size0Total then (children0, i)
  else if i < size1Total then (children1, i - size0Total)
  else (children2, i - size1Total)

end ChildArray

/-- `SearchChildPointer`, with the position of its move in the policy. -/
structure SearchChildPointer (ν : Type) where
  data : Option ν
  movePos : Nat

namespace SearchChildPointer

variable {ν : Type}

def null : SearchChildPointer ν := ⟨none, 0⟩

/-- The child and its move, when the child has been stored. -/
def view (p : SearchChildPointer ν) : Option (ν × Nat) := p.data.map fun child => (child, p.movePos)

end SearchChildPointer

structure SearchNode (ν : Type) where
  state : SearchNodeState
  nnOutput : Bool
  humanOutput : Bool
  children : ChildArray → Option (List (SearchChildPointer ν))
  mutexIdx : Nat

namespace SearchNode

variable {ν : Type}

def new (mutexIdx : Nat) : SearchNode ν := ⟨.unevaluated, false, false, fun _ => none, mutexIdx⟩

/-- `SearchNodeChildrenReference::operator[]`; an array that is not there, or is too short, has nothing at the index. -/
def slot (s : SearchNode ν) (i : Nat) : Option (SearchChildPointer ν) :=
  (s.children (ChildArray.place i).1).bind fun a => a[(ChildArray.place i).2]?

def setSlot (s : SearchNode ν) (i : Nat) (p : SearchChildPointer ν) : SearchNode ν :=
  let a := (ChildArray.place i).1
  { s with
    children := Function.update s.children a ((s.children a).map fun slots => slots.set (ChildArray.place i).2 p) }

/-- `new SearchChildPointer[...]` -/
def allocate (s : SearchNode ν) (a : ChildArray) : SearchNode ν :=
  { s with children := Function.update s.children a (some (List.replicate a.size .null)) }

/-- What is stored at an index. -/
def view (s : SearchNode ν) (i : Nat) : Option (ν × Nat) := (s.slot i).bind SearchChildPointer.view

end SearchNode

section Places

variable {i j : Nat} {a : ChildArray}

namespace ChildArray

theorem start_le_done (a : ChildArray) : a.start ≤ getChildrenCapacity a.before := by cases a <;> decide

theorem start_lt_capacity (a : ChildArray) : a.start < getChildrenCapacity a.done := by cases a <;> decide

theorem before_lt_growing (a : ChildArray) : a.before.toNat < a.growing.toNat := by cases a <;> decide

theorem growing_le_done (a : ChildArray) : a.growing.toNat ≤ a.done.toNat := by cases a <;> decide

theorem capacity_before (other : a ≠ children0) : getChildrenCapacity a.before = a.start := by
  cases a with
  | children0 => exact absurd rfl other
  | children1 | children2 => decide

theorem place_injective (same : place i = place j) : i = j := by
  unfold place at same
  split_ifs at same <;> simp_all <;> omega

/-- An index that the capacity allows lies in an array that is there, and is not behind its end. -/
theorem place_lt {sv : SearchNodeState} (inside : i < getChildrenCapacity sv) :
    (place i).2 < (place i).1.size ∧ (place i).1.growing.toNat < sv.toNat := by
  unfold place
  cases sv <;> simp [getChildrenCapacity, SearchNodeState.toNat] at inside <;>
    split_ifs <;> simp_all [size, growing, SearchNodeState.toNat, size0Overflow, size1Overflow, size2Overflow,
      size0Total, size1Total, size2Total] <;> omega

end ChildArray

end Places

namespace SearchNode

variable {ν : Type} {s : SearchNode ν} {i j : Nat} {p : SearchChildPointer ν} {a : ChildArray} {policySize : Nat}
  {usesHuman : Bool} {kids : List (ν × Nat)} {child : ν} {move : Nat}

theorem slot_setSlot : (s.setSlot i p).slot j = if j = i then (s.slot i).map fun _ => p else s.slot j := by
  unfold slot setSlot
  by_cases sameArray : (ChildArray.place j).1 = (ChildArray.place i).1
  · simp only [sameArray, Function.update_self]
    cases s.children (ChildArray.place i).1 with
    | none => simp
    | some slots =>
      simp only [Option.map_some, Option.bind_some, List.getElem?_set]
      by_cases same : j = i
      · rw [if_pos same, if_pos (by rw [same])]
        by_cases inside : (ChildArray.place i).2 < slots.length
        · rw [if_pos inside, List.getElem?_eq_getElem inside]
          rfl
        · rw [if_neg inside, List.getElem?_eq_none (Nat.le_of_not_lt inside)]
          rfl
      · rw [if_neg same, if_neg]
        intro sameIndex
        exact same (ChildArray.place_injective (Prod.ext sameArray sameIndex.symm))
  · rw [if_neg]
    · simp only [Function.update_of_ne sameArray]
    · rintro rfl
      exact sameArray rfl

theorem view_setSlot : (s.setSlot i p).view j = if j = i then (s.slot i).bind fun _ => p.view else s.view j := by
  rw [view, slot_setSlot]
  by_cases same : j = i
  · rw [if_pos same, if_pos same, Option.bind_map]
    rfl
  · rw [if_neg same, if_neg same]
    rfl

/-- New slots hold nothing. -/
theorem view_allocate (absent : s.children a = none) : (s.allocate a).view j = s.view j := by
  unfold view slot allocate
  by_cases here : (ChildArray.place j).1 = a
  · simp only [here, Function.update_self, absent, Option.bind_some, Option.bind_none]
    rw [List.getElem?_replicate]
    split <;> rfl
  · simp only [Function.update_of_ne here]

theorem isSome_allocate : ((s.allocate a).children a).isSome = true := by
  show (Function.update s.children a (some (List.replicate a.size .null)) a).isSome = true
  rw [Function.update_self]
  rfl

theorem slot_allocate (absent : s.children a = none) (found : s.slot j = some p) : (s.allocate a).slot j = some p := by
  unfold slot allocate at *
  by_cases here : (ChildArray.place j).1 = a
  · rw [here, absent] at found
    cases found
  · simp only [Function.update_of_ne here]
    exact found

/-- What holds of a node at any time during a search: the arrays are there that its state promises, and they hold the
children without a gap, each with a move of its own. -/
structure Shaped (policySize : Nat) (usesHuman : Bool) (kids : List (ν × Nat)) (s : SearchNode ν) : Prop where
  length : ∀ (a : ChildArray) slots, s.children a = some slots → slots.length = a.size
  there : ∀ a : ChildArray, a.growing.toNat < s.state.toNat → (s.children a).isSome = true
  absent : ∀ a : ChildArray, s.state.toNat < a.growing.toNat → s.children a = none
  view : ∀ i, s.view i = kids[i]?
  moves : (kids.map Prod.snd).Nodup
  small : ∀ kid ∈ kids, kid.2 < policySize
  full : ∀ a : ChildArray, a.growing.toNat ≤ s.state.toNat → a.start ≤ kids.length
  human : usesHuman = true → s.nnOutput = true → s.humanOutput = true
  evaluated : 1 ≤ s.state.toNat → s.nnOutput = true

/-- What the steps of any thread leave of a node: it only gets more. -/
structure Later (s : SearchNode ν) (kids : List (ν × Nat)) (s' : SearchNode ν) (kids' : List (ν × Nat)) : Prop where
  state : s.state.toNat ≤ s'.state.toNat
  nnOutput : s.nnOutput = true → s'.nnOutput = true
  humanOutput : s.humanOutput = true → s'.humanOutput = true
  kids : kids <+: kids'
  mutexIdx : s'.mutexIdx = s.mutexIdx

theorem Later.refl : s.Later kids s kids := ⟨Nat.le_refl _, id, id, List.prefix_rfl, rfl⟩

theorem Later.trans {s' s'' : SearchNode ν} {kids' kids'' : List (ν × Nat)} (first : s.Later kids s' kids')
    (second : s'.Later kids' s'' kids'') : s.Later kids s'' kids'' where
  state := Nat.le_trans first.state second.state
  nnOutput here := second.nnOutput (first.nnOutput here)
  humanOutput here := second.humanOutput (first.humanOutput here)
  kids := first.kids.trans second.kids
  mutexIdx := second.mutexIdx.trans first.mutexIdx

theorem children_setSlot (b : ChildArray) : (s.setSlot i p).children b =
    if b = (ChildArray.place i).1 then (s.children b).map fun slots => slots.set (ChildArray.place i).2 p
      else s.children b := by
  unfold setSlot
  split
  · next same =>
    rw [same]
    exact Function.update_self ..
  · next other => exact Function.update_of_ne other ..

theorem isSome_setSlot (b : ChildArray) : ((s.setSlot i p).children b).isSome = (s.children b).isSome := by
  rw [children_setSlot]
  split
  · exact Option.isSome_map ..
  · rfl

theorem setSlot_eq_none (b : ChildArray) : (s.setSlot i p).children b = none ↔ s.children b = none := by
  rw [← Option.not_isSome_iff_eq_none, isSome_setSlot, Option.not_isSome_iff_eq_none]

/-- The arrays keep their lengths. -/
theorem Shaped.length_setSlot (shaped : s.Shaped policySize usesHuman kids) (b : ChildArray)
    (slots : List (SearchChildPointer ν))
    (found : (s.setSlot i p).children b = some slots) : slots.length = b.size := by
  rw [children_setSlot] at found
  split at found
  · obtain ⟨old, there, rfl⟩ := Option.map_eq_some_iff.mp found
    rw [List.length_set]
    exact shaped.length b old there
  · exact shaped.length b slots found

theorem new_shaped (mutexIdx : Nat) : (new mutexIdx : SearchNode ν).Shaped policySize usesHuman [] where
  length _ _ found := by cases found
  there a less := by cases less
  absent _ _ := rfl
  view _ := rfl
  moves := List.nodup_nil
  small _ member := by cases member
  full a less := by cases a <;> simp [ChildArray.growing, SearchNodeState.toNat, new] at less
  human _ here := by cases here
  evaluated less := by cases less

/-- A slot of the capacity is there, from the state on that promises the capacity. -/
theorem Shaped.slot (shaped : s.Shaped policySize usesHuman kids) {sv : SearchNodeState}
    (inside : i < getChildrenCapacity sv)
    (reached : sv.toNat ≤ s.state.toNat) : ∃ p, s.slot i = some p := by
  have place := ChildArray.place_lt inside
  obtain ⟨slots, found⟩ := Option.isSome_iff_exists.mp (shaped.there _ (Nat.lt_of_lt_of_le place.2 reached))
  have length := shaped.length _ slots found
  have inside : (ChildArray.place i).2 < slots.length := by omega
  refine ⟨slots[(ChildArray.place i).2], ?_⟩
  rw [SearchNode.slot, found]
  exact List.getElem?_eq_getElem inside

theorem Shaped.setHuman (shaped : s.Shaped policySize usesHuman kids) :
    { s with humanOutput := true }.Shaped policySize usesHuman kids :=
  { shaped with human := fun _ _ => rfl }

theorem Shaped.setNN (shaped : s.Shaped policySize usesHuman kids) (human : usesHuman = true → s.humanOutput = true) :
    { s with nnOutput := true }.Shaped policySize usesHuman kids :=
  { shaped with human := fun uses _ => human uses, evaluated := fun _ => rfl }

/-- A thread wins the right to allocate an array. -/
theorem Shaped.begin (shaped : s.Shaped policySize usesHuman kids) (state : s.state = a.before)
    (evaluated : s.nnOutput = true)
    (full : a.start ≤ kids.length) : { s with state := a.growing }.Shaped policySize usesHuman kids where
  length := shaped.length
  there b less := by
    apply shaped.there b
    rw [state]
    cases a <;> cases b <;> simp_all [ChildArray.growing, ChildArray.before, SearchNodeState.toNat]
  absent b less := by
    apply shaped.absent b
    rw [state]
    cases a <;> cases b <;> simp_all [ChildArray.growing, ChildArray.before, SearchNodeState.toNat]
  view := shaped.view
  moves := shaped.moves
  small := shaped.small
  full b less := by
    by_cases same : b = a
    · rw [same]
      exact full
    · apply shaped.full b
      rw [state]
      cases a <;> cases b <;> simp_all [ChildArray.growing, ChildArray.before, SearchNodeState.toNat]
  human := shaped.human
  evaluated _ := evaluated

theorem Shaped.allocate (shaped : s.Shaped policySize usesHuman kids) (state : s.state = a.growing)
    (absent : s.children a = none) :
    (s.allocate a).Shaped policySize usesHuman kids where
  length b slots found := by
    by_cases same : b = a
    · rw [same] at found ⊢
      cases (Function.update_self ..).symm.trans found
      exact List.length_replicate
    · exact shaped.length b slots ((Function.update_of_ne same ..).symm.trans found)
  there b less := by
    have other : b ≠ a := by
      rintro rfl
      exact absurd (state ▸ less) (Nat.lt_irrefl _)
    exact (congrArg Option.isSome (Function.update_of_ne other ..)).trans (shaped.there b less)
  absent b less := by
    have other : b ≠ a := by
      rintro rfl
      exact absurd (state ▸ less) (Nat.lt_irrefl _)
    exact (Function.update_of_ne other ..).trans (shaped.absent b less)
  view i := (view_allocate absent).trans (shaped.view i)
  moves := shaped.moves
  small := shaped.small
  full := shaped.full
  human := shaped.human
  evaluated := shaped.evaluated

theorem Shaped.publish (shaped : s.Shaped policySize usesHuman kids) (state : s.state = a.growing)
    (there : (s.children a).isSome = true) : { s with state := a.done }.Shaped policySize usesHuman kids where
  length := shaped.length
  there b less := by
    by_cases same : b = a
    · rw [same]
      exact there
    · apply shaped.there b
      rw [state]
      cases a <;> cases b <;> simp_all [ChildArray.growing, ChildArray.done, SearchNodeState.toNat]
  absent b less := by
    apply shaped.absent b
    rw [state]
    cases a <;> cases b <;> simp_all [ChildArray.growing, ChildArray.done, SearchNodeState.toNat]
  view := shaped.view
  moves := shaped.moves
  small := shaped.small
  full b less := by
    apply shaped.full b
    rw [state]
    cases a <;> cases b <;> simp_all [ChildArray.growing, ChildArray.done, SearchNodeState.toNat]
  human := shaped.human
  evaluated _ := shaped.evaluated (by rw [state]; cases a <;> simp [ChildArray.growing, SearchNodeState.toNat])

/-- A child that has not been stored yet can get another move. -/
theorem Shaped.setMove (shaped : s.Shaped policySize usesHuman kids) (found : s.slot i = some p)
    (free : p.data = none) :
    (s.setSlot i ⟨none, move⟩).Shaped policySize usesHuman kids where
  length := shaped.length_setSlot
  there b less := (isSome_setSlot b).trans (shaped.there b less)
  absent b less := (setSlot_eq_none b).mpr (shaped.absent b less)
  view j := by
    rw [view_setSlot]
    split
    · next same =>
      rw [found, same, ← shaped.view, SearchNode.view, found]
      simp [SearchChildPointer.view, free]
    · exact shaped.view j
  moves := shaped.moves
  small := shaped.small
  full := shaped.full
  human := shaped.human
  evaluated := shaped.evaluated

/-- A thread stores a child with its move behind the others. -/
theorem Shaped.store (shaped : s.Shaped policySize usesHuman kids) (found : s.slot kids.length = some p)
    (new : move ∉ kids.map Prod.snd) (small : move < policySize) :
    (s.setSlot kids.length ⟨some child, move⟩).Shaped policySize usesHuman (kids ++ [(child, move)]) where
  length := shaped.length_setSlot
  there b less := (isSome_setSlot b).trans (shaped.there b less)
  absent b less := (setSlot_eq_none b).mpr (shaped.absent b less)
  view j := by
    rw [view_setSlot, List.getElem?_append]
    split
    · next same =>
      rw [found, same]
      simp [SearchChildPointer.view]
    · next other =>
      rw [shaped.view]
      split
      · rfl
      · next outside =>
        rw [List.getElem?_eq_none (Nat.le_of_not_lt outside), List.getElem?_eq_none]
        simp
        omega
  moves := by
    rw [List.map_append]
    exact List.nodup_append'.mpr ⟨shaped.moves, List.nodup_singleton move, List.disjoint_singleton.mpr new⟩
  small kid member := by
    rcases List.mem_append.mp member with old | last
    · exact shaped.small kid old
    · rw [List.mem_singleton.mp last]
      exact small
  full a less := by
    have before := shaped.full a less
    rw [List.length_append]
    omega
  human := shaped.human
  evaluated := shaped.evaluated

end SearchNode
end KataGo.Search
