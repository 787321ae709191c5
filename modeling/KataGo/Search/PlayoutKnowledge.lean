import KataGo.Search.Playout

/-! What a search thread knows of the tree during a playout, and what the steps of the others leave of it. -/

namespace KataGo.Search
open KataGo.Lib SearchChildrenSizes

section Knowledge

variable {ν : Type} {settings : PlayoutSettings} {s s' : SearchNode ν} {kids kids' : List (ν × Nat)}
  {table table' : List ν}  {childIdx move : Nat} {nodeState : SearchNodeState} {found : List Nat}

/-- A move without a child among the first `childIdx` children. -/
structure Room (settings : PlayoutSettings) (kids : List (ν × Nat)) (childIdx move : Nat) : Prop where
  le : childIdx ≤ kids.length
  small : move < settings.policySize
  new : move ∉ (kids.take childIdx).map Prod.snd

theorem Room.later (room : Room settings kids childIdx move) (more : kids <+: kids') :
    Room settings kids' childIdx move where
  le := room.le.trans more.length_le
  small := room.small
  new := by
    obtain ⟨rest, rfl⟩ := more
    rw [List.take_append_of_le_length room.le]
    exact room.new

/-- There are not more children than moves. -/
theorem Room.lt (room : Room settings kids childIdx move) (moves : (kids.map Prod.snd).Nodup)
    (small : ∀ kid ∈ kids, kid.2 < settings.policySize) : childIdx < settings.policySize := by
  have nodup : (move :: (kids.take childIdx).map Prod.snd).Nodup :=
    List.nodup_cons.mpr ⟨room.new, moves.sublist ((List.take_sublist ..).map _)⟩
  have inside : move :: (kids.take childIdx).map Prod.snd ⊆ List.range settings.policySize := by
    intro m member
    rw [List.mem_range]
    rcases List.mem_cons.mp member with rfl | member
    · exact room.small
    · obtain ⟨kid, taken, rfl⟩ := List.mem_map.mp member
      exact small kid (List.mem_of_mem_take taken)
  have length := (List.subperm_of_subset nodup inside).length_le
  rw [List.length_cons, List.length_map, List.length_take, List.length_range, Nat.min_eq_left room.le] at length
  exact length

/-- A state of the node that a thread has read after its children were initialized. -/
def Read (s : SearchNode ν) (nodeState : SearchNodeState) : Prop :=
  2 ≤ nodeState.toNat ∧ nodeState.toNat ≤ s.state.toNat

theorem Read.later (read : Read s nodeState) (later : s.Later kids s' kids') : Read s' nodeState :=
  ⟨read.1, read.2.trans later.state⟩

/-- The moves of the first children. -/
def Seen (kids : List (ν × Nat)) (nodeState : SearchNodeState) (found : List Nat) : Prop :=
  found <+: kids.map Prod.snd ∧ found.length ≤ getChildrenCapacity nodeState

theorem Seen.later (seen : Seen kids nodeState found) (later : s.Later kids s' kids') : Seen kids' nodeState found :=
  ⟨seen.1.trans (later.kids.map _), seen.2⟩

theorem capacity_mono {a b : SearchNodeState} (le : a.toNat ≤ b.toNat) :
    getChildrenCapacity a ≤ getChildrenCapacity b := by
  cases a <;> cases b <;> first | decide | (exact absurd le (by decide))

namespace PlayoutPhase

/-- The thread is in the mutex of the node. -/
def Holds : PlayoutPhase ν → Prop
  | checking _ _ _ | settingMove _ _ _ | storing _ _ _ | unlocking _ _ | givingUp _ | abandoning => True
  | _ => False

/-- The node waits for this thread to bring its state forward. -/
def Alone : PlayoutPhase ν → Prop
  | claiming | allocating _ _ | publishing _ _ => True
  | _ => False

/-- The child that counts the thread among its virtual losses. -/
def child? : PlayoutPhase ν → Option ν
  | locking _ _ child | checking _ _ child | settingMove _ _ child | storing _ _ child | unlocking _ child
  | givingUp child | visited _ child | returned _ child | leaving child => some child
  | _ => none

def Free (phase : PlayoutPhase ν) : Prop := ¬phase.Holds ∧ ¬phase.Alone ∧ phase.child? = none

/-- What remains true when the node gets more children. -/
def Knows (settings : PlayoutSettings) (s : SearchNode ν) (kids : List (ν × Nat)) (table : List ν) :
    PlayoutPhase ν → Prop
  | idle | entering | storingHuman | givingUp _ | abandoning | leaving _ => True
  | storingNN => settings.needsHumanOutputInTree = true → s.humanOutput = true
  | claiming => s.nnOutput = true
  | allocating a next | publishing a next =>
      s.nnOutput = true ∧ ∀ childIdx move, next = some (childIdx, move) → childIdx = a.start ∧
        Room settings kids childIdx move
  | renewingHuman next => 2 ≤ s.state.toNat ∧ ∀ nodeState, next = some nodeState → Read s nodeState
  | renewingNN next => (settings.needsHumanOutputInTree = true → s.humanOutput = true) ∧ 2 ≤ s.state.toNat ∧
      ∀ nodeState, next = some nodeState → Read s nodeState
  | counting nodeState found | selecting nodeState found => Read s nodeState ∧ Seen kids nodeState found
  | reading nodeState found => Read s nodeState ∧ Seen kids nodeState found ∧ found.length < kids.length ∧
      found.length < getChildrenCapacity nodeState
  | expanding nodeState childIdx move => Read s nodeState ∧ childIdx ≤ getChildrenCapacity nodeState ∧
      Room settings kids childIdx move
  | yielding => 2 ≤ s.state.toNat
  | making nodeState childIdx move => nodeState.toNat ≤ s.state.toNat ∧ childIdx < getChildrenCapacity nodeState ∧
      Room settings kids childIdx move
  | adding childIdx move child | locking childIdx move child | checking childIdx move child
  | settingMove childIdx move child | storing childIdx move child =>
      childIdx < getChildrenCapacity s.state ∧ Room settings kids childIdx move ∧ child ∈ table
  | unlocking childIdx child | raising childIdx child | visited childIdx child | returned childIdx child =>
      ∃ move, kids[childIdx]? = some (child, move)
  | finding childIdx => childIdx < kids.length
  | failed => False

/-- What the thread relies on while the node waits for it. -/
def Sole (s : SearchNode ν) : PlayoutPhase ν → Prop
  | claiming => s.state = .unevaluated
  | allocating a _ => s.state = a.growing ∧ s.children a = none
  | publishing a _ => s.state = a.growing ∧ (s.children a).isSome = true
  | _ => True

/-- What the thread relies on while it is in the mutex. -/
def Held (s : SearchNode ν) (kids : List (ν × Nat)) : PlayoutPhase ν → Prop
  | settingMove childIdx _ _ => kids.length = childIdx
  | storing childIdx move _ => kids.length = childIdx ∧ s.slot childIdx = some ⟨none, move⟩
  | _ => True

variable {phase : PlayoutPhase ν}

theorem getElem?_later (later : s.Later kids s' kids') {kid : ν × Nat} (here : kids[childIdx]? = some kid) :
    kids'[childIdx]? = some kid := by
  obtain ⟨rest, rfl⟩ := later.kids
  rw [List.getElem?_append_left (List.getElem?_eq_some_iff.mp here).1]
  exact here

theorem Knows.later (knows : phase.Knows settings s kids table) (later : s.Later kids s' kids')
    (more : table ⊆ table') :
    phase.Knows settings s' kids' table' := by
  cases phase with
  | idle | entering | storingHuman | givingUp | abandoning | leaving => trivial
  | storingNN => exact fun needs => later.humanOutput (knows needs)
  | claiming => exact later.nnOutput knows
  | allocating | publishing =>
    exact ⟨later.nnOutput knows.1, fun i m same => ⟨(knows.2 i m same).1, (knows.2 i m same).2.later later.kids⟩⟩
  | renewingHuman => exact ⟨knows.1.trans later.state, fun nodeState same => (knows.2 nodeState same).later later⟩
  | renewingNN =>
    exact ⟨fun needs => later.humanOutput (knows.1 needs), knows.2.1.trans later.state,
      fun nodeState same => (knows.2.2 nodeState same).later later⟩
  | counting | selecting => exact ⟨knows.1.later later, knows.2.later later⟩
  | reading =>
    exact ⟨knows.1.later later, knows.2.1.later later, knows.2.2.1.trans_le later.kids.length_le, knows.2.2.2⟩
  | expanding => exact ⟨knows.1.later later, knows.2.1, knows.2.2.later later.kids⟩
  | yielding => exact Nat.le_trans knows later.state
  | making => exact ⟨knows.1.trans later.state, knows.2.1, knows.2.2.later later.kids⟩
  | adding | locking | checking | settingMove | storing =>
    exact ⟨knows.1.trans_le (capacity_mono later.state), knows.2.1.later later.kids, more knows.2.2⟩
  | unlocking | raising | visited | returned =>
    obtain ⟨move, here⟩ := knows
    exact ⟨move, getElem?_later later here⟩
  | finding => exact knows.trans_le later.kids.length_le
  | failed => exact knows

theorem Sole.of_same (sole : phase.Sole s) (state : s'.state = s.state)
    (arrays : ∀ a, (s'.children a).isSome = (s.children a).isSome) : phase.Sole s' := by
  cases phase with
  | claiming => exact state.trans sole
  | allocating a =>
    refine ⟨state.trans sole.1, ?_⟩
    rw [← Option.not_isSome_iff_eq_none, arrays, sole.2]
    exact Bool.false_ne_true
  | publishing a => exact ⟨state.trans sole.1, (arrays a).trans sole.2⟩
  | _ => trivial

theorem sole_of_not_alone (other : ¬phase.Alone) : phase.Sole s := by
  cases phase with
  | claiming | allocating | publishing => exact absurd trivial other
  | _ => trivial

theorem Held.of_same (held : phase.Held s kids) (slots : ∀ i p, s.slot i = some p → s'.slot i = some p) :
    phase.Held s' kids := by
  cases phase with
  | settingMove => exact held
  | storing => exact ⟨held.1, slots _ _ held.2⟩
  | _ => trivial

theorem held_of_not_holds (other : ¬phase.Holds) : phase.Held s kids := by
  cases phase with
  | settingMove | storing => exact absurd trivial other
  | _ => trivial

end PlayoutPhase

/-- A thread has yet to bring the state of the node forward. -/
def SearchNode.Pending (s : SearchNode ν) : Prop :=
  s.state = .unevaluated ∧ s.nnOutput = true ∨ ∃ a : ChildArray, s.state = a.growing

theorem SearchNode.not_pending_of_done {a : ChildArray} (state : s.state = a.done) : ¬s.Pending := by
  rintro (⟨new, -⟩ | ⟨b, growing⟩)
  · rw [state] at new
    cases a <;> cases new
  · rw [state] at growing
    cases a <;> cases b <;> cases growing

theorem PlayoutPhase.Alone.pending {phase : PlayoutPhase ν} (alone : phase.Alone)
    (knows : phase.Knows settings s kids table)
    (sole : phase.Sole s) : s.Pending := by
  cases phase with
  | claiming => exact .inl ⟨sole, knows⟩
  | allocating a | publishing a => exact .inr ⟨a, sole.1⟩
  | _ => exact absurd alone id

end Knowledge

open PlayoutPhase

section Own

variable {ι ν : Type} {settings : PlayoutSettings} {s s' : SearchTree ι ν} {kids kids' : ν → List (ν × Nat)}
  {l : Playout ν}

/-- The nodes of the search. -/
def SearchTree.Alive (s : SearchTree ι ν) (x : ν) : Prop := x = s.root ∨ x ∈ s.table

/-- What the steps of the threads leave of a tree. -/
structure SearchTree.Grown (s : SearchTree ι ν) (kids : ν → List (ν × Nat)) (s' : SearchTree ι ν)
    (kids' : ν → List (ν × Nat)) :
    Prop where
  root : s'.root = s.root
  table : s.table ⊆ s'.table
  nodes : ∀ x, s.Alive x → (s.nodes x).Later (kids x) (s'.nodes x) (kids' x)

namespace SearchTree.Grown

theorem of_same (root : s'.root = s.root) (table : s'.table = s.table) (nodes : s'.nodes = s.nodes) :
    s.Grown kids s' kids :=
  ⟨root, table ▸ List.Subset.refl _, fun _ _ => nodes ▸ .refl⟩

theorem alive (grown : s.Grown kids s' kids') {x : ν} (here : s.Alive x) : s'.Alive x :=
  here.imp (fun root => root.trans grown.root.symm) fun member => grown.table member

theorem trans {s'' : SearchTree ι ν} {kids'' : ν → List (ν × Nat)} (first : s.Grown kids s' kids')
    (second : s'.Grown kids' s'' kids'') : s.Grown kids s'' kids'' where
  root := second.root.trans first.root
  table _ member := second.table (first.table member)
  nodes x here := (first.nodes x here).trans (second.nodes x (first.alive here))

theorem setNode [DecidableEq ν] {x : ν} {node : SearchNode ν} {kids' : List (ν × Nat)}
    (later : (s.nodes x).Later (kids x) node kids') :
    s.Grown kids (s.setNode x node) (Function.update kids x kids') := by
  refine ⟨rfl, List.Subset.refl _, fun y _ => ?_⟩
  show (s.nodes y).Later (kids y) (Function.update s.nodes x node y) (Function.update kids x kids' y)
  by_cases same : y = x
  · rw [same, Function.update_self, Function.update_self]
    exact later
  · rw [Function.update_of_ne same, Function.update_of_ne same]
    exact .refl

end SearchTree.Grown

/-- What a thread knows of the tree. Its calls follow a path of children down from the root that meets no child twice.
-/
structure Playout.Own (settings : PlayoutSettings) (s : SearchTree ι ν) (kids : ν → List (ν × Nat)) (l : Playout ν) :
    Prop where
  knows : l.phase.Knows settings (s.nodes l.node) (kids l.node) s.table
  sole : l.phase.Sole (s.nodes l.node)
  held : l.phase.Held (s.nodes l.node) (kids l.node)
  path : l.graphPath ++ [s.root] = l.node :: l.outer.map Descent.node
  nodup : l.graphPath.Nodup
  table : ∀ x ∈ l.graphPath, x ∈ s.table
  outer : ∀ d ∈ l.outer, ∃ move, (kids d.node)[d.childIdx]? = some (d.child, move)
  idle : l.phase = .idle → l.outer = []

namespace Playout

/-- How often the thread is counted among the virtual losses of a child. -/
def losses [DecidableEq ν] (l : Playout ν) (x : ν) : Int :=
  l.graphPath.count x + if l.phase.child? = some x then 1 else 0

theorem Own.alive_of_mem (own : l.Own settings s kids) {x : ν} (member : x ∈ l.node :: l.outer.map Descent.node) :
    s.Alive x := by
  rw [← own.path] at member
  rcases List.mem_append.mp member with inner | root
  · exact .inr (own.table x inner)
  · exact .inl (List.mem_singleton.mp root)

theorem Own.alive (own : l.Own settings s kids) : s.Alive l.node := own.alive_of_mem List.mem_cons_self

theorem Own.alive_outer (own : l.Own settings s kids) {d : Descent ν} (member : d ∈ l.outer) : s.Alive d.node :=
  own.alive_of_mem (List.mem_cons_of_mem _ (List.mem_map_of_mem member))

theorem Own.goTo {phase : PlayoutPhase ν} (own : l.Own settings s kids)
    (knows : phase.Knows settings (s.nodes l.node) (kids l.node) s.table) (sole : phase.Sole (s.nodes l.node))
    (held : phase.Held (s.nodes l.node) (kids l.node)) (busy : phase ≠ .idle) : (l.goTo phase).Own settings s kids :=
  { own with knows, sole, held, idle := fun idle => absurd idle busy }

theorem Own.leave (own : l.Own settings s kids) : l.leave.Own settings s kids := by
  obtain ⟨outer, node, phase⟩ := l
  cases outer with
  | nil => exact { own with knows := trivial, sole := trivial, held := trivial, idle := fun _ => rfl }
  | cons d outer =>
    exact {
      knows := own.outer d List.mem_cons_self
      sole := trivial
      held := trivial
      path := (List.cons.inj own.path).2
      nodup := (List.nodup_cons.mp own.nodup).2
      table := fun x member => own.table x (List.mem_cons_of_mem _ member)
      outer := fun e member => own.outer e (List.mem_cons_of_mem _ member)
      idle := fun idle => by cases idle }

theorem losses_leave [DecidableEq ν] (x : ν) : l.leave.losses x = l.graphPath.count x := by
  obtain ⟨outer, node, phase⟩ := l
  cases outer with
  | nil => rfl
  | cons d outer =>
    simp only [Playout.leave, losses, graphPath, child?, List.map_cons, List.count_cons, beq_iff_eq, Option.some.injEq]
    split <;> simp

theorem not_holds_leave : ¬l.leave.phase.Holds := by
  unfold leave
  split <;> exact id

theorem not_alone_leave : ¬l.leave.phase.Alone := by
  unfold leave
  split <;> exact id

/-- What a thread knows survives the steps of others that leave it what it relies on. -/
theorem Own.later (own : l.Own settings s kids) (grown : s.Grown kids s' kids') (sole : l.phase.Sole (s'.nodes l.node))
    (held : l.phase.Held (s'.nodes l.node) (kids' l.node)) : l.Own settings s' kids' where
  knows := own.knows.later (grown.nodes _ own.alive) grown.table
  sole := sole
  held := held
  path := grown.root ▸ own.path
  nodup := own.nodup
  table x member := grown.table (own.table x member)
  outer d member := by
    obtain ⟨move, here⟩ := own.outer d member
    exact ⟨move, getElem?_later (grown.nodes _ (own.alive_outer member)) here⟩
  idle := own.idle

end Playout
end Own
end KataGo.Search
