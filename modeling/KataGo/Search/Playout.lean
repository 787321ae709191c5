import KataGo.Lib.Interleaving
import KataGo.Search.SearchNode

/-! The playouts of all search threads at once: `Search::runSinglePlayout`, `playoutDescend` and `allocateOrFindNode`
of `cpp/search/search.cpp`, and what they call of `searchnode.cpp`. Of a playout is kept what it does to the tree; the
rest of the search decides which move it makes. -/

namespace KataGo.Search
open KataGo.Lib SearchChildrenSizes

/-- What stays the same during a search. -/
structure PlayoutSettings where
  policySize : Nat
  fits : policySize ≤ maxNNPolicySize
  needsHumanOutputInTree : Bool
  needsHumanOutputAtRoot : Bool

/-- What the search threads share. -/
structure SearchTree (ι ν : Type) where
  root : ν
  nodes : ν → SearchNode ν
  table : List ν
  mutexes : Nat → Option ι
  virtualLosses : ν → Int

/-- What a thread is about to do in `playoutDescend`. A state of the node that it has read is an argument, and so is
what it has found of the children, the index of the child that it chose, the move, and the child. -/
inductive PlayoutPhase (ν : Type) where
  | idle
  | entering
  | storingHuman
  | storingNN
  | claiming
  | allocating (a : ChildArray) (next : Option (Nat × Nat))
  | publishing (a : ChildArray) (next : Option (Nat × Nat))
  | renewingHuman (next : Option SearchNodeState)
  | renewingNN (next : Option SearchNodeState)
  | counting (nodeState : SearchNodeState) (found : List Nat)
  | reading (nodeState : SearchNodeState) (found : List Nat)
  | selecting (nodeState : SearchNodeState) (found : List Nat)
  | expanding (nodeState : SearchNodeState) (childIdx move : Nat)
  | yielding
  | making (nodeState : SearchNodeState) (childIdx move : Nat)
  | adding (childIdx move : Nat) (child : ν)
  | locking (childIdx move : Nat) (child : ν)
  | checking (childIdx move : Nat) (child : ν)
  | settingMove (childIdx move : Nat) (child : ν)
  | storing (childIdx move : Nat) (child : ν)
  | unlocking (childIdx : Nat) (child : ν)
  | givingUp (child : ν)
  | abandoning
  | finding (childIdx : Nat)
  | raising (childIdx : Nat) (child : ν)
  | visited (childIdx : Nat) (child : ν)
  | returned (childIdx : Nat) (child : ν)
  | leaving (child : ν)
  | failed
  deriving DecidableEq

/-- A call that waits for the call at a child. -/
structure Descent (ν : Type) where
  node : ν
  childIdx : Nat
  child : ν

/-- The innermost call of a thread, and the calls around it. -/
structure Playout (ν : Type) where
  outer : List (Descent ν)
  node : ν
  phase : PlayoutPhase ν

/-- What the rest of the search decides. A playout gives up at the end of a game, where there is no move, and where it
need not go on to the child; it renews the network's output where that lacks something or allows a move that is not
legal. -/
inductive PlayoutChoice (ν : Type) where
  | go
  | giveUp
  | renew
  | explore (childIdx : Nat)
  | expand (move : Nat)
  | allocate (child : ν) (mutexIdx : Nat)
  deriving DecidableEq

namespace SearchTree

variable {ι ν : Type} [DecidableEq ν]

def setNode (s : SearchTree ι ν) (x : ν) (node : SearchNode ν) : SearchTree ι ν :=
  { s with nodes := Function.update s.nodes x node }

def addVirtualLoss (s : SearchTree ι ν) (child : ν) (delta : Int) : SearchTree ι ν :=
  { s with virtualLosses := Function.update s.virtualLosses child (s.virtualLosses child + delta) }

def setMutex (s : SearchTree ι ν) (mutexIdx : Nat) (holder : Option ι) : SearchTree ι ν :=
  { s with mutexes := Function.update s.mutexes mutexIdx holder }

/-- `allocateOrFindNode`, when it makes a new node. -/
def insert (s : SearchTree ι ν) (child : ν) (mutexIdx : Nat) : SearchTree ι ν :=
  { s.setNode child (.new mutexIdx) with table := child :: s.table }

end SearchTree

namespace Playout

variable {ι ν : Type} [DecidableEq ν]

def goTo (l : Playout ν) (phase : PlayoutPhase ν) : Playout ν := { l with phase }

/-- The call ends. -/
def leave (l : Playout ν) : Playout ν :=
  match l.outer with
  | [] => l.goTo .idle
  | d :: outer => ⟨outer, d.node, .returned d.childIdx d.child⟩

/-- `thread.graphPath` -/
def graphPath (l : Playout ν) : List ν := l.outer.map Descent.child

/-- `tryExpandingChildrenCapacityAssumeFull`, up to the exchange of the state. -/
def tryExpanding (s : SearchTree ι ν) (l : Playout ν) (nodeState : SearchNodeState) (childIdx move : Nat) :
    SearchTree ι ν × Playout ν :=
  let node := s.nodes l.node
  let expand (a : ChildArray) :=
    if nodeState = a.growing then (s, l.goTo .yielding)
    else if nodeState ≠ a.before then (s, l.goTo .failed)
    else if node.state = nodeState then
      (s.setNode l.node { node with state := a.growing }, l.goTo (.allocating a (some (childIdx, move))))
    else (s, l.goTo .yielding)
  if nodeState.toNat < SearchNodeState.expanded1.toNat then expand .children1
  else if nodeState.toNat < SearchNodeState.expanded2.toNat then expand .children2
  else (s, l.goTo .failed)

def act (settings : PlayoutSettings) [DecidableEq ι] (t : ι) (choice : PlayoutChoice ν) (s : SearchTree ι ν)
    (l : Playout ν) :
    Option (SearchTree ι ν × Playout ν) :=
  let node := s.nodes l.node
  let needsHuman := settings.needsHumanOutputInTree || (l.outer.isEmpty && settings.needsHumanOutputAtRoot)
  match l.phase with
  | .failed => none
  | .idle => some (s, ⟨[], s.root, .entering⟩)
  | .entering =>
      if choice = .giveUp then some (s, l.leave)
      else if node.state = .unevaluated then some (s, l.goTo (if needsHuman then .storingHuman else .storingNN))
      else if node.state = .evaluating then some (s, l.leave)
      else if choice = .renew then
        some (s, l.goTo (if needsHuman then .renewingHuman (some node.state) else .renewingNN (some node.state)))
      else some (s, l.goTo (.counting node.state []))
  -- `initNodeNNOutput`
  | .storingHuman => some (s.setNode l.node { node with humanOutput := true }, l.goTo .storingNN)
  | .storingNN =>
      if node.nnOutput then some (s, l.leave)
      else some (s.setNode l.node { node with nnOutput := true }, l.goTo .claiming)
  | .claiming =>
      if node.state = .unevaluated then
        some (s.setNode l.node { node with state := .evaluating }, l.goTo (.allocating .children0 none))
      else some (s, l.leave)
  | .allocating a next =>
      if (node.children a).isSome then some (s, l.goTo .failed)
      else some (s.setNode l.node (node.allocate a), l.goTo (.publishing a next))
  | .publishing a next =>
      let s := s.setNode l.node { node with state := a.done }
      match next with
      | none => some (s, l.leave)
      | some (childIdx, move) => some (s, l.goTo (.making a.done childIdx move))
  | .renewingHuman next => some (s.setNode l.node { node with humanOutput := true }, l.goTo (.renewingNN next))
  | .renewingNN next =>
      let s := s.setNode l.node { node with nnOutput := true }
      match next with
      | none => some (s, l.leave)
      | some nodeState => some (s, l.goTo (.counting nodeState []))
  -- `selectBestChildToDescend`
  | .counting nodeState found =>
      if !node.nnOutput then some (s, l.goTo .failed)
      else if getChildrenCapacity nodeState ≤ found.length then some (s, l.goTo (.selecting nodeState found))
      else match node.slot found.length with
        | none => some (s, l.goTo .failed)
        | some p => some (s, l.goTo (if p.data.isSome then .reading nodeState found else .selecting nodeState found))
  | .reading nodeState found =>
      match node.slot found.length with
      | none => some (s, l.goTo .failed)
      | some p => some (s, l.goTo (.counting nodeState (found ++ [p.movePos])))
  | .selecting nodeState found =>
      match choice with
      | .giveUp => some (s, l.leave)
      | .renew => some (s, l.goTo (if needsHuman then .renewingHuman none else .renewingNN none))
      | .explore childIdx => if childIdx < found.length then some (s, l.goTo (.finding childIdx)) else none
      | .expand move =>
          if move < settings.policySize ∧ move ∉ found then
            some (s, l.goTo (.expanding nodeState found.length move))
          else none
      | .go | .allocate _ _ => none
  -- `maybeExpandChildrenCapacityForNewChild`
  | .expanding nodeState childIdx move =>
      if maxNNPolicySize ≤ childIdx then some (s, l.goTo .failed)
      else if childIdx < getChildrenCapacity nodeState then some (s, l.goTo (.making nodeState childIdx move))
      else if getChildrenCapacity nodeState ≠ childIdx then some (s, l.goTo .failed)
      else some (tryExpanding s l nodeState childIdx move)
  | .yielding => some (s, l.goTo (.counting node.state []))
  | .making nodeState childIdx move =>
      if getChildrenCapacity nodeState ≤ childIdx then some (s, l.goTo .failed)
      else match choice with
        | .allocate child mutexIdx =>
            if child ∈ s.table then some (s, l.goTo (.adding childIdx move child))
            else if child = s.root then none
            else some (s.insert child mutexIdx, l.goTo (.adding childIdx move child))
        | _ => none
  | .adding childIdx move child => some (s.addVirtualLoss child 1, l.goTo (.locking childIdx move child))
  | .locking childIdx move child =>
      if s.mutexes node.mutexIdx = none then
        some (s.setMutex node.mutexIdx (some t), l.goTo (.checking childIdx move child))
      else none
  | .checking childIdx move child =>
      match node.slot childIdx with
      | none => some (s, l.goTo .failed)
      | some p => some (s, l.goTo (if p.data.isSome then .givingUp child else .settingMove childIdx move child))
  | .settingMove childIdx move child =>
      match node.slot childIdx with
      | none => some (s, l.goTo .failed)
      | some p =>
          let s := s.setNode l.node (node.setSlot childIdx { p with movePos := move })
          some (s, l.goTo (.storing childIdx move child))
  | .storing childIdx _ child =>
      match node.slot childIdx with
      | none => some (s, l.goTo .failed)
      | some p =>
          let s := s.setNode l.node (node.setSlot childIdx { p with data := some child })
          some (s, l.goTo (.unlocking childIdx child))
  | .unlocking childIdx child => some (s.setMutex node.mutexIdx none, l.goTo (.visited childIdx child))
  | .givingUp child => some (s.addVirtualLoss child (-1), l.goTo .abandoning)
  | .abandoning => some (s.setMutex node.mutexIdx none, l.leave)
  | .finding childIdx =>
      match (node.slot childIdx).bind SearchChildPointer.data with
      | none => some (s, l.goTo .failed)
      | some child => some (s, l.goTo (.raising childIdx child))
  | .raising childIdx child => some (s.addVirtualLoss child 1, l.goTo (.visited childIdx child))
  -- `maybeCatchUpEdgeVisits`, and whether the child is on the path already
  | .visited childIdx child =>
      if (node.slot childIdx).isNone then some (s, l.goTo .failed)
      else if choice = .giveUp ∨ child ∈ l.graphPath then some (s, l.goTo (.leaving child))
      else some (s, ⟨⟨l.node, childIdx, child⟩ :: l.outer, child, .entering⟩)
  | .returned childIdx child => some (s, l.goTo (if (node.slot childIdx).isNone then .failed else .leaving child))
  | .leaving child => some (s.addVirtualLoss child (-1), l.leave)

end Playout
end KataGo.Search
