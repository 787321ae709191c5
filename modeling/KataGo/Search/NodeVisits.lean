import KataGo.Lib.Interleaving

/-! The visits of one node, which all search threads count at once: `maybeCatchUpEdgeVisits`,
`updateStatsAfterPlayout` and `recomputeNodeStats` of `cpp/search`. Of the statistics is kept which edge visits they
were computed from. -/

namespace KataGo.Search
open KataGo.Lib

/-- What the threads share of a node. `counted` holds the edge visits in the last recomputation of the statistics. -/
structure NodeVisits where
  childrenCapacity : Nat
  edgeVisits : List Nat
  dirtyCounter : Int
  visits : Int
  counted : List Nat

/-- What a thread is about to do at the node. -/
inductive Visitor where
  | idle
  | catchingUp (childIdx childVisits edgeVisits : Nat)
  | announcing (childIdx : Nat)
  | starting (numVisitsCompleted : Int)
  | recomputing (numVisitsCompleted : Int) (childrenCapacity : Nat) (seen : List Nat)
  | storing (numVisitsCompleted : Int) (seen : List Nat)
  | undoing (numVisitsCompleted : Int)
  | failed
  deriving DecidableEq

/-- What a thread can begin to do at the node: `begin` says how. -/
inductive Visit where
  | grow (childrenCapacity : Nat)
  | newChild
  | leaf
  | descended (childIdx : Nat)
  | catchUp (childIdx childVisits : Nat)
  deriving DecidableEq

/-- What the rest of the search decides: what a thread begins to do, and whether a weak exchange fails although
nothing has changed. -/
inductive VisitChoice where
  | start (visit : Visit)
  | go
  | spurious
  deriving DecidableEq

namespace NodeVisits

/-- `addEdgeVisits(1)` -/
def addEdgeVisit (s : NodeVisits) (childIdx : Nat) : NodeVisits :=
  { s with edgeVisits := s.edgeVisits.modify childIdx (· + 1) }

/-- The node grows or gets a child, a playout ends at the node or has come back from a child, or
`maybeCatchUpEdgeVisits` looks at one. -/
def begin (s : NodeVisits) : Visit → Option (NodeVisits × Visitor)
  | .grow childrenCapacity =>
      if s.childrenCapacity < childrenCapacity then some ({ s with childrenCapacity }, .idle) else none
  | .newChild =>
      if s.edgeVisits.length < s.childrenCapacity then some ({ s with edgeVisits := s.edgeVisits ++ [0] }, .idle)
      else none
  | .leaf => some ({ s with visits := s.visits + 1 }, .idle)
  | .descended childIdx =>
      if childIdx < s.edgeVisits.length then some (s.addEdgeVisit childIdx, .announcing childIdx) else none
  | .catchUp childIdx childVisits => s.edgeVisits[childIdx]?.map fun edgeVisits =>
      (s, .catchingUp childIdx childVisits edgeVisits)

/-- The next step of a thread that has begun. -/
def advance (spurious : Bool) (s : NodeVisits) : Visitor → Option (NodeVisits × Visitor)
  | .idle | .failed => none
  | .catchingUp childIdx childVisits edgeVisits =>
      if edgeVisits ≥ childVisits then some (s, .idle)
      else if s.edgeVisits[childIdx]? = some edgeVisits ∧ spurious = false then
        some (s.addEdgeVisit childIdx, .announcing childIdx)
      else s.edgeVisits[childIdx]?.map fun edgeVisits => (s, .catchingUp childIdx childVisits edgeVisits)
  | .announcing _ =>
      let oldDirtyCounter := s.dirtyCounter
      let s := { s with dirtyCounter := oldDirtyCounter + 1 }
      if oldDirtyCounter < 0 then some (s, .failed)
      else if oldDirtyCounter > 0 then some (s, .idle)
      else some (s, .starting 1)
  | .starting numVisitsCompleted => some (s, .recomputing numVisitsCompleted s.childrenCapacity [])
  | .recomputing numVisitsCompleted childrenCapacity seen =>
      if seen.length < childrenCapacity then
        match s.edgeVisits[seen.length]? with
        | some edgeVisits => some (s, .recomputing numVisitsCompleted childrenCapacity (seen ++ [edgeVisits]))
        | none => some (s, .storing numVisitsCompleted seen)
      else some (s, .storing numVisitsCompleted seen)
  | .storing numVisitsCompleted seen =>
      some ({ s with counted := seen, visits := s.visits + numVisitsCompleted }, .undoing numVisitsCompleted)
  | .undoing numVisitsCompleted =>
      let newDirtyCounter := s.dirtyCounter - numVisitsCompleted
      let s := { s with dirtyCounter := newDirtyCounter }
      if newDirtyCounter ≤ 0 then some (s, if newDirtyCounter = 0 then .idle else .failed)
      else some (s, .starting newDirtyCounter)

def act {ι : Type} (_thread : ι) (choice : VisitChoice) (s : NodeVisits) (l : Visitor) :
    Option (NodeVisits × Visitor) :=
  match choice with
  | .start visit => if l = .idle then s.begin visit else none
  | .go => s.advance false l
  | .spurious => s.advance true l

/-- The number of visits of a child that is not there is zero. -/
def edge (s : NodeVisits) (childIdx : Nat) : Nat := s.edgeVisits.getD childIdx 0

end NodeVisits

namespace Visitor

/-- The visits that a thread has taken over, between its two changes to the counter. -/
def completed : Visitor → Option Int
  | starting numVisitsCompleted | recomputing numVisitsCompleted _ _ | storing numVisitsCompleted _
  | undoing numVisitsCompleted => some numVisitsCompleted
  | _ => none

def updates (l : Visitor) : Nat := if l.completed.isSome then 1 else 0

/-- Whether the thread has counted the visit of an edge that it has not announced yet. -/
def announces (childIdx : Nat) (l : Visitor) : Nat := if l = announcing childIdx then 1 else 0

/-- What the counter of the node still lacks of the visits of its edges. -/
def owes : Visitor → Int
  | announcing _ => 1
  | undoing numVisitsCompleted => -numVisitsCompleted
  | _ => 0

end Visitor
end KataGo.Search
