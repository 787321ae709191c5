import KataGo.Lib.Interleaving
import Mathlib.Data.Finset.Basic
import Mathlib.Logic.Relation
import Mathlib.Order.Lattice.Nat

/-! The walks of all search threads at once over the tree, which may be a graph with cycles:
`Search::applyRecursivelyPostOrderMulithreaded` and `Search::applyRecursivelyAnyOrderMulithreaded` of
`cpp/search/searchmultithreadhelpers.cpp`. -/

namespace KataGo.Search
open KataGo.Lib

/-- `PCG32` of `cpp/core/rand_helpers.h` -/
structure PCG32 where
  s : UInt64
  deriving DecidableEq

def PCG32.nextUInt (rand : PCG32) : UInt32 × PCG32 :=
  let s := rand.s * 6364136223846793005 + 1442695040888963407
  let x := (((s >>> 18) ^^^ s) >>> 27).toUInt32
  let rot := (s >>> 59).toUInt32
  (if rot = 0 then x else (x >>> rot) ||| (x <<< (32 - rot)), ⟨s⟩)

/-- `maybeAppendShuffledIntRange`: the order in which a thread goes through `cap` children. Without a generator it is
their own order. -/
def shuffledIntRange (cap : Nat) : Option PCG32 → Array Nat × Option PCG32
  | none => (Array.range cap, none)
  | some rand =>
      let shuffled := (List.range' 1 (cap - 1)).foldl (fun (s : Array Nat × PCG32) i =>
        let drawn := s.2.nextUInt
        (s.1.swapIfInBounds i (drawn.1.toNat % (i + 1)), drawn.2)) (Array.range cap, rand)
      (shuffled.1, some shuffled.2)

/-- The nodes of a search with their children. The pool has a mutex for each index. -/
structure Tree (V : Type) where
  children : V → List V
  mutexIdx : V → UInt32

/-- What the threads share: the age of each node, who holds the mutexes of the pool, and the calls of `f` so far. -/
structure Marks (ι V : Type) where
  nodeAge : V → UInt32
  holder : UInt32 → Option ι
  calls : List (V × ι)

/-- A call of the helper that is in its loop over the children. -/
structure Call (V : Type) where
  node : V
  rest : List V

/-- What a thread does next: it goes on with its innermost loop, it comes to the end of a call of the helper, or it
calls `f`. -/
inductive Phase (V : Type) where
  | walking
  | leaving (node : V)
  | acting (node : V)
  deriving DecidableEq

/-- A thread in `g`, with the nodes it still has to start from and its calls of the helper, innermost first. -/
structure Walker (V : Type) where
  todo : List V
  calls : List (Call V)
  nodeBuf : Finset V
  rand : Option PCG32
  phase : Phase V

inductive Order where
  | postOrder
  | anyOrder
  deriving DecidableEq

/-- The nodes in the order in which a thread takes them. -/
def shuffle {V : Type} (nodes : List V) (rand : Option PCG32) : List V × Option PCG32 :=
  let shuffled := shuffledIntRange nodes.length rand
  (shuffled.1.toList.filterMap fun childIdx => nodes[childIdx]?, shuffled.2)

/-- The end of the helper for any order: whoever is the first to change the age calls `f`. -/
def endAnyOrder {ι V : Type} [DecidableEq V] (searchNodeAge : UInt32) (t : ι) (s : Marks ι V) (w : Walker V) :
    Option (Marks ι V × Walker V) :=
  match w.phase with
  | .leaving node => some ({ s with nodeAge := Function.update s.nodeAge node searchNodeAge },
      { w with phase := if s.nodeAge node = searchNodeAge then .walking else .acting node })
  | .acting node => some ({ s with calls := s.calls ++ [(node, t)] }, { w with phase := .walking })
  | .walking => none

/-- All threads are at the start of `g`. -/
def startWalk {ι V : Type} (nodeAge : V → UInt32) (nodes : List V) (rands : ι → Option PCG32) :
    Threads ι (Marks ι V) (Walker V) where
  shared := ⟨nodeAge, fun _ => none, []⟩
  locals t :=
    let shuffled := shuffle nodes (rands t)
    ⟨shuffled.1, [], ∅, shuffled.2, .walking⟩

namespace Tree

variable {ι V : Type} [DecidableEq V] (tree : Tree V) (searchNodeAge : UInt32)

/-- The helper is called with a node. -/
def visit (nodeAge : V → UInt32) (w : Walker V) (node : V) : Walker V :=
  if nodeAge node = searchNodeAge then w
  else if node ∈ w.nodeBuf then w
  else if 0 < (tree.children node).length then
    let shuffled := shuffle (tree.children node) w.rand
    { w with calls := ⟨node, shuffled.1⟩ :: w.calls, nodeBuf := insert node w.nodeBuf, rand := shuffled.2 }
  else { w with phase := .leaving node }

/-- A thread goes on with its innermost loop. It has ended when there is none. -/
def walk (nodeAge : V → UInt32) (w : Walker V) : Option (Walker V) :=
  match w.calls with
  | [] =>
      match w.todo with
      | [] => none
      | node :: todo => some (tree.visit searchNodeAge nodeAge { w with todo } node)
  | ⟨node, []⟩ :: calls => some { w with calls, nodeBuf := w.nodeBuf.erase node, phase := .leaving node }
  | ⟨node, child :: rest⟩ :: calls =>
      some (tree.visit searchNodeAge nodeAge { w with calls := ⟨node, rest⟩ :: calls } child)

/-- The end of the helper for post order: `f` is called, and the age changed, under the mutex of the node. -/
def endPostOrder (t : ι) (s : Marks ι V) (w : Walker V) : Option (Marks ι V × Walker V) :=
  match w.phase with
  | .leaving node =>
      if s.holder (tree.mutexIdx node) = none then
        some ({ s with holder := Function.update s.holder (tree.mutexIdx node) (some t) },
          { w with phase := .acting node })
      else none
  | .acting node =>
      let s := if s.nodeAge node = searchNodeAge then s
        else { s with calls := s.calls ++ [(node, t)], nodeAge := Function.update s.nodeAge node searchNodeAge }
      some ({ s with holder := Function.update s.holder (tree.mutexIdx node) none }, { w with phase := .walking })
  | .walking => none

/-- The next step of a thread. -/
def act (order : Order) (t : ι) (_ : Unit) (s : Marks ι V) (w : Walker V) : Option (Marks ι V × Walker V) :=
  match w.phase with
  | .walking => (tree.walk searchNodeAge s.nodeAge w).map fun w => (s, w)
  | _ =>
      match order with
      | .postOrder => tree.endPostOrder searchNodeAge t s w
      | .anyOrder => endAnyOrder searchNodeAge t s w

/-- Threads that take their steps in the order of a schedule; thread 0 is the one that has called. -/
def applyRecursively (order : Order) (nodeAge : V → UInt32) (nodes : List V) {numAdditionalThreads : Nat}
    (rands : Fin (numAdditionalThreads + 1) → Option PCG32) (schedule : List (Fin (numAdditionalThreads + 1))) :
    Option (Threads (Fin (numAdditionalThreads + 1)) (Marks (Fin (numAdditionalThreads + 1)) V) (Walker V)) :=
  Threads.run (tree.act (searchNodeAge + 1) order) (startWalk nodeAge nodes rands) (schedule.map fun t => (t, ()))

def applyRecursivelyPostOrderMulithreaded (nodeAge : V → UInt32) (nodes : List V) {numAdditionalThreads : Nat}
    (rands : Fin (numAdditionalThreads + 1) → Option PCG32) (schedule : List (Fin (numAdditionalThreads + 1))) :=
  tree.applyRecursively searchNodeAge .postOrder nodeAge nodes rands schedule

def applyRecursivelyAnyOrderMulithreaded (nodeAge : V → UInt32) (nodes : List V) {numAdditionalThreads : Nat}
    (rands : Fin (numAdditionalThreads + 1) → Option PCG32) (schedule : List (Fin (numAdditionalThreads + 1))) :=
  tree.applyRecursively searchNodeAge .anyOrder nodeAge nodes rands schedule

end Tree

/-- A thread that has returned from `g`. -/
structure Walker.Ended {V : Type} (w : Walker V) : Prop where
  todo : w.todo = []
  calls : w.calls = []
  phase : w.phase = .walking

end KataGo.Search
