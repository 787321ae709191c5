import KataGo.Search.Traversal

/-! What one step of one thread does, and what a thread knows of its own walk. -/

namespace KataGo.Search
open KataGo.Lib

section Shuffle

theorem perm_swapIfInBounds {α : Type} (a : Array α) (i j : Nat) : (a.swapIfInBounds i j).toList.Perm a.toList := by
  unfold Array.swapIfInBounds
  split_ifs with first second
  · exact Array.perm_iff_toList_perm.mp (Array.swap_perm first second)
  · exact .refl _
  · exact .refl _

theorem perm_shuffledIntRange (cap : Nat) (rand : Option PCG32) :
    (shuffledIntRange cap rand).1.toList.Perm (List.range cap) := by
  cases rand with
  | none => simp [shuffledIntRange]
  | some rand =>
    have general : ∀ (l : List Nat) (s : Array Nat × PCG32), (l.foldl (fun (s : Array Nat × PCG32) i =>
        let drawn := s.2.nextUInt
        (s.1.swapIfInBounds i (drawn.1.toNat % (i + 1)), drawn.2)) s).1.toList.Perm s.1.toList := by
      intro l
      induction l with
      | nil => exact fun s => .refl _
      | cons i l ih => exact fun s => (ih _).trans (perm_swapIfInBounds ..)
    have shuffled := general (List.range' 1 (cap - 1)) (Array.range cap, rand)
    simpa [shuffledIntRange] using shuffled

theorem filterMap_range {V : Type} (nodes : List V) :
    (List.range nodes.length).filterMap (fun i => nodes[i]?) = nodes := by
  induction nodes using List.reverseRecOn with
  | nil => rfl
  | append_singleton nodes node ih =>
    have before : (List.range nodes.length).filterMap (fun i => (nodes ++ [node])[i]?) = nodes := by
      rw [← List.filterMap_congr fun i member => (List.getElem?_append_left (List.mem_range.mp member)).symm]
      exact ih
    rw [List.length_append, List.length_singleton, List.range_succ, List.filterMap_append, before]
    simp

/-- A thread takes each of the nodes as often as it stands there. -/
theorem perm_shuffle {V : Type} (nodes : List V) (rand : Option PCG32) : (shuffle nodes rand).1.Perm nodes := by
  have shuffled := (perm_shuffledIntRange nodes.length rand).filterMap fun childIdx => nodes[childIdx]?
  rw [filterMap_range] at shuffled
  exact shuffled

end Shuffle

variable {ι V : Type} {tree : Tree V} {searchNodeAge : UInt32} {nodes : List V}

namespace Tree

/-- The nodes that can be reached. -/
def Reached (tree : Tree V) (nodes : List V) (v : V) : Prop :=
  ∃ root ∈ nodes, Relation.ReflTransGen (fun parent child => child ∈ tree.children parent) root v

/-- The calls of the helper on a thread's stack, each made by the one below it, with the node `above` that the
innermost call has just handed on. -/
def Explored (tree : Tree V) (done : V → Prop) : Option V → List (Call V) → Prop
  | _, [] => True
  | above, call :: calls =>
      (∀ child ∈ tree.children call.node,
        child ∈ call.rest ∨ done child ∨ above = some child ∨ child ∈ (call :: calls).map Call.node) ∧
      tree.Explored done (some call.node) calls

variable {done done' : V → Prop} {above : Option V} {calls : List (Call V)} {node : V}

theorem Explored.mono (explored : tree.Explored done above calls) (more : ∀ v, done v → done' v) :
    tree.Explored done' above calls := by
  induction calls generalizing above with
  | nil => trivial
  | cons call calls ih =>
    refine ⟨fun child member => ?_, ih explored.2⟩
    rcases explored.1 child member with waits | marked | rest
    · exact .inl waits
    · exact .inr (.inl (more child marked))
    · exact .inr (.inr rest)

/-- The node that has been handed on is done. -/
theorem Explored.finish (explored : tree.Explored done (some node) calls) (marked : done node) :
    tree.Explored done none calls := by
  cases calls with
  | nil => trivial
  | cons call calls =>
    refine ⟨fun child member => ?_, explored.2⟩
    rcases explored.1 child member with waits | before | same | below
    · exact .inl waits
    · exact .inr (.inl before)
    · cases same
      exact .inr (.inl marked)
    · exact .inr (.inr (.inr below))

/-- The node that has been handed on is being walked already. -/
theorem Explored.cycle (explored : tree.Explored done (some node) calls) (below : node ∈ calls.map Call.node) :
    tree.Explored done none calls := by
  cases calls with
  | nil => trivial
  | cons call calls =>
    refine ⟨fun child member => ?_, explored.2⟩
    rcases explored.1 child member with waits | before | same | deeper
    · exact .inl waits
    · exact .inr (.inl before)
    · cases same
      exact .inr (.inr (.inr below))
    · exact .inr (.inr (.inr deeper))

end Tree

namespace Walker

/-- The node whose call of the helper comes to its end. -/
def above (w : Walker V) : Option V :=
  match w.phase with
  | .walking => none
  | .leaving node => some node
  | .acting node => some node

/-- The nodes whose calls have not returned, innermost first. -/
def path (above : Option V) (w : Walker V) : List V := above.toList ++ w.calls.map Call.node

/-- Where a thread stands in its walk, with a node that is handed on. -/
structure Standing (tree : Tree V) (nodes : List V) (done : V → Prop) (above : Option V) (w : Walker V) : Prop where
  buf : ∀ v, v ∈ w.nodeBuf ↔ v ∈ w.calls.map Call.node
  nodup : (w.calls.map Call.node).Nodup
  rest : ∀ call ∈ w.calls, ∀ child ∈ call.rest, child ∈ tree.children call.node
  started : ∀ v ∈ w.todo, v ∈ nodes
  chain : List.IsChain (fun child parent => child ∈ tree.children parent) (w.path above)
  root : ∀ v ∈ (w.path above).getLast?, v ∈ nodes
  todo : ∀ v ∈ nodes, v ∈ w.todo ∨ done v ∨ v ∈ (w.path above).getLast?
  explored : tree.Explored done above w.calls

/-- A thread's own invariant. -/
structure Sound (tree : Tree V) (nodes : List V) (done : V → Prop) (w : Walker V) : Prop
    extends Standing tree nodes done w.above w where
  left : ∀ v ∈ w.above, ∀ child ∈ tree.children v, done child ∨ child ∈ w.path w.above

variable {w w' : Walker V} {done done' : V → Prop} {node : V}

theorem Standing.mono {above : Option V} (standing : w.Standing tree nodes done above) (more : ∀ v, done v → done' v) :
    w.Standing tree nodes done' above where
  buf := standing.buf
  nodup := standing.nodup
  rest := standing.rest
  started := standing.started
  chain := standing.chain
  root := standing.root
  todo v member := (standing.todo v member).imp id (Or.imp (more v) id)
  explored := standing.explored.mono more

theorem Sound.mono (sound : w.Sound tree nodes done) (more : ∀ v, done v → done' v) : w.Sound tree nodes done' where
  toStanding := sound.toStanding.mono more
  left v here child member := (sound.left v here child member).imp (more child) id

/-- The node that has been handed on is done. -/
theorem Standing.finish (standing : w.Standing tree nodes done (some node)) (marked : done node) :
    w.Standing tree nodes done none where
  buf := standing.buf
  nodup := standing.nodup
  rest := standing.rest
  started := standing.started
  chain := standing.chain.tail
  root v last := by
    apply standing.root v
    show v ∈ (node :: w.calls.map Call.node).getLast?
    cases nodesBelow : w.calls.map Call.node with
    | nil =>
      rw [path, nodesBelow] at last
      cases last
    | cons below rest =>
      rw [path, nodesBelow] at last
      exact last
  todo v member := by
    rcases standing.todo v member with waits | before | last
    · exact .inl waits
    · exact .inr (.inl before)
    · cases nodesBelow : w.calls.map Call.node with
      | nil =>
        have same : node = v := by simpa [path, nodesBelow] using last
        exact .inr (.inl (same ▸ marked))
      | cons below rest =>
        refine .inr (.inr ?_)
        rw [path, nodesBelow] at last ⊢
        exact last
  explored := standing.explored.finish marked

/-- The node that has been handed on is being walked already. -/
theorem Standing.cycle (standing : w.Standing tree nodes done (some node)) (below : node ∈ w.calls.map Call.node) :
    w.Standing tree nodes done none := by
  have last : (w.path (some node)).getLast? = (w.path none).getLast? := by
    cases nodesBelow : w.calls.map Call.node with
    | nil =>
      rw [nodesBelow] at below
      cases below
    | cons below rest =>
      simp [path, nodesBelow]
  exact
    { buf := standing.buf
      nodup := standing.nodup
      rest := standing.rest
      started := standing.started
      chain := standing.chain.tail
      root := last ▸ standing.root
      todo := last ▸ standing.todo
      explored := standing.explored.cycle below }

/-- The walker goes on after the end of a call. -/
theorem Sound.finish (sound : w.Sound tree nodes done) (here : w.above = some node) (marked : done node) :
    ({ w with phase := .walking } : Walker V).Sound tree nodes done := by
  have standing : w.Standing tree nodes done (some node) := here ▸ sound.toStanding
  have ended := standing.finish marked
  exact
    { buf := ended.buf
      nodup := ended.nodup
      rest := ended.rest
      started := ended.started
      chain := ended.chain
      root := ended.root
      todo := ended.todo
      explored := ended.explored
      left := fun _ none => nomatch none }

theorem Sound.phase {phase : Phase V} (sound : w.Sound tree nodes done)
    (same : ({ w with phase } : Walker V).above = w.above) : ({ w with phase } : Walker V).Sound tree nodes done where
  buf := sound.buf
  nodup := sound.nodup
  rest := sound.rest
  started := sound.started
  chain := same.symm ▸ sound.chain
  root := same.symm ▸ sound.root
  todo := same.symm ▸ sound.todo
  explored := same.symm ▸ sound.explored
  left := same.symm ▸ sound.left

theorem Standing.walking (standing : w.Standing tree nodes done none) (walking : w.phase = .walking) :
    w.Sound tree nodes done := by
  have here : w.above = none := by rw [above, walking]
  exact
    { toStanding := here ▸ standing
      left := fun v found => by
        rw [here] at found
        cases found }

variable [DecidableEq V] {nodeAge : V → UInt32}

theorem visit_sound (standing : w.Standing tree nodes (fun v => nodeAge v = searchNodeAge) (some node))
    (walking : w.phase = .walking) :
    (tree.visit searchNodeAge nodeAge w node).Sound tree nodes fun v => nodeAge v = searchNodeAge := by
  unfold Tree.visit
  split_ifs with marked cycle inner
  · exact (standing.finish marked).walking walking
  · exact (standing.cycle ((standing.buf node).mp cycle)).walking walking
  · have perm := perm_shuffle (tree.children node) w.rand
    refine Standing.walking ?_ walking
    exact
      { buf := fun v => by
          show v ∈ insert node w.nodeBuf ↔ v ∈ node :: w.calls.map Call.node
          rw [Finset.mem_insert, standing.buf v, List.mem_cons]
        nodup := List.nodup_cons.mpr ⟨fun below => cycle ((standing.buf node).mpr below), standing.nodup⟩
        rest := fun call member child waits => by
          rcases List.mem_cons.mp member with same | below
          · rw [same] at waits ⊢
            exact perm.mem_iff.mp waits
          · exact standing.rest call below child waits
        started := standing.started
        chain := standing.chain
        root := standing.root
        todo := standing.todo
        explored := ⟨fun child member => .inl (perm.mem_iff.mpr member), standing.explored⟩ }
  · have leaf : tree.children node = [] := List.length_eq_zero_iff.mp (Nat.eq_zero_of_not_pos inner)
    exact
      { buf := standing.buf
        nodup := standing.nodup
        rest := standing.rest
        started := standing.started
        chain := standing.chain
        root := standing.root
        todo := standing.todo
        explored := standing.explored
        left := fun v here child member => by
          cases here
          rw [leaf] at member
          cases member }

/-- Going on keeps the invariant, and nothing leaves the path. -/
theorem walk_sound (sound : w.Sound tree nodes fun v => nodeAge v = searchNodeAge) (walking : w.phase = .walking)
    (walked : tree.walk searchNodeAge nodeAge w = some w') :
    w'.Sound tree nodes fun v => nodeAge v = searchNodeAge := by
  have here : w.above = none := by rw [above, walking]
  have standing : w.Standing tree nodes (fun v => nodeAge v = searchNodeAge) none := here ▸ sound.toStanding
  unfold Tree.walk at walked
  split at walked
  · next noCalls =>
    split at walked
    · cases walked
    · next node todo roots =>
      cases walked
      refine visit_sound ?_ walking
      exact
        { buf := standing.buf
          nodup := standing.nodup
          rest := standing.rest
          started := fun v member => standing.started v (roots ▸ List.mem_cons_of_mem node member)
          chain := by
            show List.IsChain _ ([node] ++ w.calls.map Call.node)
            rw [noCalls]
            exact .singleton node
          root := fun v last => by
            have same : node = v := by simpa [path, noCalls] using last
            exact same ▸ standing.started node (roots ▸ List.mem_cons_self)
          todo := fun v member => by
            rcases standing.todo v member with waits | marked | last
            · rw [roots] at waits
              rcases List.mem_cons.mp waits with same | later
              · exact .inr (.inr (by simp [path, noCalls, same]))
              · exact .inl later
            · exact .inr (.inl marked)
            · simp [path, noCalls] at last
          explored := by
            show tree.Explored _ _ w.calls
            rw [noCalls]
            trivial }
  · next node calls stack =>
    cases walked
    have explored := standing.explored
    have nodup := standing.nodup
    have chain := standing.chain
    have root := standing.root
    have todo := standing.todo
    rw [stack] at explored nodup
    rw [path, stack] at chain root
    simp only [path, stack] at todo
    exact
      { buf := fun v => by
          have before := standing.buf v
          rw [stack, List.map_cons, List.mem_cons] at before
          show v ∈ w.nodeBuf.erase node ↔ v ∈ calls.map Call.node
          rw [Finset.mem_erase, before]
          constructor
          · intro both
            exact both.2.resolve_left both.1
          · intro below
            exact ⟨fun same => (List.nodup_cons.mp nodup).1 (same ▸ below), .inr below⟩
        nodup := (List.nodup_cons.mp nodup).2
        rest := fun call member => standing.rest call (stack ▸ List.mem_cons_of_mem _ member)
        started := standing.started
        chain := chain
        root := root
        todo := todo
        explored := explored.2
        left := fun v same child member => by
          cases same
          rcases explored.1 child member with waits | marked | other | below
          · cases waits
          · exact .inl marked
          · cases other
          · exact .inr below }
  · next node child rest calls stack =>
    cases walked
    have explored := standing.explored
    have nodup := standing.nodup
    have chain := standing.chain
    have root := standing.root
    have todo := standing.todo
    have below : child ∈ tree.children node := standing.rest ⟨node, child :: rest⟩ (stack ▸ List.mem_cons_self) child
      List.mem_cons_self
    rw [stack] at explored nodup
    rw [path, stack] at chain root
    simp only [path, stack] at todo
    refine visit_sound ?_ walking
    exact
      { buf := fun v => by
          have before := standing.buf v
          rw [stack] at before
          exact before
        nodup := nodup
        rest := fun call member other waits => by
          rcases List.mem_cons.mp member with same | deeper
          · rw [same] at waits ⊢
            exact standing.rest ⟨node, child :: rest⟩ (stack ▸ List.mem_cons_self) other
              (List.mem_cons_of_mem child waits)
          · exact standing.rest call (stack ▸ List.mem_cons_of_mem _ deeper) other waits
        started := standing.started
        chain := List.IsChain.cons_cons below chain
        root := root
        todo := todo
        explored := by
          refine ⟨fun other member => ?_, explored.2⟩
          rcases explored.1 other member with waits | marked | none | deeper
          · rcases List.mem_cons.mp waits with same | later
            · exact .inr (.inr (.inl (same ▸ rfl)))
            · exact .inl later
          · exact .inr (.inl marked)
          · cases none
          · exact .inr (.inr (.inr deeper)) }

theorem visit_path (child : V) (member : child ∈ w.path none) (walking : w.phase = .walking) :
    child ∈ (tree.visit searchNodeAge nodeAge w node).path (tree.visit searchNodeAge nodeAge w node).above := by
  have here : w.above = none := by rw [above, walking]
  unfold Tree.visit
  split_ifs with marked cycle inner
  · exact here ▸ member
  · exact here ▸ member
  · show child ∈ w.above.toList ++ node :: w.calls.map Call.node
    rw [here]
    exact List.mem_cons_of_mem node member
  · exact List.mem_cons_of_mem node member

/-- A node leaves the path only at the end of its call. -/
theorem walk_path (walking : w.phase = .walking) (walked : tree.walk searchNodeAge nodeAge w = some w') (child : V)
    (member : child ∈ w.path w.above) : child ∈ w'.path w'.above := by
  have here : w.above = none := by rw [above, walking]
  rw [here] at member
  unfold Tree.walk at walked
  split at walked
  · next noCalls =>
    rw [path, noCalls] at member
    cases member
  · next node calls stack =>
    cases walked
    rw [path, stack] at member
    exact member
  · next node below rest calls stack =>
    cases walked
    rw [path, stack] at member
    exact visit_path child member walking

theorem visit_phase (walking : w.phase = .walking) (other : V) :
    (tree.visit searchNodeAge nodeAge w node).phase ≠ .acting other := by
  unfold Tree.visit
  split_ifs with marked cycle inner
  · exact walking ▸ nofun
  · exact walking ▸ nofun
  · exact walking ▸ nofun
  · exact nofun

theorem walk_phase (walking : w.phase = .walking) (walked : tree.walk searchNodeAge nodeAge w = some w') (other : V) :
    w'.phase ≠ .acting other := by
  unfold Tree.walk at walked
  split at walked
  · split at walked
    · cases walked
    · cases walked
      refine visit_phase ?_ other
      exact walking
  · cases walked
    exact nofun
  · cases walked
    refine visit_phase ?_ other
    exact walking

end Walker

section Paths

variable {l : Walker V}

/-- The innermost node of a path is reached through all of them. -/
theorem reaches_head {path : List V} {node child : V}
    (chain : List.IsChain (fun child parent => child ∈ tree.children parent) (node :: path))
    (member : child ∈ node :: path) :
    Relation.ReflTransGen (fun parent child => child ∈ tree.children parent) child node := by
  induction path generalizing node with
  | nil =>
    rw [List.mem_singleton.mp member]
  | cons parent path ih =>
    rcases List.mem_cons.mp member with same | below
    · rw [same]
    · have both := List.isChain_cons_cons.mp chain
      exact (ih both.2 below).tail both.1

theorem Walker.above_leaving {node : V} (leaving : l.phase = .leaving node) : l.above = some node := by
  rw [Walker.above, leaving]

theorem Walker.above_acting {node : V} (acting : l.phase = .acting node) : l.above = some node := by
  rw [Walker.above, acting]

theorem Walker.path_acting {node : V} (here : l.above = some node) :
    ({ l with phase := .acting node } : Walker V).path (some node) = l.path l.above := by
  rw [here]
  rfl

theorem Walker.path_end {node v : V} (here : l.above = some node) (member : v ∈ l.path l.above) :
    v = node ∨ v ∈ l.path none := by
  rw [here] at member
  exact List.mem_cons.mp member

theorem Walker.Sound.reached {done : V → Prop} {node : V} (sound : l.Sound tree nodes done)
    (here : l.above = some node) :
    tree.Reached nodes node := by
  have chain := sound.chain
  have root := sound.root
  rw [Walker.path, here] at chain root
  obtain ⟨last, found⟩ := Option.isSome_iff_exists.mp (List.getLast?_isSome.mpr
    (List.cons_ne_nil node (l.calls.map Call.node)))
  exact ⟨last, root last found, reaches_head chain (List.mem_of_getLast? found)⟩

end Paths

variable [DecidableEq V] {w w' : Threads ι (Marks ι V) (Walker V)} {event : ι × Unit} {order : Order}
  {s s' : Marks ι V} {l l' : Walker V} {t : ι}

/-- What one step can do. -/
inductive Tree.Takes (tree : Tree V) (searchNodeAge : UInt32) (t : ι) (s : Marks ι V) (l : Walker V) :
    Order → Marks ι V → Walker V → Prop
  | walk (order : Order) (l' : Walker V) (walking : l.phase = .walking)
    (walked : tree.walk searchNodeAge s.nodeAge l = some l') :
      tree.Takes searchNodeAge t s l order s l'
  | first (node : V) (leaving : l.phase = .leaving node) (unmarked : s.nodeAge node ≠ searchNodeAge) :
      tree.Takes searchNodeAge t s l .anyOrder { s with nodeAge := Function.update s.nodeAge node searchNodeAge }
        { l with phase := .acting node }
  | late (node : V) (leaving : l.phase = .leaving node) (marked : s.nodeAge node = searchNodeAge) :
      tree.Takes searchNodeAge t s l .anyOrder s { l with phase := .walking }
  | call (node : V) (acting : l.phase = .acting node) :
      tree.Takes searchNodeAge t s l .anyOrder { s with calls := s.calls ++ [(node, t)] } { l with phase := .walking }
  | lock (node : V) (leaving : l.phase = .leaving node) (free : s.holder (tree.mutexIdx node) = none) :
      tree.Takes searchNodeAge t s l .postOrder
        { s with holder := Function.update s.holder (tree.mutexIdx node) (some t) }
        { l with phase := .acting node }
  | callLocked (node : V) (acting : l.phase = .acting node) (unmarked : s.nodeAge node ≠ searchNodeAge) :
      tree.Takes searchNodeAge t s l .postOrder
        { nodeAge := Function.update s.nodeAge node searchNodeAge
          holder := Function.update s.holder (tree.mutexIdx node) none
          calls := s.calls ++ [(node, t)] } { l with phase := .walking }
  | lateLocked (node : V) (acting : l.phase = .acting node) (marked : s.nodeAge node = searchNodeAge) :
      tree.Takes searchNodeAge t s l .postOrder { s with holder := Function.update s.holder (tree.mutexIdx node) none }
        { l with phase := .walking }

theorem takes_of_act (acted : tree.act searchNodeAge order t () s l = some (s', l')) :
    tree.Takes searchNodeAge t s l order s' l' := by
  unfold Tree.act at acted
  cases phase : l.phase with
  | walking =>
    rw [phase] at acted
    obtain ⟨gone, walked, same⟩ := Option.map_eq_some_iff.mp acted
    cases same
    exact .walk order l' phase walked
  | leaving node =>
    rw [phase] at acted
    cases order with
    | postOrder =>
      simp only [Tree.endPostOrder, phase] at acted
      split_ifs at acted with free
      cases acted
      exact .lock node phase free
    | anyOrder =>
      simp only [endAnyOrder, phase] at acted
      by_cases marked : s.nodeAge node = searchNodeAge
      · have unchanged : Function.update s.nodeAge node searchNodeAge = s.nodeAge := by
          rw [← marked, Function.update_eq_self]
        rw [if_pos marked, unchanged] at acted
        cases acted
        exact .late node phase marked
      · rw [if_neg marked] at acted
        cases acted
        exact .first node phase marked
  | acting node =>
    rw [phase] at acted
    cases order with
    | postOrder =>
      simp only [Tree.endPostOrder, phase] at acted
      by_cases marked : s.nodeAge node = searchNodeAge
      · rw [if_pos marked] at acted
        cases acted
        exact .lateLocked node phase marked
      · rw [if_neg marked] at acted
        cases acted
        exact .callLocked node phase marked
    | anyOrder =>
      simp only [endAnyOrder, phase] at acted
      cases acted
      exact .call node phase

variable [DecidableEq ι]

theorem takes_of_step (taken : Threads.step (tree.act searchNodeAge order) w event = some w') :
    ∃ s l, tree.Takes searchNodeAge event.1 w.shared (w.locals event.1) order s l ∧
      w' = ⟨s, Function.update w.locals event.1 l⟩ := by
  obtain ⟨s, l, acted, same⟩ := Threads.step_eq_some.mp taken
  exact ⟨s, l, takes_of_act acted, same⟩

end KataGo.Search
