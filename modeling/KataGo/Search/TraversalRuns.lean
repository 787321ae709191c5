import KataGo.Search.Walkers
import Mathlib.Data.Finset.Lattice.Fold

/-! Every run of the threads calls `f` once for each node that can be reached, and ends. -/

namespace KataGo.Search
open KataGo.Lib

variable {ι V : Type} {tree : Tree V} {searchNodeAge : UInt32} {nodes : List V} [DecidableEq V]
  {w w' : Threads ι (Marks ι V) (Walker V)} {event : ι × Unit} {order : Order} {s s' : Marks ι V} {l l' : Walker V}
  {t : ι}
  [DecidableEq ι]

/-- What holds of every thread and of the marks. -/
structure Swept (tree : Tree V) (nodes : List V) (searchNodeAge : UInt32) (w : Threads ι (Marks ι V) (Walker V)) :
    Prop where
  sound : ∀ t, (w.locals t).Sound tree nodes fun v => w.shared.nodeAge v = searchNodeAge
  reached : ∀ v, w.shared.nodeAge v = searchNodeAge → tree.Reached nodes v
  closed : ∀ v, w.shared.nodeAge v = searchNodeAge → ∀ child ∈ tree.children v,
    w.shared.nodeAge child = searchNodeAge ∨ ∃ t, child ∈ (w.locals t).path (w.locals t).above

omit [DecidableEq V] in
/-- A step that marks nothing but the node at its end, and takes nothing but marked nodes from the path of the thread.
-/
theorem Swept.next (swept : Swept tree nodes searchNodeAge w)
    (more : ∀ v, w.shared.nodeAge v = searchNodeAge → s.nodeAge v = searchNodeAge)
    (new : ∀ v, s.nodeAge v = searchNodeAge → w.shared.nodeAge v = searchNodeAge ∨ (w.locals t).above = some v)
    (sound : l.Sound tree nodes fun v => s.nodeAge v = searchNodeAge)
    (path : ∀ v ∈ (w.locals t).path (w.locals t).above, s.nodeAge v = searchNodeAge ∨ v ∈ l.path l.above) :
    Swept tree nodes searchNodeAge ⟨s, Function.update w.locals t l⟩ where
  sound := Threads.forall_update (P := fun _ (l : Walker V) => l.Sound tree nodes _) sound fun u _ =>
    (swept.sound u).mono more
  reached v marked := by
    rcases new v marked with before | here
    · exact swept.reached v before
    · exact (swept.sound t).reached here
  closed v marked child member := by
    have onPath (u : ι) (on : child ∈ (w.locals u).path (w.locals u).above) : s.nodeAge child = searchNodeAge ∨
        ∃ u, child ∈ (Function.update w.locals t l u).path (Function.update w.locals t l u).above := by
      by_cases same : u = t
      · rw [same] at on
        rcases path child on with done | still
        · exact .inl done
        · refine .inr ⟨t, ?_⟩
          rw [Function.update_self]
          exact still
      · refine .inr ⟨u, ?_⟩
        rw [Function.update_of_ne same]
        exact on
    rcases new v marked with before | here
    · rcases swept.closed v before child member with done | ⟨u, on⟩
      · exact .inl (more child done)
      · exact onPath u on
    · rcases (swept.sound t).left v here child member with done | on
      · exact .inl (more child done)
      · exact onPath t on

theorem marked_update {nodeAge : V → UInt32} {node v : V} (marked : nodeAge v = searchNodeAge) :
    Function.update nodeAge node searchNodeAge v = searchNodeAge := by
  by_cases same : v = node
  · rw [same, Function.update_self]
  · rw [Function.update_of_ne same]
    exact marked

theorem of_marked_update {nodeAge : V → UInt32} {node v : V}
    (marked : Function.update nodeAge node searchNodeAge v = searchNodeAge) :
    nodeAge v = searchNodeAge ∨ v = node := by
  by_cases same : v = node
  · exact .inr same
  · rw [Function.update_of_ne same] at marked
    exact .inl marked

theorem Swept.takes (swept : Swept tree nodes searchNodeAge w)
    (taken : ∀ node, order = .anyOrder → (w.locals t).phase = .acting node → w.shared.nodeAge node = searchNodeAge)
    (takes : tree.Takes searchNodeAge t w.shared (w.locals t) order s l) :
    Swept tree nodes searchNodeAge ⟨s, Function.update w.locals t l⟩ := by
  have sound := swept.sound t
  have ended {node : V} (here : (w.locals t).above = some node) (marked : s.nodeAge node = searchNodeAge) (v : V)
      (member : v ∈ (w.locals t).path (w.locals t).above) :
      s.nodeAge v = searchNodeAge ∨ v ∈ (w.locals t).path none := by
    rcases Walker.path_end here member with same | below
    · exact .inl (same ▸ marked)
    · exact .inr below
  cases takes with
  | walk _ _ walking walked =>
    exact swept.next (fun v marked => marked) (fun v marked => .inl marked) (Walker.walk_sound sound walking walked)
      fun v member => .inr (Walker.walk_path walking walked v member)
  | first node leaving unmarked =>
    have here := Walker.above_leaving leaving
    refine swept.next (fun v => marked_update) (fun v marked => ?_)
      ((sound.mono fun v => marked_update).phase here.symm) ?_
    · rcases of_marked_update marked with before | same
      · exact .inl before
      · exact .inr (same ▸ here)
    · intro v member
      rw [← Walker.path_acting here] at member
      exact .inr member
  | late node leaving marked =>
    have here := Walker.above_leaving leaving
    exact swept.next (fun v marked => marked) (fun v marked => .inl marked) (sound.finish here marked)
      (ended here marked)
  | call node acting =>
    have here := Walker.above_acting acting
    have marked := taken node rfl acting
    exact swept.next (fun v marked => marked) (fun v marked => .inl marked) (sound.finish here marked)
      (ended here marked)
  | lock node leaving free =>
    have here := Walker.above_leaving leaving
    refine swept.next (fun v marked => marked) (fun v marked => .inl marked) (sound.phase here.symm) fun v member => ?_
    rw [← Walker.path_acting here] at member
    exact .inr member
  | callLocked node acting unmarked =>
    have here := Walker.above_acting acting
    have marked : Function.update w.shared.nodeAge node searchNodeAge node = searchNodeAge := Function.update_self ..
    refine swept.next (fun v => marked_update) (fun v marked => ?_)
      ((sound.mono fun v => marked_update).finish here marked)
      (ended here marked)
    rcases of_marked_update marked with before | same
    · exact .inl before
    · exact .inr (same ▸ here)
  | lateLocked node acting marked =>
    have here := Walker.above_acting acting
    exact swept.next (fun v marked => marked) (fun v marked => .inl marked) (sound.finish here marked)
      (ended here marked)

/-- The nodes that `f` has been called with, in this order. -/
def Marks.called (s : Marks ι V) : List V := s.calls.map Prod.fst

omit [DecidableEq V] in
/-- The threads that call `f` after a step of one thread. -/
theorem acting_update {P : ι → V → Prop} (own : ∀ node, l.phase = .acting node → P t node)
    (others : ∀ u, u ≠ t → ∀ node, (w.locals u).phase = .acting node → P u node) (u : ι) (node : V)
    (acting : (Function.update w.locals t l u).phase = .acting node) : P u node :=
  Threads.forall_update (P := fun u (l : Walker V) => ∀ node, l.phase = .acting node → P u node)
    own others u node acting

omit [DecidableEq V] [DecidableEq ι] in
theorem mem_called {node v : V} : v ∈ (s.calls ++ [(node, t)]).map Prod.fst ↔ v ∈ s.called ∨ v = node := by
  rw [List.map_append, List.mem_append, List.map_singleton, List.mem_singleton]
  rfl

omit [DecidableEq V] [DecidableEq ι] in
theorem called_nodup {node : V} (nodup : s.called.Nodup) (fresh : node ∉ s.called) :
    ((s.calls ++ [(node, t)]).map Prod.fst).Nodup := by
  rw [List.map_append]
  refine List.nodup_append.mpr ⟨nodup, List.nodup_singleton node, fun v old v' new => ?_⟩
  cases List.mem_singleton.mp new
  intro same
  cases same
  exact fresh old

/-- The calls of `f` under the mutexes. -/
structure PostCalls (tree : Tree V) (searchNodeAge : UInt32) (w : Threads ι (Marks ι V) (Walker V)) : Prop where
  called : ∀ v, v ∈ w.shared.called ↔ w.shared.nodeAge v = searchNodeAge
  nodup : w.shared.called.Nodup
  locked : ∀ t node, (w.locals t).phase = .acting node → w.shared.holder (tree.mutexIdx node) = some t
  held : ∀ idx t, w.shared.holder idx = some t → ∃ node, (w.locals t).phase = .acting node ∧ tree.mutexIdx node = idx
  first : ∀ before v t after, w.shared.calls = before ++ (v, t) :: after → ∀ child ∈ tree.children v,
    child ∈ before.map Prod.fst ∨ Relation.ReflTransGen (fun parent child => child ∈ tree.children parent) child v

theorem PostCalls.takes (post : PostCalls tree searchNodeAge w) (swept : Swept tree nodes searchNodeAge w)
    (takes : tree.Takes searchNodeAge t w.shared (w.locals t) .postOrder s l) :
    PostCalls tree searchNodeAge ⟨s, Function.update w.locals t l⟩ := by
  have free {node : V} (held : w.shared.holder (tree.mutexIdx node) = some t) (u : ι) (other : u ≠ t) (node' : V)
      (acting : (w.locals u).phase = .acting node') :
      Function.update w.shared.holder (tree.mutexIdx node) none (tree.mutexIdx node') = some u := by
    have holds := post.locked u node' acting
    rw [Function.update_of_ne ?_]
    · exact holds
    · intro same
      rw [same, held] at holds
      exact other (Option.some.inj holds).symm
  have kept {node : V} (acting : (w.locals t).phase = .acting node) (idx : UInt32) (u : ι)
      (held : Function.update w.shared.holder (tree.mutexIdx node) none idx = some u) :
      ∃ node, (Function.update w.locals t l u).phase = .acting node ∧ tree.mutexIdx node = idx := by
    by_cases same : idx = tree.mutexIdx node
    · rw [same, Function.update_self] at held
      cases held
    · rw [Function.update_of_ne same] at held
      obtain ⟨node', acts, own⟩ := post.held idx u held
      refine ⟨node', ?_, own⟩
      rw [Function.update_of_ne ?_]
      · exact acts
      · intro other
        rw [other, acting] at acts
        cases acts
        exact same own.symm
  cases takes with
  | walk _ _ walking walked =>
    refine ⟨post.called, post.nodup, ?_, fun idx u held => ?_, post.first⟩
    · exact acting_update (fun node acting => absurd acting (Walker.walk_phase walking walked node)) fun u _ =>
        post.locked u
    · obtain ⟨node, acts, own⟩ := post.held idx u held
      refine ⟨node, ?_, own⟩
      show (Function.update w.locals t l u).phase = _
      rw [Function.update_of_ne ?_]
      · exact acts
      · intro other
        rw [other, walking] at acts
        cases acts
  | lock node leaving unheld =>
    refine ⟨post.called, post.nodup, ?_, fun idx u held => ?_, post.first⟩
    · apply acting_update
      · intro node' acting
        cases acting
        exact Function.update_self ..
      · intro u other node' acting
        have holds := post.locked u node' acting
        show Function.update w.shared.holder (tree.mutexIdx node) (some t) (tree.mutexIdx node') = some u
        rw [Function.update_of_ne ?_]
        · exact holds
        · intro same
          rw [same, unheld] at holds
          cases holds
    · change Function.update w.shared.holder (tree.mutexIdx node) (some t) idx = some u at held
      show ∃ node', (Function.update w.locals t _ u).phase = _ ∧ _
      by_cases same : idx = tree.mutexIdx node
      · rw [same, Function.update_self] at held
        cases held
        exact ⟨node, by rw [Function.update_self], same.symm⟩
      · rw [Function.update_of_ne same] at held
        obtain ⟨node', acts, own⟩ := post.held idx u held
        refine ⟨node', ?_, own⟩
        rw [Function.update_of_ne ?_]
        · exact acts
        · intro other
          rw [other, leaving] at acts
          cases acts
  | lateLocked node acting marked =>
    refine ⟨post.called, post.nodup, ?_, kept acting, post.first⟩
    apply acting_update
    · intro node' none
      cases none
    · exact free (post.locked t node acting)
  | callLocked node acting unmarked =>
    have fresh : node ∉ w.shared.called := fun old => unmarked ((post.called node).mp old)
    refine ⟨fun v => ?_, ?_, ?_, kept acting, ?_⟩
    · show v ∈ (w.shared.calls ++ [(node, t)]).map Prod.fst ↔ Function.update w.shared.nodeAge node searchNodeAge v =
        searchNodeAge
      rw [mem_called]
      by_cases same : v = node
      · rw [same, Function.update_self]
        exact iff_of_true (.inr rfl) rfl
      · rw [Function.update_of_ne same, ← post.called v]
        exact or_iff_left same
    · exact called_nodup post.nodup fresh
    · apply acting_update
      · intro node' none
        cases none
      · exact free (post.locked t node acting)
    · intro before v u after split child member
      rcases List.eq_nil_or_concat after with last | ⟨rest, last, concat⟩
      · rw [last] at split
        obtain ⟨earlier, same⟩ := List.append_inj' split rfl
        cases List.singleton_inj.mp same
        have here := Walker.above_acting acting
        rcases (swept.sound t).left node here child member with marked | below
        · rw [← earlier]
          exact .inl ((post.called child).mpr marked)
        · have chain := (swept.sound t).chain
          rw [here] at chain below
          exact .inr (reaches_head chain below)
      · rw [concat, List.concat_eq_append, ← List.cons_append, ← List.append_assoc] at split
        exact post.first before v u rest (List.append_inj' split rfl).1 child member

/-- The calls of `f` by the threads that were the first to mark a node. -/
structure AnyCalls (searchNodeAge : UInt32) (w : Threads ι (Marks ι V) (Walker V)) : Prop where
  marked : ∀ t node, (w.locals t).phase = .acting node → w.shared.nodeAge node = searchNodeAge ∧ node ∉ w.shared.called
  apart : ∀ t u node, (w.locals t).phase = .acting node → (w.locals u).phase = .acting node → t = u
  nodup : w.shared.called.Nodup
  called : ∀ v ∈ w.shared.called, w.shared.nodeAge v = searchNodeAge
  calls : ∀ v, w.shared.nodeAge v = searchNodeAge → v ∈ w.shared.called ∨ ∃ t, (w.locals t).phase = .acting v

omit [DecidableEq V] in
/-- A step after which the thread calls `f` for no other node than before. -/
theorem AnyCalls.quiet (any : AnyCalls searchNodeAge w) (before : ∀ node, (w.locals t).phase ≠ .acting node)
    (later : ∀ node, l.phase ≠ .acting node) : AnyCalls searchNodeAge ⟨w.shared, Function.update w.locals t l⟩ := by
  have phase {u : ι} {node : V} : (Function.update w.locals t l u).phase = .acting node ↔
    (w.locals u).phase = .acting node := by
    by_cases same : u = t
    · rw [same, Function.update_self]
      exact iff_of_false (later node) (before node)
    · rw [Function.update_of_ne same]
  exact ⟨fun u node acting => any.marked u node (phase.mp acting),
    fun u u' node first second => any.apart u u' node (phase.mp first) (phase.mp second), any.nodup, any.called,
    fun v marked => (any.calls v marked).imp id fun ⟨u, acting⟩ => ⟨u, phase.mpr acting⟩⟩

theorem AnyCalls.takes (any : AnyCalls searchNodeAge w)
    (takes : tree.Takes searchNodeAge t w.shared (w.locals t) .anyOrder s l) :
    AnyCalls searchNodeAge ⟨s, Function.update w.locals t l⟩ := by
  cases takes with
  | walk _ _ walking walked => exact any.quiet (fun _ => walking ▸ nofun) (Walker.walk_phase walking walked)
  | late node leaving marked => exact any.quiet (fun _ => leaving ▸ nofun) fun _ => nofun
  | first node leaving unmarked =>
    have fresh : node ∉ w.shared.called := fun old => unmarked (any.called node old)
    have idle (u : ι) : (w.locals u).phase ≠ .acting node := fun acting => unmarked (any.marked u node acting).1
    refine ⟨?_, ?_, any.nodup, fun v old => marked_update (any.called v old), fun v marked => ?_⟩
    · apply acting_update
      · intro node' acting
        cases acting
        exact ⟨Function.update_self .., fresh⟩
      · intro u _ node' acting
        have before := any.marked u node' acting
        exact ⟨marked_update before.1, before.2⟩
    · intro u u' node' first second
      have at_ (v : ι) (acting : (Function.update w.locals t { w.locals t with phase := .acting node } v).phase =
        .acting node') :
          v = t ∧ node' = node ∨ (w.locals v).phase = .acting node' := by
        by_cases same : v = t
        · rw [same, Function.update_self] at acting
          cases acting
          exact .inl ⟨same, rfl⟩
        · rw [Function.update_of_ne same] at acting
          exact .inr acting
      rcases at_ u first with own | before
      · rcases at_ u' second with own' | before'
        · exact own.1.trans own'.1.symm
        · exact absurd (own.2 ▸ before') (idle u')
      · rcases at_ u' second with own' | before'
        · exact absurd (own'.2 ▸ before) (idle u)
        · exact any.apart u u' node' before before'
    · rcases of_marked_update marked with before | same
      · rcases any.calls v before with old | ⟨u, acting⟩
        · exact .inl old
        · refine .inr ⟨u, ?_⟩
          show (Function.update w.locals t _ u).phase = _
          rw [Function.update_of_ne ?_]
          · exact acting
          · intro other
            rw [other, leaving] at acting
            cases acting
      · refine .inr ⟨t, ?_⟩
        show (Function.update w.locals t _ t).phase = _
        rw [Function.update_self, same]
  | call node acting =>
    have own := any.marked t node acting
    have other {u : ι} {node' : V}
        (still : (Function.update w.locals t { w.locals t with phase := .walking } u).phase = .acting node') :
        u ≠ t ∧ (w.locals u).phase = .acting node' := by
      by_cases same : u = t
      · rw [same, Function.update_self] at still
        cases still
      · rw [Function.update_of_ne same] at still
        exact ⟨same, still⟩
    refine ⟨fun u node' still => ?_, fun u u' node' first second => any.apart u u' node' (other first).2
      (other second).2,
      called_nodup any.nodup own.2, fun v member => ?_, fun v marked => ?_⟩
    · have before := any.marked u node' (other still).2
      refine ⟨before.1, fun member => ?_⟩
      rcases mem_called.mp member with old | same
      · exact before.2 old
      · exact (other still).1 (any.apart u t node' (other still).2 (same ▸ acting))
    · rcases mem_called.mp member with old | same
      · exact any.called v old
      · exact same ▸ own.1
    · show v ∈ (w.shared.calls ++ [(node, t)]).map Prod.fst ∨ _
      rw [mem_called]
      rcases any.calls v marked with old | ⟨u, before⟩
      · exact .inl (.inl old)
      · by_cases same : u = t
        · rw [same, acting] at before
          cases before
          exact .inl (.inr rfl)
        · refine .inr ⟨u, ?_⟩
          show (Function.update w.locals t _ u).phase = _
          rw [Function.update_of_ne same]
          exact before

section Start

variable {nodeAge : V → UInt32} {rands : ι → Option PCG32}

omit [DecidableEq V] [DecidableEq ι] in
theorem start_swept (fresh : ∀ v, nodeAge v ≠ searchNodeAge) :
    Swept tree nodes searchNodeAge (startWalk nodeAge nodes rands) where
  sound t := by
    have perm := perm_shuffle nodes (rands t)
    exact
      { buf := fun v => by simp [startWalk]
        nodup := List.nodup_nil
        rest := fun call member => nomatch member
        started := fun v => perm.mem_iff.mp
        chain := .nil
        root := fun v last => nomatch last
        todo := fun v member => .inl (perm.mem_iff.mpr member)
        explored := trivial
        left := fun v here => nomatch here }
  reached v marked := absurd marked (fresh v)
  closed v marked := absurd marked (fresh v)

omit [DecidableEq V] [DecidableEq ι] in
theorem start_post (fresh : ∀ v, nodeAge v ≠ searchNodeAge) :
    PostCalls tree searchNodeAge (startWalk nodeAge nodes rands) where
  called v := iff_of_false List.not_mem_nil (fresh v)
  nodup := List.nodup_nil
  locked _ _ acting := nomatch acting
  held _ _ held := nomatch held
  first before v t after split := by
    have nothing : ([] : List (V × ι)) = before ++ (v, t) :: after := split
    simp at nothing

omit [DecidableEq V] [DecidableEq ι] in
theorem start_any (fresh : ∀ v, nodeAge v ≠ searchNodeAge) :
    AnyCalls searchNodeAge (startWalk nodeAge nodes rands) where
  marked _ _ acting := nomatch acting
  apart _ _ _ acting := nomatch acting
  nodup := List.nodup_nil
  called _ member := nomatch member
  calls v marked := absurd marked (fresh v)

end Start

/-- The invariant of a walk. -/
def Kept (order : Order) (tree : Tree V) (nodes : List V) (searchNodeAge : UInt32)
    (w : Threads ι (Marks ι V) (Walker V)) : Prop :=
  Swept tree nodes searchNodeAge w ∧
    match order with
    | .postOrder => PostCalls tree searchNodeAge w
    | .anyOrder => AnyCalls searchNodeAge w

theorem Kept.step (kept : Kept order tree nodes searchNodeAge w)
    (taken : Threads.step (tree.act searchNodeAge order) w event = some w') :
    Kept order tree nodes searchNodeAge w' := by
  obtain ⟨s, l, takes, rfl⟩ := takes_of_step taken
  cases order with
  | postOrder =>
    refine ⟨kept.1.takes ?_ takes, PostCalls.takes kept.2 kept.1 takes⟩
    intro _ wrong
    cases wrong
  | anyOrder =>
    have any : AnyCalls searchNodeAge w := kept.2
    exact ⟨kept.1.takes (fun node _ acting => (any.marked event.1 node acting).1) takes, any.takes takes⟩

omit [DecidableEq V] [DecidableEq ι] in
theorem start_kept {nodeAge : V → UInt32} {rands : ι → Option PCG32} (fresh : ∀ v, nodeAge v ≠ searchNodeAge) :
    Kept order tree nodes searchNodeAge (startWalk nodeAge nodes rands) := by
  refine ⟨start_swept fresh, ?_⟩
  cases order with
  | postOrder => exact start_post fresh
  | anyOrder => exact start_any fresh

omit [DecidableEq V] [DecidableEq ι] in
/-- What has been called, and marked, when all threads have ended. -/
theorem Kept.called (kept : Kept order tree nodes searchNodeAge w) : w.shared.called.Nodup ∧
    (∀ v ∈ w.shared.called, w.shared.nodeAge v = searchNodeAge) ∧
    ((∀ t, (w.locals t).Ended) → ∀ v, w.shared.nodeAge v = searchNodeAge → v ∈ w.shared.called) := by
  cases order with
  | postOrder =>
    have post : PostCalls tree searchNodeAge w := kept.2
    exact ⟨post.nodup, fun v => (post.called v).mp, fun _ v => (post.called v).mpr⟩
  | anyOrder =>
    have any : AnyCalls searchNodeAge w := kept.2
    refine ⟨any.nodup, any.called, fun ended v marked => ?_⟩
    rcases any.calls v marked with old | ⟨t, acting⟩
    · exact old
    · rw [(ended t).phase] at acting
      cases acting

omit [DecidableEq V] [DecidableEq ι] in
/-- When all threads have ended, every node that can be reached is marked. -/
theorem Swept.complete [Nonempty ι] (swept : Swept tree nodes searchNodeAge w) (ended : ∀ t, (w.locals t).Ended) {v : V}
    (reached : tree.Reached nodes v) : w.shared.nodeAge v = searchNodeAge := by
  have path (t : ι) : (w.locals t).path (w.locals t).above = [] := by
    rw [Walker.path, Walker.above, (ended t).phase, (ended t).calls]
    rfl
  obtain ⟨root, start, steps⟩ := reached
  induction steps with
  | refl =>
    obtain ⟨t⟩ := ‹Nonempty ι›
    rcases (swept.sound t).todo root start with waits | marked | last
    · rw [(ended t).todo] at waits
      cases waits
    · exact marked
    · rw [path t] at last
      cases last
  | tail _ edge ih =>
    rcases swept.closed _ ih _ edge with marked | ⟨t, on⟩
    · exact marked
    · rw [path t] at on
      cases on

section Work

variable [Fintype V]

/-- More than the number of children of any node. -/
def Tree.width (tree : Tree V) : Nat := Finset.univ.sup (fun v => (tree.children v).length) + 1

/-- A bound for the steps that the calls on a stack still take. -/
def stackWork (tree : Tree V) : List (Call V) → Nat
  | [] => 0
  | call :: calls => stackWork tree calls + (4 * call.rest.length + 3) * tree.width ^ (Fintype.card V - calls.length)

def phaseWork : Phase V → Nat
  | .walking => 0
  | .leaving _ => 2
  | .acting _ => 1

def Walker.work (tree : Tree V) (l : Walker V) : Nat :=
  4 * l.todo.length * tree.width ^ (Fintype.card V + 1) + stackWork tree l.calls + phaseWork l.phase

omit [DecidableEq V] in
theorem Tree.width_pos (tree : Tree V) (k : Nat) : 0 < tree.width ^ k := Nat.pow_pos (Nat.succ_pos _)

omit [DecidableEq V] in
theorem Tree.length_children (tree : Tree V) (v : V) : (tree.children v).length + 1 ≤ tree.width :=
  Nat.succ_le_succ (Finset.le_sup (f := fun v => (tree.children v).length) (Finset.mem_univ v))

/-- Handing on a node from level `k + 1` takes off more than the node brings. -/
theorem Walker.visit_work {nodeAge : V → UInt32} {node : V} (walking : l.phase = .walking) :
    (tree.visit searchNodeAge nodeAge l node).work tree < l.work tree +
      4 * tree.width ^ (Fintype.card V - l.calls.length + 1) := by
  have most := tree.width_pos (Fintype.card V - l.calls.length + 1)
  unfold Tree.visit
  split_ifs with marked cycle inner
  · omega
  · omega
  · have length : (shuffle (tree.children node) l.rand).1.length = (tree.children node).length :=
      (perm_shuffle _ _).length_eq
    have bound := tree.length_children node
    have power := tree.width_pos (Fintype.card V - l.calls.length)
    have product : (4 * (tree.children node).length + 3) * tree.width ^ (Fintype.card V - l.calls.length) <
        4 * tree.width * tree.width ^ (Fintype.card V - l.calls.length) :=
      Nat.mul_lt_mul_of_pos_right (by omega) power
    have next : 4 * tree.width ^ (Fintype.card V - l.calls.length + 1) =
        4 * tree.width * tree.width ^ (Fintype.card V - l.calls.length) := by
      rw [pow_succ, Nat.mul_comm (tree.width ^ _), Nat.mul_assoc]
    simp only [Walker.work, stackWork, length]
    omega
  · simp only [Walker.work, walking, phaseWork]
    omega

theorem Walker.walk_work {nodeAge : V → UInt32} {done : V → Prop} (sound : l.Sound tree nodes done)
    (walking : l.phase = .walking)
    (walked : tree.walk searchNodeAge nodeAge l = some l') : l'.work tree < l.work tree := by
  have shallow : l.calls.length ≤ Fintype.card V := by
    rw [← List.length_map Call.node]
    exact sound.nodup.length_le_card
  unfold Tree.walk at walked
  split at walked
  · next noCalls =>
    split at walked
    · cases walked
    · next node todo roots =>
      cases walked
      have less : (tree.visit searchNodeAge nodeAge { l with todo } node).work tree <
          ({ l with todo } : Walker V).work tree + 4 * tree.width ^ (Fintype.card V - l.calls.length + 1) :=
        Walker.visit_work walking
      have more : 4 * l.todo.length * tree.width ^ (Fintype.card V + 1) =
          4 * todo.length * tree.width ^ (Fintype.card V + 1) + 4 * tree.width ^ (Fintype.card V + 1) := by
        rw [roots, List.length_cons, Nat.mul_add, Nat.add_mul, Nat.mul_one]
      simp only [noCalls, List.length_nil, Nat.sub_zero, Walker.work] at less ⊢
      omega
  · next node calls stack =>
    cases walked
    have power := tree.width_pos (Fintype.card V - calls.length)
    simp only [Walker.work, stack, stackWork, walking, phaseWork, List.length_nil]
    omega
  · next node child rest calls stack =>
    cases walked
    have less : (tree.visit searchNodeAge nodeAge { l with calls := ⟨node, rest⟩ :: calls } child).work tree <
        ({ l with calls := ⟨node, rest⟩ :: calls } : Walker V).work tree +
          4 * tree.width ^ (Fintype.card V - (calls.length + 1) + 1) :=
      Walker.visit_work walking
    rw [stack, List.length_cons] at shallow
    have level : Fintype.card V - (calls.length + 1) + 1 = Fintype.card V - calls.length := by omega
    rw [level] at less
    have more : (4 * (child :: rest).length + 3) * tree.width ^ (Fintype.card V - calls.length) =
        (4 * rest.length + 3) * tree.width ^ (Fintype.card V - calls.length) +
          4 * tree.width ^ (Fintype.card V - calls.length) := by
      have one : 4 * (child :: rest).length + 3 = 4 * rest.length + 3 + 4 := by
        rw [List.length_cons]
        omega
      rw [one, Nat.add_mul]
    simp only [Walker.work, stack, stackWork] at less ⊢
    omega

omit [DecidableEq ι] in
theorem Walker.takes_work (swept : Swept tree nodes searchNodeAge w)
    (takes : tree.Takes searchNodeAge t w.shared (w.locals t) order s l) : l.work tree < (w.locals t).work tree := by
  cases takes with
  | walk _ _ walking walked => exact Walker.walk_work (swept.sound t) walking walked
  | first node phase | late node phase | lock node phase | call node phase | callLocked node phase
  | lateLocked node phase =>
    simp only [Walker.work, phase, phaseWork]
    omega

variable [Fintype ι]

def work (tree : Tree V) (w : Threads ι (Marks ι V) (Walker V)) : Nat := ∑ t, (w.locals t).work tree

theorem step_work (kept : Kept order tree nodes searchNodeAge w)
    (taken : Threads.step (tree.act searchNodeAge order) w event = some w') : work tree w' < work tree w := by
  obtain ⟨s, l, takes, rfl⟩ := takes_of_step taken
  have less := Walker.takes_work kept.1 takes
  have sum := Threads.sum_update (Walker.work tree) w.locals event.1 l
  show ∑ t, (Function.update w.locals event.1 l t).work tree < ∑ t, (w.locals t).work tree
  omega

omit [DecidableEq V] [DecidableEq ι] in
theorem start_work {nodeAge : V → UInt32} {rands : ι → Option PCG32} : work tree (startWalk nodeAge nodes rands) =
    Fintype.card ι * (4 * nodes.length * tree.width ^ (Fintype.card V + 1)) := by
  have each (t : ι) : ((startWalk nodeAge nodes rands).locals t).work tree =
      4 * nodes.length * tree.width ^ (Fintype.card V + 1) := by
    rw [Walker.work]
    show 4 * (shuffle nodes (rands t)).1.length * _ + 0 + 0 = _
    rw [(perm_shuffle nodes (rands t)).length_eq, Nat.add_zero, Nat.add_zero]
  rw [work, Finset.sum_congr rfl fun t _ => each t, Finset.sum_const, Finset.card_univ, smul_eq_mul]

end Work

/-- A thread that has not ended can take a step, or it waits for a mutex whose holder can. -/
theorem Kept.progress (kept : Kept order tree nodes searchNodeAge w) (running : ¬(w.locals t).Ended) :
    ∃ u, Threads.step (tree.act searchNodeAge order) w (u, ()) ≠ none := by
  have possible {u : ι} (acts : tree.act searchNodeAge order u () w.shared (w.locals u) ≠ none) :
      ∃ u, Threads.step (tree.act searchNodeAge order) w (u, ()) ≠ none := by
    obtain ⟨next, acted⟩ := Option.ne_none_iff_exists'.mp acts
    refine ⟨u, ?_⟩
    rw [Threads.step, acted]
    exact Option.some_ne_none _
  have acting {u : ι} {node : V} (acts : (w.locals u).phase = .acting node) :
      ∃ u, Threads.step (tree.act searchNodeAge order) w (u, ()) ≠ none := by
    apply possible (u := u)
    unfold Tree.act
    rw [acts]
    cases order with
    | postOrder =>
      simp only [Tree.endPostOrder, acts]
      exact Option.some_ne_none _
    | anyOrder =>
      simp only [endAnyOrder, acts]
      exact Option.some_ne_none _
  cases phase : (w.locals t).phase with
  | acting node => exact acting phase
  | walking =>
    apply possible (u := t)
    unfold Tree.act
    rw [phase]
    simp only [ne_eq, Option.map_eq_none_iff]
    intro stuck
    unfold Tree.walk at stuck
    split at stuck
    · next noCalls =>
      split at stuck
      · next noRoots => exact running ⟨noRoots, noCalls, phase⟩
      · cases stuck
    · cases stuck
    · cases stuck
  | leaving node =>
    cases order with
    | anyOrder =>
      apply possible (u := t)
      unfold Tree.act
      rw [phase]
      simp only [endAnyOrder, phase]
      exact Option.some_ne_none _
    | postOrder =>
      have post : PostCalls tree searchNodeAge w := kept.2
      cases holder : w.shared.holder (tree.mutexIdx node) with
      | none =>
        apply possible (u := t)
        unfold Tree.act
        rw [phase]
        simp only [Tree.endPostOrder, phase, holder, if_true]
        exact Option.some_ne_none _
      | some u =>
        obtain ⟨node', acts, -⟩ := post.held _ u holder
        exact acting acts

section Results

variable {numAdditionalThreads : Nat} {rands : Fin (numAdditionalThreads + 1) → Option PCG32} {nodeAge : V → UInt32}
  {schedule : List (Fin (numAdditionalThreads + 1))}
  {w : Threads (Fin (numAdditionalThreads + 1)) (Marks (Fin (numAdditionalThreads + 1)) V) (Walker V)}

theorem applyRecursively_kept (fresh : ∀ v, nodeAge v ≠ searchNodeAge + 1)
    (ran : tree.applyRecursively searchNodeAge order nodeAge nodes rands schedule = some w) :
    Kept order tree nodes (searchNodeAge + 1) w :=
  Threads.run_invariant _ (fun _ _ _ kept taken => kept.step taken) ran (start_kept fresh)

/-- Whatever the tree, the number of threads and the order of their steps, `f` is called at most once for a node, and
only for nodes that can be reached. When all threads have ended it has been called for all of these, and they are the
nodes of the new age. -/
theorem applyRecursively_once (fresh : ∀ v, nodeAge v ≠ searchNodeAge + 1)
    (ran : tree.applyRecursively searchNodeAge order nodeAge nodes rands schedule = some w) :
    w.shared.called.Nodup ∧ (∀ v ∈ w.shared.called, tree.Reached nodes v) ∧
      ((∀ t, (w.locals t).Ended) → ∀ v, (v ∈ w.shared.called ↔ tree.Reached nodes v) ∧
        (w.shared.nodeAge v = searchNodeAge + 1 ↔ tree.Reached nodes v)) := by
  have kept := applyRecursively_kept fresh ran
  obtain ⟨nodup, marked, all⟩ := kept.called
  have reached := kept.1.reached
  refine ⟨nodup, fun v member => reached v (marked v member), fun ended v =>
    ⟨⟨fun member => reached v (marked v member), ?_⟩, ?_⟩⟩
  · intro can
    exact all ended v (kept.1.complete ended can)
  · exact ⟨reached v, kept.1.complete ended⟩

/-- No run goes on for ever, and until all threads have ended some thread can take a step. -/
theorem applyRecursively_ends [Fintype V] (fresh : ∀ v, nodeAge v ≠ searchNodeAge + 1)
    (ran : tree.applyRecursively searchNodeAge order nodeAge nodes rands schedule = some w) :
    schedule.length ≤ (numAdditionalThreads + 1) * (4 * nodes.length * tree.width ^ (Fintype.card V + 1)) ∧
      ((∃ t, ¬(w.locals t).Ended) → ∃ t, tree.applyRecursively searchNodeAge order nodeAge nodes rands
        (schedule ++ [t]) ≠ none) := by
  constructor
  · have bound := Threads.run_bounded (Kept order tree nodes (searchNodeAge + 1)) (work tree)
      (fun _ _ _ kept taken => ⟨kept.step taken, step_work kept taken⟩) ran (start_kept fresh)
    rw [start_work, Fintype.card_fin, List.length_map] at bound
    omega
  · rintro ⟨t, running⟩
    obtain ⟨u, possible⟩ := (applyRecursively_kept fresh ran).progress running
    refine ⟨u, ?_⟩
    rw [Tree.applyRecursively, List.map_append, Threads.run, List.foldlM_append]
    show (tree.applyRecursively searchNodeAge order nodeAge nodes rands schedule).bind _ ≠ none
    rw [ran]
    show ((Threads.step _ w (u, ())).bind some) ≠ none
    rw [Option.bind_fun_some]
    exact possible

section Sample

/-- A node with two children, each of which is a child of the other. -/
def ringTree : Tree (Fin 3) where
  children v := if v = 0 then [1, 2] else if v = 1 then [2] else [1]
  mutexIdx _ := 7

def ringRands (t : Fin 2) : Option PCG32 := if t = 0 then none else some ⟨2⟩

/-- Two threads in turn, until both have ended. -/
def ringSchedule : List (Fin 2) := [1, 0, 1, 0, 1, 0, 1, 0, 1, 0, 1, 0, 1, 0, 1, 0, 1, 0, 1, 0, 1, 0, 1, 0, 1]

theorem applyRecursively_once_ring :
    ∃ w, ringTree.applyRecursively 4 .anyOrder (fun _ => 4) [0] ringRands ringSchedule = some w ∧
      ∀ v, v ∈ w.shared.called ↔ ringTree.Reached [0] v := by
  have check : (ringTree.applyRecursively 4 .anyOrder (fun _ => 4) [0] ringRands ringSchedule).map (fun w =>
      (List.finRange 2).all fun t => (w.locals t).todo.isEmpty && (w.locals t).calls.isEmpty &&
        (w.locals t).phase = .walking) = some true := by decide +kernel
  obtain ⟨w, ran, ended⟩ := Option.map_eq_some_iff.mp check
  refine ⟨w, ran, fun v => (((applyRecursively_once (fun _ => by decide) ran).2.2 fun t => ?_) v).1⟩
  have own := List.all_eq_true.mp ended t (List.mem_finRange t)
  simp only [Bool.and_eq_true, List.isEmpty_iff, decide_eq_true_eq] at own
  exact ⟨own.1.1, own.1.2, own.2⟩

theorem applyRecursively_ends_ring : ∃ w,
    ringTree.applyRecursively 4 .postOrder (fun _ => 4) [0] ringRands [1, 0] = some w ∧
    ((∃ t, ¬(w.locals t).Ended) → ∃ t, ringTree.applyRecursively 4 .postOrder (fun _ => 4) [0] ringRands
    ([1, 0] ++ [t]) ≠ none) := by
  obtain ⟨w, ran⟩ := Option.isSome_iff_exists.mp
    (by decide +kernel : (ringTree.applyRecursively 4 .postOrder (fun _ => 4) [0] ringRands [1, 0]).isSome = true)
  exact ⟨w, ran, (applyRecursively_ends (fun _ => by decide) ran).2⟩

end Sample

end Results

end KataGo.Search
