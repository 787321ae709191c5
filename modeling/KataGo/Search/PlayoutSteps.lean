import KataGo.Search.PlayoutKnowledge

/-! The invariant of all playouts, and which steps of one thread keep it. -/

namespace KataGo.Search
open KataGo.Lib SearchChildrenSizes Playout PlayoutPhase
open Threads (forall_update)

variable {ι ν : Type} [Fintype ι] [DecidableEq ν] {settings : PlayoutSettings} {base : ν → Int}
  {kids : ν → List (ν × Nat)}
  {w w' : Threads ι (SearchTree ι ν) (Playout ν)} {s' : SearchTree ι ν} {l' : Playout ν} {t : ι}
  {choice : PlayoutChoice ν}

/-- The invariant of every run, with the children of each node. -/
structure Sound (settings : PlayoutSettings) (base : ν → Int) (kids : ν → List (ν × Nat))
    (w : Threads ι (SearchTree ι ν) (Playout ν)) : Prop where
  root : w.shared.root ∉ w.shared.table
  shaped : ∀ x, w.shared.Alive x → (w.shared.nodes x).Shaped settings.policySize settings.needsHumanOutputInTree
    (kids x)
  members : ∀ x, w.shared.Alive x → ∀ kid ∈ kids x, kid.1 ∈ w.shared.table
  own : ∀ t, (w.locals t).Own settings w.shared kids
  holder : ∀ t m, w.shared.mutexes m = some t ↔ (w.locals t).phase.Holds ∧
    (w.shared.nodes (w.locals t).node).mutexIdx = m
  sole : ∀ t u, (w.locals t).phase.Alone → (w.locals u).phase.Alone → (w.locals t).node = (w.locals u).node → t = u
  pending : ∀ x, w.shared.Alive x → (w.shared.nodes x).Pending → ∃ t, (w.locals t).phase.Alone ∧ (w.locals t).node = x
  losses : ∀ x, w.shared.virtualLosses x = base x + ∑ t, (w.locals t).losses x

/-- The invariant holds after a step, which leaves the tree what it had. -/
def Next (settings : PlayoutSettings) (base : ν → Int) (kids : ν → List (ν × Nat))
    (w w' : Threads ι (SearchTree ι ν) (Playout ν)) :
    Prop :=
  ∃ kids', Sound settings base kids' w' ∧ w.shared.Grown kids w'.shared kids'

namespace Sound

theorem pending_of_alone (sound : Sound settings base kids w) (alone : (w.locals t).phase.Alone) :
    (w.shared.nodes (w.locals t).node).Pending :=
  alone.pending (sound.own t).knows (sound.own t).sole

variable [DecidableEq ι]

theorem losses_update (sound : Sound settings base kids w)
    (losses : ∀ x, s'.virtualLosses x + (w.locals t).losses x = w.shared.virtualLosses x + l'.losses x) (x : ν) :
    s'.virtualLosses x = base x + ∑ u, (Function.update w.locals t l' u).losses x := by
  have sum := Threads.sum_update (fun l => l.losses x) w.locals t l'
  have before := sound.losses x
  have now := losses x
  omega

/-- A step that changes no node. -/
theorem stay (sound : Sound settings base kids w) (root : s'.root = w.shared.root) (nodes : s'.nodes = w.shared.nodes)
    (table : s'.table = w.shared.table) (own : l'.Own settings w.shared kids)
    (mine : ∀ m, s'.mutexes m = some t ↔ l'.phase.Holds ∧ (w.shared.nodes l'.node).mutexIdx = m)
    (others : ∀ m u, u ≠ t → (s'.mutexes m = some u ↔ w.shared.mutexes m = some u)) (before : ¬(w.locals t).phase.Alone)
    (after : ¬l'.phase.Alone)
    (losses : ∀ x, s'.virtualLosses x + (w.locals t).losses x = w.shared.virtualLosses x + l'.losses x) :
    Next settings base kids w ⟨s', Function.update w.locals t l'⟩ := by
  have alive (x : ν) : s'.Alive x ↔ w.shared.Alive x := by rw [SearchTree.Alive, SearchTree.Alive, root, table]
  have keeps {l : Playout ν} (own : l.Own settings w.shared kids) : l.Own settings s' kids :=
    own.later (.of_same root table nodes) (nodes ▸ own.sole) (nodes ▸ own.held)
  refine ⟨kids, ?_, .of_same root table nodes⟩
  constructor
  · rw [root, table]
    exact sound.root
  · intro x here
    show (s'.nodes x).Shaped _ _ _
    rw [nodes]
    exact sound.shaped x ((alive x).mp here)
  · intro x here
    show ∀ kid ∈ kids x, kid.1 ∈ s'.table
    rw [table]
    exact sound.members x ((alive x).mp here)
  · exact forall_update (P := fun _ (l : Playout ν) => l.Own settings s' kids) (keeps own) fun u _ => keeps
      (sound.own u)
  · refine forall_update (P := fun u (l : Playout ν) => ∀ m, s'.mutexes m = some u ↔ l.phase.Holds ∧
      (s'.nodes l.node).mutexIdx = m)
      ?_ ?_
    · rw [nodes]
      exact mine
    · intro u other m
      rw [nodes, others m u other]
      exact sound.holder u m
  · refine forall_update (P := fun u (l : Playout ν) => ∀ v, l.phase.Alone →
      (Function.update w.locals t l' v).phase.Alone →
      l.node = (Function.update w.locals t l' v).node → u = v) (fun _ alone => absurd alone after) fun u other => ?_
    exact forall_update (P := fun v (l : Playout ν) => (w.locals u).phase.Alone → l.phase.Alone →
      (w.locals u).node = l.node → u = v)
      (fun _ alone => absurd alone after) fun v _ => sound.sole u v
  · intro x here pending
    obtain ⟨u, alone, same⟩ := sound.pending x ((alive x).mp here) (by rw [← nodes]; exact pending)
    have other : u ≠ t := by
      rintro rfl
      exact before alone
    refine ⟨u, ?_⟩
    show (Function.update w.locals t l' u).phase.Alone ∧ (Function.update w.locals t l' u).node = x
    rw [Function.update_of_ne other]
    exact ⟨alone, same⟩
  · exact sound.losses_update losses

/-- A thread only looks at the tree, and goes on. -/
theorem goOn {phase : PlayoutPhase ν} (sound : Sound settings base kids w)
    (knows : phase.Knows settings (w.shared.nodes (w.locals t).node) (kids (w.locals t).node) w.shared.table)
    (held : phase.Held (w.shared.nodes (w.locals t).node) (kids (w.locals t).node)) (before : ¬(w.locals t).phase.Alone)
    (after : ¬phase.Alone) (holds : phase.Holds ↔ (w.locals t).phase.Holds)
    (child : phase.child? = (w.locals t).phase.child?)
    (busy : phase ≠ .idle) :
    Next settings base kids w ⟨w.shared, Function.update w.locals t ((w.locals t).goTo phase)⟩ := by
  refine sound.stay rfl rfl rfl ((sound.own t).goTo knows (sole_of_not_alone after) held busy) ?_
    (fun _ _ _ => Iff.rfl) before
    after ?_
  · intro m
    rw [sound.holder t m]
    exact and_congr_left fun _ => holds.symm
  · intro x
    rw [Playout.losses, Playout.losses, ← child]
    rfl

/-- A thread only looks at the tree, without a child or the mutex, and goes on. -/
theorem looks {phase : PlayoutPhase ν} (sound : Sound settings base kids w) (before : (w.locals t).phase.Free)
    (after : phase.Free)
    (knows : phase.Knows settings (w.shared.nodes (w.locals t).node) (kids (w.locals t).node) w.shared.table)
    (busy : phase ≠ .idle) :
    Next settings base kids w ⟨w.shared, Function.update w.locals t ((w.locals t).goTo phase)⟩ :=
  sound.goOn knows (held_of_not_holds after.1) before.2.1 after.2.1 (iff_of_false after.1 before.1)
    (after.2.2.trans before.2.2.symm)
    busy

/-- A thread leaves a call. -/
theorem leaves (sound : Sound settings base kids w) (before : (w.locals t).phase.Free) :
    Next settings base kids w ⟨w.shared, Function.update w.locals t (w.locals t).leave⟩ := by
  refine sound.stay rfl rfl rfl (sound.own t).leave ?_ (fun _ _ _ => Iff.rfl) before.2.1 not_alone_leave ?_
  · intro m
    rw [sound.holder t m]
    exact iff_of_false (fun holds => before.1 holds.1) fun holds => not_holds_leave holds.1
  · intro x
    rw [losses_leave, Playout.losses, before.2.2]
    simp

/-- A thread changes the node that it is at. -/
theorem change {node' : SearchNode ν} {kids' : List (ν × Nat)} (sound : Sound settings base kids w)
    (later : (w.shared.nodes (w.locals t).node).Later (kids (w.locals t).node) node' kids')
    (shaped : node'.Shaped settings.policySize settings.needsHumanOutputInTree kids')
    (members : ∀ kid ∈ kids', kid.1 ∈ w.shared.table)
    (own : ((w.locals t).goTo .entering).Own settings (w.shared.setNode (w.locals t).node node')
        (Function.update kids (w.locals t).node kids') →
      l'.Own settings (w.shared.setNode (w.locals t).node node') (Function.update kids (w.locals t).node kids'))
    (sole : (node'.state = (w.shared.nodes (w.locals t).node).state ∧
        ∀ a, (node'.children a).isSome = ((w.shared.nodes (w.locals t).node).children a).isSome) ∨
      (w.locals t).phase.Alone ∨ ¬(w.shared.nodes (w.locals t).node).Pending)
    (held : (w.locals t).phase.Holds ∨ kids' = kids (w.locals t).node ∧
      ∀ i p, (w.shared.nodes (w.locals t).node).slot i = some p → node'.slot i = some p)
    (holds : (l'.phase.Holds ↔ (w.locals t).phase.Holds) ∧ (l'.phase.Holds → l'.node = (w.locals t).node))
    (alone : l'.phase.Alone → l'.node = (w.locals t).node ∧
    ((w.locals t).phase.Alone ∨ ¬(w.shared.nodes (w.locals t).node).Pending))
    (pending : node'.Pending → (l'.phase.Alone ∧ l'.node = (w.locals t).node) ∨
      (w.shared.nodes (w.locals t).node).Pending ∧ ¬(w.locals t).phase.Alone)
    (losses : ∀ x, l'.losses x = (w.locals t).losses x) :
    Sound settings base (Function.update kids (w.locals t).node kids')
      ⟨w.shared.setNode (w.locals t).node node', Function.update w.locals t l'⟩ := by
  have here : (w.shared.setNode (w.locals t).node node').nodes (w.locals t).node = node' := Function.update_self ..
  have there {x : ν} (other : x ≠ (w.locals t).node) :
      (w.shared.setNode (w.locals t).node node').nodes x = w.shared.nodes x := Function.update_of_ne other ..
  have mutexIdx (x : ν) : ((w.shared.setNode (w.locals t).node node').nodes x).mutexIdx =
    (w.shared.nodes x).mutexIdx := by
    by_cases same : x = (w.locals t).node
    · rw [same, here]
      exact later.mutexIdx
    · rw [there same]
  have nobody (idle : (w.locals t).phase.Alone ∨ ¬(w.shared.nodes (w.locals t).node).Pending) (u : ι) (other : u ≠ t)
      (at_ : (w.locals u).node = (w.locals t).node) : ¬(w.locals u).phase.Alone := by
    intro alone
    rcases idle with mine | idle
    · exact other (sound.sole u t alone mine at_)
    · exact idle (at_ ▸ sound.pending_of_alone alone)
  have grown := SearchTree.Grown.setNode later
  constructor
  · exact sound.root
  · intro x alive
    by_cases same : x = (w.locals t).node
    · rw [same, Function.update_self]
      show ((w.shared.setNode _ node').nodes _).Shaped _ _ _
      rw [here]
      exact shaped
    · rw [Function.update_of_ne same]
      exact there same ▸ sound.shaped x alive
  · intro x alive
    by_cases same : x = (w.locals t).node
    · rw [same, Function.update_self]
      exact members
    · rw [Function.update_of_ne same]
      exact sound.members x alive
  · refine forall_update (P := fun _ (l : Playout ν) => l.Own settings (w.shared.setNode (w.locals t).node node') _) ?_
      fun u other => ?_
    · have before : ((w.locals t).goTo .entering).Own settings w.shared kids :=
        (sound.own t).goTo trivial trivial trivial (by simp)
      exact own (before.later grown trivial trivial)
    · refine (sound.own u).later grown ?_ ?_
      · by_cases same : (w.locals u).node = (w.locals t).node
        · rw [same, here]
          rcases sole with unchanged | idle
          · exact Sole.of_same (same ▸ (sound.own u).sole) unchanged.1 unchanged.2
          · exact sole_of_not_alone (nobody idle u other same)
        · rw [there same]
          exact (sound.own u).sole
      · by_cases same : (w.locals u).node = (w.locals t).node
        · rw [same, here, Function.update_self]
          by_cases holding : (w.locals u).phase.Holds
          · rcases held with mine | ⟨rfl, slots⟩
            · have first := (sound.holder u _).mpr ⟨holding, rfl⟩
              have second := (sound.holder t _).mpr ⟨mine, rfl⟩
              rw [same, second] at first
              exact absurd (Option.some.inj first).symm other
            · exact Held.of_same (same ▸ (sound.own u).held) slots
          · exact held_of_not_holds holding
        · rw [there same, Function.update_of_ne same]
          exact (sound.own u).held
  · refine forall_update (P := fun u (l : Playout ν) => ∀ m, w.shared.mutexes m = some u ↔ l.phase.Holds ∧
      ((w.shared.setNode (w.locals t).node node').nodes l.node).mutexIdx = m) ?_ ?_
    · intro m
      rw [mutexIdx, sound.holder t m]
      constructor
      · rintro ⟨mine, idx⟩
        have still := holds.1.mpr mine
        exact ⟨still, by rw [holds.2 still, idx]⟩
      · rintro ⟨mine, idx⟩
        exact ⟨holds.1.mp mine, by rw [← holds.2 mine, idx]⟩
    · intro u _ m
      rw [mutexIdx]
      exact sound.holder u m
  · have mine {u : ι} (other : u ≠ t) (first : l'.phase.Alone) (second : (w.locals u).phase.Alone)
        (same : l'.node = (w.locals u).node) : False :=
      nobody (alone first).2 u other (by rw [← same, (alone first).1]) second
    refine forall_update (P := fun u (l : Playout ν) => ∀ v, l.phase.Alone →
      (Function.update w.locals t l' v).phase.Alone →
      l.node = (Function.update w.locals t l' v).node → u = v) ?_ ?_
    · refine forall_update (P := fun v (l : Playout ν) => l'.phase.Alone → l.phase.Alone → l'.node = l.node → t = v)
        (fun _ _ _ => rfl) ?_
      intro v other first second same
      exact (mine other first second same).elim
    · intro u other
      refine forall_update (P := fun v (l : Playout ν) => (w.locals u).phase.Alone → l.phase.Alone →
        (w.locals u).node = l.node →
        u = v) ?_ ?_
      · intro second first same
        exact (mine other first second same.symm).elim
      · exact fun v _ => sound.sole u v
  · intro x alive waits
    have others (u : ι) (other : u ≠ t) (alone : (w.locals u).phase.Alone ∧ (w.locals u).node = x) :
        ∃ u, (Function.update w.locals t l' u).phase.Alone ∧ (Function.update w.locals t l' u).node = x :=
      ⟨u, by rwa [Function.update_of_ne other]⟩
    by_cases same : x = (w.locals t).node
    · rcases pending (here ▸ same ▸ waits) with mine | ⟨before, free⟩
      · refine ⟨t, ?_⟩
        show (Function.update w.locals t l' t).phase.Alone ∧ (Function.update w.locals t l' t).node = x
        rw [Function.update_self, same]
        exact mine
      · obtain ⟨u, waiting, at_⟩ := sound.pending x alive (same ▸ before)
        refine others u ?_ ⟨waiting, at_⟩
        rintro rfl
        exact free waiting
    · obtain ⟨u, waiting, at_⟩ := sound.pending x alive (there same ▸ waits)
      refine others u ?_ ⟨waiting, at_⟩
      rintro rfl
      exact same at_.symm
  · exact sound.losses_update fun x => by rw [losses x]; rfl

theorem changeTo {node' : SearchNode ν} {kids' : List (ν × Nat)} {phase : PlayoutPhase ν}
    (sound : Sound settings base kids w)
    (later : (w.shared.nodes (w.locals t).node).Later (kids (w.locals t).node) node' kids')
    (shaped : node'.Shaped settings.policySize settings.needsHumanOutputInTree kids')
    (members : ∀ kid ∈ kids', kid.1 ∈ w.shared.table) (knows : phase.Knows settings node' kids' w.shared.table)
    (own : phase.Sole node' ∧ phase.Held node' kids')
    (sole : (node'.state = (w.shared.nodes (w.locals t).node).state ∧
        ∀ a, (node'.children a).isSome = ((w.shared.nodes (w.locals t).node).children a).isSome) ∨
      (w.locals t).phase.Alone ∨ ¬(w.shared.nodes (w.locals t).node).Pending)
    (held : (w.locals t).phase.Holds ∨ kids' = kids (w.locals t).node ∧
      ∀ i p, (w.shared.nodes (w.locals t).node).slot i = some p → node'.slot i = some p)
    (holds : phase.Holds ↔ (w.locals t).phase.Holds)
    (alone : phase.Alone → (w.locals t).phase.Alone ∨ ¬(w.shared.nodes (w.locals t).node).Pending)
    (pending : node'.Pending → phase.Alone ∨ (w.shared.nodes (w.locals t).node).Pending ∧ ¬(w.locals t).phase.Alone)
    (child : phase.child? = (w.locals t).phase.child?) (busy : phase ≠ .idle) :
    Next settings base kids w
      ⟨w.shared.setNode (w.locals t).node node', Function.update w.locals t ((w.locals t).goTo phase)⟩ := by
  refine ⟨_, sound.change later shaped members ?_ sole held ⟨holds, fun _ => rfl⟩ (fun waits => ⟨rfl, alone waits⟩)
    (fun waits => (pending waits).imp_left fun here => ⟨here, rfl⟩) ?_, .setNode later⟩
  · intro before
    show (((w.locals t).goTo .entering).goTo phase).Own _ _ _
    refine before.goTo ?_ ?_ ?_ busy
    all_goals simp only [Playout.goTo, SearchTree.setNode, Function.update_self]
    exacts [knows, own.1, own.2]
  · intro x
    rw [Playout.losses, Playout.losses, ← child]
    rfl

/-- A thread changes the node that it is at, and leaves. -/
theorem changeLast {node' : SearchNode ν} (sound : Sound settings base kids w)
    (later : (w.shared.nodes (w.locals t).node).Later (kids (w.locals t).node) node' (kids (w.locals t).node))
    (shaped : node'.Shaped settings.policySize settings.needsHumanOutputInTree (kids (w.locals t).node))
    (sole : (node'.state = (w.shared.nodes (w.locals t).node).state ∧
        ∀ a, (node'.children a).isSome = ((w.shared.nodes (w.locals t).node).children a).isSome) ∨
      (w.locals t).phase.Alone)
    (slots : ∀ i p, (w.shared.nodes (w.locals t).node).slot i = some p → node'.slot i = some p)
    (free : ¬(w.locals t).phase.Holds)
    (pending : node'.Pending → (w.shared.nodes (w.locals t).node).Pending ∧ ¬(w.locals t).phase.Alone)
    (child : (w.locals t).phase.child? = none) :
    Next settings base kids w
      ⟨w.shared.setNode (w.locals t).node node', Function.update w.locals t (w.locals t).leave⟩ := by
  refine ⟨_, sound.change later shaped (sound.members _ (sound.own t).alive) ?_ (sole.imp_right .inl)
    (.inr ⟨rfl, slots⟩)
    ⟨iff_of_false not_holds_leave free, fun holds => absurd holds not_holds_leave⟩
    (fun alone => absurd alone not_alone_leave)
    (fun waits => .inr (pending waits)) ?_, .setNode later⟩
  · exact fun before => before.leave
  · intro x
    rw [losses_leave, Playout.losses, child]
    simp

end Sound
end KataGo.Search
