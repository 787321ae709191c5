import KataGo.Search.PlayoutPhases

/-! Whatever the search threads do at once, the children of a node keep the shape that all of them rely on. -/

namespace KataGo.Search
open KataGo.Lib Playout PlayoutPhase

variable {ι ν : Type} [Fintype ι] [DecidableEq ι] [DecidableEq ν] {settings : PlayoutSettings} {base : ν → Int}
  {kids : ν → List (ν × Nat)} {w w' : Threads ι (SearchTree ι ν) (Playout ν)} {t : ι} {choice : PlayoutChoice ν}

namespace Sound

theorem step {event : ι × PlayoutChoice ν} (sound : Sound settings base kids w)
    (taken : Threads.step (act settings) w event = some w') : Next settings base kids w w' := by
  obtain ⟨s', l', acted, rfl⟩ := Threads.step_eq_some.mp taken
  exact sound.act_next acted

theorem run {schedule : List (ι × PlayoutChoice ν)} (sound : Sound settings base kids w)
    (ran : Threads.run (act settings) w schedule = some w') : Next settings base kids w w' := by
  refine Threads.run_invariant (fun w' => Next settings base kids w w') ?_ ran ⟨kids, sound, .of_same rfl rfl rfl⟩
  rintro w₁ event w₂ ⟨kids₁, sound₁, grown⟩ taken
  obtain ⟨kids₂, sound₂, more⟩ := sound₁.step taken
  exact ⟨kids₂, sound₂, grown.trans more⟩

end Sound

section Playouts

/-- Between two searches: no thread is in a playout, no mutex is taken, and the children of every node are where they
belong. -/
structure Quiet (settings : PlayoutSettings) (w : Threads ι (SearchTree ι ν) (Playout ν)) : Prop where
  idle : ∀ t, w.locals t = ⟨[], w.shared.root, .idle⟩
  root : w.shared.root ∉ w.shared.table
  nodes : ∀ x, w.shared.Alive x → ∃ kids,
    (w.shared.nodes x).Shaped settings.policySize settings.needsHumanOutputInTree kids ∧
    (∀ kid ∈ kids, kid.1 ∈ w.shared.table) ∧ ¬(w.shared.nodes x).Pending
  mutexes : ∀ m, w.shared.mutexes m = none

omit [DecidableEq ι] in
theorem Quiet.sound (quiet : Quiet settings w) : ∃ kids, Sound settings w.shared.virtualLosses kids w := by
  have total (x : ν) : ∃ kids, w.shared.Alive x → (w.shared.nodes x).Shaped settings.policySize
    settings.needsHumanOutputInTree kids ∧
      (∀ kid ∈ kids, kid.1 ∈ w.shared.table) ∧ ¬(w.shared.nodes x).Pending := by
    by_cases alive : w.shared.Alive x
    · obtain ⟨kids, facts⟩ := quiet.nodes x alive
      exact ⟨kids, fun _ => facts⟩
    · exact ⟨[], fun alive' => absurd alive' alive⟩
  choose kids facts using total
  refine ⟨kids, quiet.root, fun x alive => (facts x alive).1, fun x alive => (facts x alive).2.1, fun t => ?_,
    fun t m => ?_,
    fun t u alone => ?_, fun x alive pending => absurd pending (facts x alive).2.2, fun x => ?_⟩
  · rw [quiet.idle t]
    exact {
      knows := trivial
      sole := trivial
      held := trivial
      path := rfl
      nodup := List.nodup_nil
      table := fun x member => by cases member
      outer := fun d member => by cases member
      idle := fun _ => rfl }
  · rw [quiet.idle t, quiet.mutexes m]
    exact iff_of_false (by simp) And.left
  · rw [quiet.idle t] at alone
    exact alone.elim
  · have none : ∑ t, (w.locals t).losses x = 0 := Finset.sum_eq_zero fun t _ => by rw [quiet.idle t]; rfl
    rw [none, add_zero]

omit [DecidableEq ι] in
theorem Sound.quiet (sound : Sound settings base kids w) (idle : ∀ t, (w.locals t).phase = .idle) :
    Quiet settings w ∧ w.shared.virtualLosses = base := by
  have at_ (t : ι) : w.locals t = ⟨[], w.shared.root, .idle⟩ := by
    have outer := (sound.own t).idle (idle t)
    have path := (sound.own t).path
    rw [graphPath, outer] at path
    have node : w.shared.root = (w.locals t).node := (List.cons.inj path).1
    rw [node, ← outer, ← idle t]
  refine ⟨⟨at_, sound.root, fun x alive => ⟨kids x, sound.shaped x alive, sound.members x alive, fun pending => ?_⟩,
    fun m => ?_⟩, ?_⟩
  · obtain ⟨t, alone, -⟩ := sound.pending x alive pending
    rw [idle t] at alone
    exact alone
  · cases holder : w.shared.mutexes m with
    | none => rfl
    | some t =>
      have holds := ((sound.holder t m).mp holder).1
      rw [idle t] at holds
      exact holds.elim
  · funext x
    have none : ∑ t, (w.locals t).losses x = 0 := Finset.sum_eq_zero fun t _ => by rw [at_ t]; rfl
    rw [sound.losses x, none, add_zero]

/-- At most one thread brings the state of a node forward, and finds it as it left it; at most one adds a child to a
node. -/
theorem playouts_exclusive {schedule : List (ι × PlayoutChoice ν)} (start : Quiet settings w)
    (ran : Threads.run (act settings) w schedule = some w') (t u : ι) (same : (w'.locals t).node = (w'.locals u).node) :
    ((w'.locals t).phase.Alone → (w'.locals u).phase.Alone → t = u) ∧
      ((w'.locals t).phase.Holds → (w'.locals u).phase.Holds → t = u) ∧
      (w'.locals t).phase.Sole (w'.shared.nodes (w'.locals t).node) := by
  obtain ⟨kids, before⟩ := start.sound
  obtain ⟨kids', sound, -⟩ := before.run ran
  refine ⟨fun first second => sound.sole t u first second same, fun first second => ?_, (sound.own t).sole⟩
  have mine := (sound.holder t _).mpr ⟨first, rfl⟩
  have others := (sound.holder u _).mpr ⟨second, rfl⟩
  rw [← same, mine] at others
  exact Option.some.inj others

/-- From one moment to a later one a node only gains: its state, its outputs, and its children, which stay where they
are. -/
theorem playouts_grow {first second : List (ι × PlayoutChoice ν)} {w₁ w₂ : Threads ι (SearchTree ι ν) (Playout ν)}
    (start : Quiet settings w) (ran : Threads.run (act settings) w first = some w₁)
    (later : Threads.run (act settings) w₁ second = some w₂) {x : ν} (alive : w₁.shared.Alive x) :
    w₂.shared.Alive x ∧ (w₁.shared.nodes x).state.toNat ≤ (w₂.shared.nodes x).state.toNat ∧
      ((w₁.shared.nodes x).nnOutput = true → (w₂.shared.nodes x).nnOutput = true) ∧
      ∀ i kid, (w₁.shared.nodes x).view i = some kid → (w₂.shared.nodes x).view i = some kid := by
  obtain ⟨kids, before⟩ := start.sound
  obtain ⟨kids₁, sound₁, -⟩ := before.run ran
  obtain ⟨kids₂, sound₂, grown⟩ := sound₁.run later
  have more := grown.nodes x alive
  refine ⟨grown.alive alive, more.state, more.nnOutput, fun i kid here => ?_⟩
  rw [(sound₁.shaped x alive).view] at here
  rw [(sound₂.shaped x (grown.alive alive)).view]
  exact getElem?_later more here

/-- Every virtual loss belongs to a thread on its way through the child; when all playouts have ended, there are as
many as before. -/
theorem playouts_virtualLosses {schedule : List (ι × PlayoutChoice ν)} (start : Quiet settings w)
    (ran : Threads.run (act settings) w schedule = some w') :
    (∀ x, w'.shared.virtualLosses x = w.shared.virtualLosses x + ∑ t, (w'.locals t).losses x) ∧
      ((∀ t, (w'.locals t).phase = .idle) → Quiet settings w' ∧ w'.shared.virtualLosses = w.shared.virtualLosses) := by
  obtain ⟨kids, before⟩ := start.sound
  obtain ⟨kids', sound, -⟩ := before.run ran
  exact ⟨sound.losses, sound.quiet⟩

/-- The calls of a thread follow the children down from the root, and end, as they come to no node twice. -/
theorem playouts_path {schedule : List (ι × PlayoutChoice ν)} (start : Quiet settings w)
    (ran : Threads.run (act settings) w schedule = some w') (t : ι) :
    (w'.locals t).graphPath ++ [w'.shared.root] = (w'.locals t).node :: (w'.locals t).outer.map Descent.node ∧
      ((w'.locals t).graphPath ++ [w'.shared.root]).Nodup ∧ (w'.locals t).outer.length ≤ w'.shared.table.length ∧
      ∀ d ∈ (w'.locals t).outer, ∃ move, (w'.shared.nodes d.node).view d.childIdx = some (d.child, move) := by
  obtain ⟨kids, before⟩ := start.sound
  obtain ⟨kids', sound, -⟩ := before.run ran
  have own := sound.own t
  have root : w'.shared.root ∉ (w'.locals t).graphPath := fun member => sound.root (own.table _ member)
  refine ⟨own.path, ?_, ?_, fun d member => ?_⟩
  · exact List.nodup_append'.mpr ⟨own.nodup, List.nodup_singleton _, List.disjoint_singleton.mpr root⟩
  · have length := (List.subperm_of_subset own.nodup own.table).length_le
    rwa [graphPath, List.length_map] at length
  · obtain ⟨move, kid⟩ := own.outer d member
    exact ⟨move, ((sound.shaped d.node (own.alive_outer member)).view _).trans kid⟩

omit [Fintype ι] in
/-- A thread in a mutex never waits. -/
theorem isSome_act_of_holds {s : SearchTree ι ν} {l : Playout ν} (holds : l.phase.Holds) :
    (act settings t choice s l).isSome = true := by
  obtain ⟨outer, node, phase⟩ := l
  cases phase with
  | checking | settingMove | storing =>
    simp only [act]
    split <;> rfl
  | unlocking | givingUp | abandoning => rfl
  | _ => exact absurd holds id

omit [Fintype ι] in
/-- Apart from the mutex, a thread waits for nothing. -/
theorem exists_act [Nontrivial ν] {s : SearchTree ι ν} {l : Playout ν} (works : l.phase ≠ .failed)
    (free : ∀ childIdx move child, l.phase = .locking childIdx move child →
      s.mutexes (s.nodes l.node).mutexIdx = none) :
    ∃ choice, (act settings t choice s l).isSome = true := by
  obtain ⟨outer, node, phase⟩ := l
  cases phase with
  | failed => exact absurd rfl works
  | locking childIdx move child =>
    refine ⟨.go, ?_⟩
    simp only [act, if_pos (free childIdx move child rfl)]
    rfl
  | making nodeState childIdx move =>
    obtain ⟨child, other⟩ := exists_ne s.root
    refine ⟨.allocate child 0, ?_⟩
    simp only [act, if_neg other]
    repeat' split
    all_goals rfl
  | checking | settingMove | storing | unlocking | givingUp | abandoning => exact ⟨.go, isSome_act_of_holds trivial⟩
  | _ =>
    refine ⟨.giveUp, ?_⟩
    simp only [act]
    repeat' split
    all_goals rfl

end Playouts

/-- A search that begins, of up to three moves. -/
def newSearch : Threads Bool (SearchTree Bool Nat) (Playout Nat) :=
  ⟨⟨0, fun _ => .new 0, [], fun _ => none, fun _ => 0⟩, fun _ => ⟨[], 0, .idle⟩⟩

def newSearchSettings : PlayoutSettings := ⟨3, by decide, true, true⟩

/-- A thread goes on for some steps. -/
def newSearchSteps (t : Bool) (n : Nat) : List (Bool × PlayoutChoice Nat) := List.replicate n (t, .go)

/-- Both threads evaluate the root; then both make a child for one move, which one of them has to give up. -/
def newSearchSchedule : List (Bool × PlayoutChoice Nat) :=
  [newSearchSteps true 1, newSearchSteps false 4, newSearchSteps true 4, newSearchSteps false 6, newSearchSteps true 2,
    [(false, .expand 2), (true, .expand 2), (false, .go), (true, .go), (false, .allocate 1 0), (true, .allocate 1 0)],
    newSearchSteps false 2, newSearchSteps true 1, newSearchSteps false 5, newSearchSteps true 4,
    newSearchSteps false 8].flatten

theorem newSearch_quiet : Quiet newSearchSettings newSearch where
  idle _ := rfl
  root member := by cases member
  nodes x _ := by
    refine ⟨[], SearchNode.new_shaped 0, (fun kid member => by cases member), ?_⟩
    rintro (⟨-, evaluated⟩ | ⟨a, growing⟩)
    · cases evaluated
    · cases a <;> cases growing
  mutexes _ := rfl

/-- Both threads are about to store the child. -/
theorem playouts_exclusive_newSearch : ∃ w, Threads.run (act newSearchSettings) newSearch (newSearchSchedule.take 26) =
    some w ∧
    (w.locals false).phase.Holds ∧ ¬(w.locals true).phase.Holds := by
  have check : (Threads.run (act newSearchSettings) newSearch (newSearchSchedule.take 26)).map (fun w =>
      ((w.locals false).node, (w.locals true).node, (w.locals false).phase)) = some
      (0, 0, .checking 0 2 1) := by decide +kernel
  obtain ⟨w, ran, same⟩ := Option.map_eq_some_iff.mp check
  simp only [Prod.mk.injEq] at same
  obtain ⟨first, second, phase⟩ := same
  have holds : (w.locals false).phase.Holds := phase ▸ trivial
  have one := (playouts_exclusive newSearch_quiet ran false true (first.trans second.symm)).2.1 holds
  exact ⟨w, ran, holds, fun other => absurd (one other) (by decide)⟩

theorem playouts_grow_newSearch : ∃ w₁ w₂, Threads.run (act newSearchSettings) newSearch (newSearchSchedule.take 29) =
    some w₁ ∧
    Threads.run (act newSearchSettings) w₁ (newSearchSchedule.drop 29) = some w₂ ∧
      (w₂.shared.nodes 0).view 0 = some (1, 2) := by
  have check : (Threads.run (act newSearchSettings) newSearch (newSearchSchedule.take 29)).bind (fun w₁ =>
      (Threads.run (act newSearchSettings) w₁ (newSearchSchedule.drop 29)).map fun _ =>
        (w₁.shared.root, (w₁.shared.nodes 0).view 0)) = some (0, some (1, 2)) := by decide +kernel
  obtain ⟨w₁, ran, rest⟩ := Option.bind_eq_some_iff.mp check
  obtain ⟨w₂, later, same⟩ := Option.map_eq_some_iff.mp rest
  rw [Prod.mk.injEq] at same
  have grown := playouts_grow newSearch_quiet ran later (x := 0) (.inl same.1.symm)
  exact ⟨w₁, w₂, ran, later, grown.2.2.2 0 (1, 2) same.2⟩

theorem playouts_virtualLosses_newSearch : ∃ w, Threads.run (act newSearchSettings) newSearch newSearchSchedule =
    some w ∧
    Quiet newSearchSettings w ∧ w.shared.virtualLosses = fun _ => 0 := by
  have check : (Threads.run (act newSearchSettings) newSearch newSearchSchedule).map (fun w =>
      [false, true].all fun t => (w.locals t).phase = .idle) = some true := by decide +kernel
  obtain ⟨w, ran, ended⟩ := Option.map_eq_some_iff.mp check
  exact ⟨w, ran, (playouts_virtualLosses newSearch_quiet ran).2 fun t =>
    of_decide_eq_true (List.all_eq_true.mp ended t (by cases t <;> simp))⟩

/-- One thread has gone down to the new child. -/
theorem playouts_path_newSearch : ∃ w, Threads.run (act newSearchSettings) newSearch (newSearchSchedule.take 31) =
    some w ∧
    (w.locals false).outer.length = 1 ∧ 1 ≤ w.shared.table.length := by
  have check : (Threads.run (act newSearchSettings) newSearch (newSearchSchedule.take 31)).map (fun w =>
      (w.locals false).outer.length) = some 1 := by decide +kernel
  obtain ⟨w, ran, deep⟩ := Option.map_eq_some_iff.mp check
  exact ⟨w, ran, deep, deep ▸ (playouts_path newSearch_quiet ran false).2.2.1⟩

end KataGo.Search
