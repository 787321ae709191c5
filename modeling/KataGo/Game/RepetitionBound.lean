import KataGo.Game.UnconditionalLife
import KataGo.Lib.BoundedCount

/-! `simpleRepetitionBoundGt` of `cpp/game/board.cpp`: whether a chain and the empty regions around
it have more than so many points, found by a search that gives up early. -/

namespace KataGo.Game
open KataGo.Lib CircularList Labelling BoundedCount

namespace Board

/-- `emptyCounted` and `count` are the state, and giving up is the source's `return true`. -/
def countEmptyHelper (b : Board) (bound : Int) (s : State Loc) (initialLoc : Loc) : ExceptT Unit Option (State Loc) :=
  countFrom b.adj (fun a => b.colors a = .empty) bound maxArrSize s initialLoc

/-- The search from the liberties of one stone. -/
def countAround (b : Board) (bound : Int) (s : State Loc) (cur : Loc) : ExceptT Unit Option (State Loc) :=
  (b.adj cur).foldlM (fun s lib => if b.colors lib = .empty then b.countEmptyHelper bound s lib else return s) s

/-- Whether a search gave up. -/
def gaveUp (search : ExceptT Unit Option (State Loc)) : Option Bool :=
  search.run.map fun
    | .ok _ => false
    | .error _ => true

def simpleRepetitionBoundGt (b : Board) (loc : Loc) (bound : Int) : Option Bool :=
  if loc = nullLoc ∨ loc = passLoc then some false
  else if b.colors loc = .empty then gaveUp (b.countEmptyHelper bound ⟨fun _ => false, 0⟩ loc)
  else
    let count := (b.chainData (b.chainHead loc)).numLocs
    if count + (b.chainData (b.chainHead loc)).numLiberties > bound then some true
    else do
      let stones ← b.chainLocs loc
      gaveUp (stones.foldlM (b.countAround bound) ⟨fun _ => false, count⟩)

variable {b : Board} {loc p q e : Loc} {base bound : Int} {s : State Loc} {T : Set Loc}

/-- The empty points connected to the chain of `p` through empty points: the empty regions next to it, together. -/
def surroundings (b : Board) (p : Loc) : Set Loc :=
  {q | ∃ e, Liberty (grid b.xSize) .empty b.colors p e ∧ Chain (grid b.xSize) b.colors e q}

/-- The points that the bound is compared with: the region of an empty point, or a chain with its surroundings. -/
noncomputable def repetitionSize (b : Board) (loc : Loc) : Nat :=
  if b.colors loc = .empty then (b.component loc).ncard else (b.component loc).ncard + (b.surroundings loc).ncard

/-- Whole empty regions of the board. -/
structure Regions (b : Board) (T : Set Loc) : Prop where
  blank : ∀ q ∈ T, b.colors q = .empty
  whole : ∀ q ∈ T, ∀ a, Chain (grid b.xSize) b.colors q a → a ∈ T

theorem Regions.finite (regions : b.Regions T) (shape : b.Shape) : T.Finite :=
  (List.finite_toSet b.locs).subset fun q member => shape.mem_locs (by rw [regions.blank q member]; decide)

theorem Regions.card_lt (regions : b.Regions T) (shape : b.Shape) : T.ncard < maxArrSize := by
  have inside : T ⊆ (b.locs.toFinset : Set Loc) := fun q member =>
    Finset.mem_coe.2 (List.mem_toFinset.2 (shape.mem_locs (by rw [regions.blank q member]; decide)))
  calc T.ncard ≤ (b.locs.toFinset : Set Loc).ncard := Set.ncard_le_ncard inside (Finset.finite_toSet _)
    _ = b.locs.toFinset.card := Set.ncard_coe_finset _
    _ ≤ maxLen * maxLen := card_boardLocs_le_square shape.wide.2 shape.high.2
    _ < maxArrSize := by decide

theorem Regions.closed (regions : b.Regions T) (member : q ∈ T) {a : Loc} (near : a ∈ b.adj q)
    (open_ : decide (b.colors a = .empty) = true) : a ∈ T := by
  refine regions.whole q member a (Chain.single near ?_)
  rw [of_decide_eq_true open_, regions.blank q member]

theorem regions_component (blank : b.colors loc = .empty) : b.Regions (b.component loc) :=
  ⟨fun _ chain => Chain.label chain |>.trans blank, fun _ chain _ later => Chain.trans chain later⟩

theorem regions_surroundings : b.Regions (b.surroundings loc) :=
  ⟨fun _ ⟨_, free, chain⟩ => chain.label.trans free.1, fun _ ⟨e, free, chain⟩ _ later => ⟨e, free, chain.trans later⟩⟩

theorem Regions.countEmptyHelper (regions : b.Regions T) (shape : b.Shape) (tally : Tally base bound T s)
    (saturated : Saturated b.adj (fun a => b.colors a = .empty) s []) (inside : e ∈ T) :
    Ends (b.countEmptyHelper bound s e)
      (fun s' => Tally base bound T s' ∧ Saturated b.adj (fun a => b.colors a = .empty) s' [] ∧
        (∀ x, s.counted x = true → s'.counted x = true) ∧ s'.counted e = true) (Exceeds base bound T) :=
  countFrom_spec (regions.finite shape) (fun _ member _ near open_ => regions.closed member near open_) tally saturated inside
    (regions.card_lt shape)

/-- What is counted next to a counted point is counted, and so is the region around it. -/
theorem counted_of_chain (saturated : Saturated b.adj (fun a => b.colors a = .empty) s []) (start : s.counted e = true)
    (blank : b.colors e = .empty) (chain : Chain (grid b.xSize) b.colors e q) : s.counted q = true := by
  refine (Chain.mem_of_closed (S := fun x => s.counted x = true ∧ b.colors x = .empty) ⟨start, blank⟩ ?_ chain).1
  rintro x a ⟨counted, label⟩ near same
  have next : b.colors a = .empty := same.trans label
  exact ⟨((saturated x counted).resolve_left List.not_mem_nil) a near (decide_eq_true next), next⟩

/-- The regions counted at the stones that have been looked at. -/
structure Surveyed (b : Board) (base bound : Int) (T : Set Loc) (seen : List Loc) (s : State Loc) : Prop where
  tally : Tally base bound T s
  saturated : Saturated b.adj (fun a => b.colors a = .empty) s []
  seen : ∀ cur ∈ seen, ∀ a ∈ b.adj cur, b.colors a = .empty → s.counted a = true

theorem Surveyed.step (regions : b.Regions T) (shape : b.Shape) {seen : List Loc} (surveyed : b.Surveyed base bound T seen s)
    {cur : Loc} (inside : ∀ a ∈ b.adj cur, b.colors a = .empty → a ∈ T) :
    Ends (b.countAround bound s cur) (b.Surveyed base bound T (seen ++ [cur])) (Exceeds base bound T) := by
  have loop := Ends.foldlM (f := fun s lib => if b.colors lib = .empty then b.countEmptyHelper bound s lib else pure s)
    (l := b.adj cur) (s := s) (E := Exceeds base bound T)
    (fun libs s' => b.Surveyed base bound T seen s' ∧ ∀ a ∈ libs, b.colors a = .empty → s'.counted a = true)
    (fun libs a rest s' split kept => ?_) ⟨surveyed, fun _ absent => (nomatch absent)⟩
  · refine loop.imp fun s' done => ⟨done.1.tally, done.1.saturated, fun x member => ?_⟩
    rcases List.mem_append.1 member with before | here
    · exact done.1.seen x before
    · rw [List.mem_singleton.1 here]
      exact done.2
  · obtain ⟨before, libsDone⟩ := kept
    by_cases blank : b.colors a = .empty
    · have near : a ∈ b.adj cur := split ▸ List.mem_append_right libs List.mem_cons_self
      rw [if_pos blank]
      refine (regions.countEmptyHelper shape before.tally before.saturated (inside a near blank)).imp ?_
      rintro s₁ ⟨tally₁, saturated₁, more, here⟩
      refine ⟨⟨tally₁, saturated₁, fun x member y near' open_ => more y (before.seen x member y near' open_)⟩, fun y member open_ => ?_⟩
      rcases List.mem_append.1 member with old | new
      · exact more y (libsDone y old open_)
      · rw [List.mem_singleton.1 new]
        exact here
    · rw [if_neg blank]
      refine Ends.pure ⟨before, fun y member open_ => ?_⟩
      rcases List.mem_append.1 member with old | new
      · exact libsDone y old open_
      · exact absurd open_ (List.mem_singleton.1 new ▸ blank)

theorem tally_nothing (within : base ≤ bound) : Tally base bound T (⟨fun _ => false, base⟩ : State Loc) :=
  ⟨by simp, fun _ absent => (nomatch absent), within⟩

/-- A search that ends by one of two ways answers accordingly. -/
theorem gaveUp_eq {search : ExceptT Unit Option (State Loc)} {P : State Loc → Prop} {size : Nat}
    (ends : Ends search P (Exceeds base bound T)) (total : base + T.ncard = size)
    (whole : ∀ s, P s → base + (T.ncard : Int) ≤ bound) :
    ∃ answer, gaveUp search = some answer ∧ (answer = true ↔ bound < size) := by
  rcases ends with ⟨s, run, done⟩ | ⟨e, run, many⟩
  · refine ⟨false, by rw [gaveUp, run]; rfl, iff_of_false Bool.false_ne_true ?_⟩
    have enough := whole s done
    omega
  · refine ⟨true, by rw [gaveUp, run]; rfl, iff_of_true rfl ?_⟩
    unfold Exceeds at many
    omega

variable [Zobrist]

/-- The answer is the comparison with the size, wherever the search gives up. -/
theorem simpleRepetitionBoundGt_exact (b : Board) (loc : Loc) (bound : Int) (consistent : b.Consistent) (point : loc ∈ b.locs)
    (natural : 0 ≤ bound) :
    ∃ answer, b.simpleRepetitionBoundGt loc bound = some answer ∧ (answer = true ↔ bound < b.repetitionSize loc) := by
  have shape := consistent.shape
  have onBoard : b.colors loc ≠ .wall := fun wall => (shape.wall_iff loc).1 wall point
  rw [simpleRepetitionBoundGt, if_neg (not_or.2 ⟨shape.ne_null onBoard, shape.ne_pass onBoard⟩)]
  by_cases blank : b.colors loc = .empty
  · rw [if_pos blank]
    have regions := regions_component blank
    refine gaveUp_eq (regions.countEmptyHelper shape (tally_nothing natural) (fun _ absent => (nomatch absent)) (Chain.refl loc))
      (by rw [repetitionSize, if_pos blank, zero_add]) fun s done => done.1.full fun q inside => ?_
    exact counted_of_chain done.2.1 done.2.2.2 blank inside
  · have stone : (b.colors loc).IsStone := by
      revert onBoard blank
      cases b.colors loc <;> decide
    have regular := consistent.regular
    have regions : b.Regions (b.surroundings loc) := regions_surroundings
    have size : (b.chainData (b.chainHead loc)).numLocs = ((b.component loc).ncard : Int) := regular.getChainSize stone
    have total : (b.chainData (b.chainHead loc)).numLocs + ((b.surroundings loc).ncard : Int) = b.repetitionSize loc := by
      rw [repetitionSize, if_neg blank, size]
      push_cast
      rfl
    have liberties : (b.chainData (b.chainHead loc)).numLiberties ≤ (b.surroundings loc).ncard := by
      have count : (b.chainData (b.chainHead loc)).numLiberties = ((b.liberties loc).ncard : Int) :=
        regular.getNumLiberties stone
      rw [count]
      exact Int.ofNat_le.2 (Set.ncard_le_ncard (fun e free => ⟨e, free, Chain.refl e⟩) (regions.finite shape))
    rw [if_neg blank]
    by_cases quick : (b.chainData (b.chainHead loc)).numLocs + (b.chainData (b.chainHead loc)).numLiberties > bound
    · exact ⟨true, if_pos quick, iff_of_true rfl (by omega)⟩
    · have positive : 0 ≤ (b.chainData (b.chainHead loc)).numLiberties := by
        have alive := consistent.alive loc stone
        omega
      obtain ⟨t, walked, ring, -⟩ := (regular.chainOk stone).chainLocs shape ⟨stone, rfl⟩
      have stones : ∀ q, q ∈ loc :: t ↔ Chain (grid b.xSize) b.colors loc q := fun q =>
        (ring.mem q).trans (regular.component loc q stone)
      simp only [if_neg quick, walked, Option.bind_eq_bind, Option.bind_some]
      refine gaveUp_eq (P := b.Surveyed _ bound _ (loc :: t)) ?_ total fun s done => done.tally.full ?_
      · refine Ends.foldlM (b.Surveyed _ bound _) (fun seen cur rest s' split kept => kept.step regions shape fun a near open_ => ?_)
          ⟨tally_nothing (by omega), fun _ absent => (nomatch absent), fun _ absent => (nomatch absent)⟩
        have chain := (stones cur).1 (split ▸ List.mem_append_right seen List.mem_cons_self)
        exact ⟨a, ⟨open_, cur, chain, near⟩, Chain.refl a⟩
      · rintro q ⟨e, ⟨open_, cur, chain, near⟩, along⟩
        exact counted_of_chain done.saturated (done.seen cur ((stones cur).2 chain) e near open_) open_ along

omit [Zobrist] in
/-- The three stones and the three points around them. -/
theorem simpleRepetitionBoundGt_exact_three :
    letI := Zobrist.blank
    ∃ b, threeStones = some b ∧ b.simpleRepetitionBoundGt (Location.getLoc 1 1 3) 5 = some true ∧
      5 < b.repetitionSize (Location.getLoc 1 1 3) := by
  let _ := Zobrist.blank
  obtain ⟨b, made, consistent⟩ := threeStones_consistent
  have black : threeStones.map (fun b => b.colors (Location.getLoc 1 1 3)) = some .black := by decide +kernel
  have more : (threeStones.bind fun b => b.simpleRepetitionBoundGt (Location.getLoc 1 1 3) 5) = some true := by decide +kernel
  rw [made] at black more
  have label : b.colors (Location.getLoc 1 1 3) = .black := Option.some.inj black
  have point : Location.getLoc 1 1 3 ∈ b.locs := consistent.shape.mem_locs (by rw [label]; decide)
  obtain ⟨answer, run, exact⟩ := simpleRepetitionBoundGt_exact b (Location.getLoc 1 1 3) 5 consistent point (by decide)
  rw [Option.bind_some] at more
  obtain rfl : true = answer := Option.some.inj (more.symm.trans run)
  exact ⟨b, made, more, by exact_mod_cast exact.1 rfl⟩

end Board
end KataGo.Game
