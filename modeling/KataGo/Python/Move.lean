import KataGo.Python.Play

/-! The captures of `add_unsafe`, the suicide, and the comparison of the whole with the rule
of the game. -/

namespace KataGo.Python
open KataGo.Lib CircularList Labelling
open KataGo.Game (Color Player getOpp Loc grid adjs_symm)
open KataGo.Game.Board (DeadBy deadBy_snoc deadBy_adj taken taken_removeDead_eq_empty KoPoint)

namespace Board

variable {b b' b₁ : Board} {p q e loc a : Loc} {pla : Player}

theorem taken_finite {c : Loc → Color} {k : Color} (shape : b.Shape) : (taken c b.board k).Finite := by
  refine Set.Finite.subset (Finset.finite_toSet b.locs.toFinset) fun q gone => ?_
  rw [Finset.mem_coe, List.mem_toFinset]
  exact shape.mem_locs (by rw [gone.2]; decide)

/-- After the directions `seen`: the opponent's groups among them that had no liberty on `b₁`
are gone. -/
structure Capturing (b₁ : Board) (pla : Player) (loc : Loc) (seen : List Loc) (s : CaptureState) : Prop where
  regular : s.board.Regular
  rest : SameRest b₁ s.board
  dead : ∀ q, DeadBy b₁.xSize b₁.board (getOpp pla) seen q → s.board.board q = .empty
  kept : ∀ q, ¬ DeadBy b₁.xSize b₁.board (getOpp pla) seen q → s.board.board q = b₁.board q
  captured : s.oppStonesCaptured = (taken b₁.board s.board.board (getOpp pla)).ncard
  caploc : s.oppStonesCaptured ≠ 0 →
    s.caploc ∈ b₁.adj loc ∧ s.caploc ∈ taken b₁.board s.board.board (getOpp pla)

namespace Capturing

variable {seen : List Loc} {s : CaptureState}

theorem start (regular : b₁.Regular) (player : pla.IsStone) (loc : Loc) :
    Capturing b₁ pla loc [] ⟨b₁, 0, 0⟩ := by
  refine ⟨regular, SameRest.refl b₁, ?_, fun q _ => rfl, ?_, fun some => absurd rfl some⟩
  · rintro q ⟨-, -, a, member, -⟩
    simp at member
  · have nothing : taken b₁.board b₁.board (getOpp pla) = ∅ := by
      refine Set.eq_empty_of_forall_notMem fun q gone => player.opp.ne_empty ?_
      rw [← gone.1, gone.2]
    rw [nothing, Set.ncard_empty]
    rfl

theorem cleared (capturing : Capturing b₁ pla loc seen s) (player : pla.IsStone) :
    Labelling.Cleared (grid b₁.xSize) .empty (getOpp pla) b₁.board s.board.board
      (DeadBy b₁.xSize b₁.board (getOpp pla) seen) :=
  ⟨fun _ _ dead path => dead.of_chain path, fun _ dead => dead.1, capturing.dead, capturing.kept,
    player.opp.ne_empty.symm⟩

/-- Whether a group is without liberties does not depend on the captures made so far. -/
theorem trapped_iff (capturing : Capturing b₁ pla loc seen s) (player : pla.IsStone)
    (opposite : s.board.board a = getOpp pla) :
    s.board.libertyCount a = 0 ↔ ¬ ∃ e, Liberty (grid b₁.xSize) .empty b₁.board a e := by
  rw [capturing.regular.libertyCount_eq_zero_iff (by rw [opposite]; exact player.opp), liberties,
    capturing.rest.xSize]
  exact not_congr (exists_congr fun e => (capturing.cleared player).liberty_iff opposite)

/-- A direction in which nothing is captured. -/
theorem skip (capturing : Capturing b₁ pla loc seen s)
    (old : ∀ q, DeadBy b₁.xSize b₁.board (getOpp pla) (seen ++ [a]) q →
      DeadBy b₁.xSize b₁.board (getOpp pla) seen q) : Capturing b₁ pla loc (seen ++ [a]) s := by
  refine ⟨capturing.regular, capturing.rest, fun q dead => capturing.dead q (old q dead), fun q alive =>
    capturing.kept q fun dead => alive (deadBy_snoc.2 (Or.inl dead)), capturing.captured, capturing.caploc⟩

variable [ZobristStone]

theorem step (capturing : Capturing b₁ pla loc seen s) (player : pla.IsStone) (near : a ∈ b₁.adj loc) :
    ∃ s', captureDir (getOpp pla) s a = some s' ∧ Capturing b₁ pla loc (seen ++ [a]) s' := by
  have cleared := capturing.cleared player
  by_cases opposite : s.board.board a = getOpp pla
  swap
  · refine ⟨s, if_neg fun found => opposite found.1, capturing.skip fun q dead => ?_⟩
    rcases deadBy_snoc.1 dead with old | ⟨label, none, path⟩
    · exact old
    · by_contra fresh
      refine opposite ?_
      rw [capturing.kept a fun gone => fresh (gone.of_chain path.symm), path.label, label]
  by_cases trapped : s.board.libertyCount a = 0
  swap
  · refine ⟨s, if_neg fun found => trapped found.2, capturing.skip fun q dead => ?_⟩
    rcases deadBy_snoc.1 dead with old | ⟨label, none, path⟩
    · exact old
    · refine absurd ((capturing.trapped_iff player opposite).2 ?_) trapped
      rintro ⟨e, free⟩
      exact none ⟨e, free.of_chain path⟩
  have stone : (s.board.board a).IsStone := by rw [opposite]; exact player.opp
  have label : b₁.board a = getOpp pla := (cleared.label_eq opposite).1
  have dead := (capturing.trapped_iff player opposite).1 trapped
  obtain ⟨b', run, regular, rest, gone, kept⟩ := capturing.regular.removeUnsafe stone
  have members : ∀ q, q ∈ s.board.component a ↔ Chain (grid b₁.xSize) b₁.board a q := by
    intro q
    rw [component, capturing.rest.xSize]
    exact cleared.chain_iff opposite
  have all : ∀ q, DeadBy b₁.xSize b₁.board (getOpp pla) (seen ++ [a]) q ↔
      DeadBy b₁.xSize b₁.board (getOpp pla) seen q ∨ q ∈ s.board.component a := by
    intro q
    rw [deadBy_snoc, members q]
    refine or_congr_right ⟨fun found => found.2.2.symm, fun path => ⟨path.label.trans label, ?_, path.symm⟩⟩
    rintro ⟨e, free⟩
    exact dead ⟨e, free.of_chain path⟩
  have union : taken b₁.board b'.board (getOpp pla) =
      taken b₁.board s.board.board (getOpp pla) ∪ s.board.component a := by
    ext q
    by_cases inside : q ∈ s.board.component a
    · refine iff_of_true ⟨?_, gone q inside⟩ (Or.inr inside)
      rw [((members q).1 inside).label, label]
    · simp only [taken, Set.mem_union, Set.mem_ofPred_eq, kept q inside, inside, or_false]
  have disjoint : Disjoint (taken b₁.board s.board.board (getOpp pla)) (s.board.component a) := by
    rw [Set.disjoint_left]
    intro q before inside
    refine player.opp.ne_empty ?_
    rw [← opposite, ← Chain.label inside, before.2]
  have finite : (s.board.component a).Finite := by
    refine Set.Finite.subset (Finset.finite_toSet s.board.locs.toFinset) fun q inside => ?_
    rw [Finset.mem_coe, List.mem_toFinset]
    exact capturing.regular.booked.shape.mem_locs (by rw [Chain.label inside]; exact stone.ne_wall)
  refine ⟨⟨b', s.oppStonesCaptured + s.board.stoneCount a, a⟩, ?_, regular, capturing.rest.trans rest, ?_, ?_, ?_,
    fun _ => ⟨near, label, gone a (Chain.refl a)⟩⟩
  · rw [captureDir, if_pos ⟨opposite, trapped⟩, run]
    rfl
  · intro q found
    rcases (all q).1 found with old | inside
    · by_cases inside : q ∈ s.board.component a
      · exact gone q inside
      · exact (kept q inside).trans (capturing.dead q old)
    · exact gone q inside
  · intro q alive
    have outside : q ∉ s.board.component a := fun inside => alive ((all q).2 (Or.inr inside))
    exact (kept q outside).trans (capturing.kept q fun old => alive ((all q).2 (Or.inl old)))
  · change s.oppStonesCaptured + s.board.stoneCount a = _
    rw [union, Set.ncard_union_eq disjoint (taken_finite capturing.regular.booked.shape) finite, capturing.captured,
      capturing.regular.stoneCount stone]
    push_cast
    rfl

theorem loop (player : pla.IsStone) (rest : List Loc) {seen : List Loc} {s : CaptureState}
    (split : seen ++ rest = b₁.adj loc) (capturing : Capturing b₁ pla loc seen s) :
    ∃ s', rest.foldlM (captureDir (getOpp pla)) s = some s' ∧ Capturing b₁ pla loc (b₁.adj loc) s' := by
  induction rest generalizing seen s with
  | nil =>
    obtain rfl : seen = b₁.adj loc := by simpa using split
    exact ⟨s, rfl, capturing⟩
  | cons a rest ih =>
    obtain ⟨s₁, first, next⟩ := capturing.step player (a := a) (by rw [← split]; simp)
    obtain ⟨s', tail, final⟩ := ih (show (seen ++ [a]) ++ rest = b₁.adj loc by simpa using split) next
    refine ⟨s', ?_, final⟩
    rw [List.foldlM_cons, first]
    exact tail

end Capturing

/-- `b'` is what the rules make of `b` when `pla` plays at `loc`. -/
structure Played (b b' : Board) (pla : Player) (loc : Loc) : Prop where
  regular : b'.Regular
  alive : b'.AllAlive
  xSize : b'.xSize = b.xSize
  ySize : b'.ySize = b.ySize
  player : b'.pla = b.pla
  board : b'.board = Labelling.play (grid b.xSize) .empty pla (getOpp pla) b.board loc
  captures : ∀ k, k.IsStone → b'.numCapturesMade k =
    b.numCapturesMade k + (taken (Function.update b.board loc pla) b'.board k).ncard
  ko : ∀ p, KoPoint b.position b'.position loc pla p → b'.simpleKoPoint = some p
  noKo : (¬ ∃ p, KoPoint b.position b'.position loc pla p) → b'.simpleKoPoint = none

/-- The colours when all captures are made. -/
theorem Capturing.board_eq {s : CaptureState} (capturing : Capturing b₁ pla loc (b₁.adj loc) s)
    (placed : b₁.board = Function.update b.board loc pla) (xSize : b₁.xSize = b.xSize) (alive : b.AllAlive)
    (blank : b.board loc = .empty) (player : pla.IsStone) :
    s.board.board = removeDead (grid b.xSize) .empty (getOpp pla) (Function.update b.board loc pla) := by
  have near : b₁.adj loc = b.position.adj loc := by
    change KataGo.Game.adjs b₁.xSize loc = KataGo.Game.adjs b.xSize loc
    rw [xSize]
  have deadIff : ∀ q, DeadBy b₁.xSize b₁.board (getOpp pla) (b₁.adj loc) q ↔
      Function.update b.board loc pla q = getOpp pla ∧
        ¬ ∃ e, Liberty (grid b.xSize) .empty (Function.update b.board loc pla) q e := by
    intro q
    rw [placed, xSize, near]
    exact deadBy_adj (show b.position.AllAlive from alive) blank player
  funext q
  by_cases dead : DeadBy b₁.xSize b₁.board (getOpp pla) (b₁.adj loc) q
  · obtain ⟨label, none⟩ := (deadIff q).1 dead
    rw [capturing.dead q dead, removeDead_of_dead label none]
  · rw [capturing.kept q dead, placed, removeDead_of_alive]
    intro label
    by_contra none
    exact dead ((deadIff q).2 ⟨label, none⟩)

/-- After a move every group has a liberty. -/
theorem allAlive_play (alive : b.AllAlive) (blank : b.board loc = .empty) (player : pla.IsStone)
    (xSize : b'.xSize = b.xSize)
    (board : b'.board = Labelling.play (grid b.xSize) .empty pla (getOpp pla) b.board loc) : b'.AllAlive := by
  have keeps : b'.position.AllAlive :=
    KataGo.Game.Board.allAlive_play (b := b.position) alive blank player xSize board
  exact keeps

/-- A set of one element, counted. -/
theorem eq_singleton_of_ncard {S : Set Loc} {x : Loc} (member : x ∈ S) (size : (S.ncard : Int) = 1) : S = {x} := by
  obtain ⟨y, rfl⟩ := Set.ncard_eq_one.1 (by exact_mod_cast size)
  rw [Set.mem_singleton_iff.1 member]

theorem Capturing.opened {s : CaptureState} {seen : List Loc} (capturing : Capturing b₁ pla loc seen s)
    (some : s.oppStonesCaptured ≠ 0) : s.caploc ∈ s.board.liberties loc := by
  obtain ⟨near, -, free⟩ := capturing.caploc some
  refine ⟨free, loc, Chain.refl loc, ?_⟩
  rw [capturing.rest.xSize]
  exact near

/-- The source's test for a ko, in terms of the position after the captures. -/
theorem Capturing.ko_test {s : CaptureState} {seen : List Loc} (capturing : Capturing b₁ pla loc seen s)
    (stone : (s.board.board loc).IsStone) (p : Loc) :
    (taken b₁.board s.board.board (getOpp pla) = {p} ∧ s.board.component loc = {loc} ∧
      s.board.liberties loc = {p}) ↔
      (s.oppStonesCaptured = 1 ∧ s.board.stoneCount loc = 1 ∧ s.board.libertyCount loc = 1) ∧ s.caploc = p := by
  rw [capturing.regular.stoneCount stone, capturing.regular.libertyCount stone]
  constructor
  · rintro ⟨one, alone, liberty⟩
    have counted := capturing.captured
    rw [one, Set.ncard_singleton] at counted
    have found := (capturing.caploc (by rw [counted]; decide)).2
    rw [one] at found
    rw [alone, liberty]
    exact ⟨⟨by rw [counted]; rfl, by simp, by simp⟩, found⟩
  · rintro ⟨⟨one, alone, liberty⟩, rfl⟩
    have some : s.oppStonesCaptured ≠ 0 := by
      rw [one]
      decide
    exact ⟨eq_singleton_of_ncard (capturing.caploc some).2 (capturing.captured.symm.trans one),
      eq_singleton_of_ncard (Chain.refl loc) alone, eq_singleton_of_ncard (capturing.opened some) liberty⟩

/-- The last lines of `add_unsafe`: counters and ko point. -/
def settle (b : Board) (pla : Player) (loc : Loc) (plaStonesCaptured : Int) (s : CaptureState) : Board :=
  let made := Function.update b.numCapturesMade pla (b.numCapturesMade pla + plaStonesCaptured)
  { b with
    numCapturesMade := Function.update made (getOpp pla) (made (getOpp pla) + s.oppStonesCaptured)
    numNonPassMovesMade := Function.update b.numNonPassMovesMade pla (b.numNonPassMovesMade pla + 1)
    simpleKoPoint :=
      if s.oppStonesCaptured = 1 ∧ b.stoneCount loc = 1 ∧ b.libertyCount loc = 1 then some s.caploc else none }

theorem settle_numCapturesMade {k : Color} (player : pla.IsStone) (stone : k.IsStone) (n : Int) (s : CaptureState) :
    (b.settle pla loc n s).numCapturesMade k =
      b.numCapturesMade k + if k = pla then n else s.oppStonesCaptured := by
  change Function.update (Function.update b.numCapturesMade pla _) (getOpp pla) _ k = _
  rcases player.eq_or_eq_opp stone with rfl | rfl
  · rw [Function.update_of_ne player.opp_ne.symm, Function.update_self, if_pos rfl]
  · rw [Function.update_self, Function.update_of_ne player.opp_ne, if_neg player.opp_ne]

/-- No suicide: the captured board is the result. -/
theorem Capturing.played {s : CaptureState} (capturing : Capturing b₁ pla loc (b₁.adj loc) s)
    (placed : b₁.board = Function.update b.board loc pla) (same : SameRest b b₁) (alive : b.AllAlive)
    (blank : b.board loc = .empty) (player : pla.IsStone) (free : ∃ e, e ∈ s.board.liberties loc) :
    Played b (s.board.settle pla loc 0 s) pla loc := by
  have whole := same.trans capturing.rest
  have colours := capturing.board_eq placed same.xSize alive blank player
  have stone : (s.board.board loc).IsStone := by
    rw [colours, removeDead_placed player.ne_empty.symm player.opp_ne.symm]
    exact player
  have board : s.board.board = Labelling.play (grid b.xSize) .empty pla (getOpp pla) b.board loc := by
    rw [liberties, colours, whole.xSize] at free
    rw [play_of_alive free, colours]
  have koPoint := capturing.ko_test stone
  rw [placed] at koPoint
  refine ⟨capturing.regular.congr rfl rfl rfl rfl rfl rfl rfl rfl,
    allAlive_play alive blank player whole.xSize board, whole.xSize, whole.ySize, whole.pla, board, ?_, ?_, ?_⟩
  · intro k isStone
    rw [settle_numCapturesMade player isStone, whole.numCapturesMade]
    congr 1
    change _ = ((taken (Function.update b.board loc pla) s.board.board k).ncard : Int)
    split_ifs with mine
    · rw [mine, colours, taken_removeDead_eq_empty player, Set.ncard_empty]
      rfl
    · rw [capturing.captured, placed, (player.eq_or_eq_opp isStone).resolve_left mine]
  · intro p found
    obtain ⟨test, point⟩ := (koPoint p).1 found
    change (if _ then some s.caploc else none) = _
    rw [if_pos test, point]
  · intro absent
    change (if _ then some s.caploc else none) = _
    rw [if_neg fun test => absent ⟨_, (koPoint _).2 ⟨test, rfl⟩⟩]

/-- A suicide: nothing was captured, and the mover's group goes. -/
theorem Capturing.suicided {s : CaptureState} {b₂ : Board} (capturing : Capturing b₁ pla loc (b₁.adj loc) s)
    (placed : b₁.board = Function.update b.board loc pla) (same : SameRest b b₁) (alive : b.AllAlive)
    (blank : b.board loc = .empty) (player : pla.IsStone) (dead : ¬ ∃ e, e ∈ s.board.liberties loc)
    (regular : b₂.Regular) (rest : SameRest s.board b₂)
    (gone : ∀ q, q ∈ s.board.component loc → b₂.board q = .empty)
    (kept : ∀ q, q ∉ s.board.component loc → b₂.board q = s.board.board q) :
    Played b (b₂.settle pla loc (s.board.stoneCount loc) s) pla loc := by
  have whole := same.trans (capturing.rest.trans rest)
  have colours := capturing.board_eq placed same.xSize alive blank player
  have xSize : s.board.xSize = b.xSize := (same.trans capturing.rest).xSize
  have mine : s.board.board loc = pla := by
    rw [colours, removeDead_placed player.ne_empty.symm player.opp_ne.symm]
  have stone : (s.board.board loc).IsStone := by rw [mine]; exact player
  have none : s.oppStonesCaptured = 0 := by
    by_contra some
    exact dead ⟨_, capturing.opened some⟩
  have board : b₂.board = Labelling.play (grid b.xSize) .empty pla (getOpp pla) b.board loc := by
    funext q
    have trapped := dead
    rw [liberties, xSize, colours] at trapped
    rw [play_of_dead trapped, ← colours, ← xSize]
    split_ifs with inside
    · exact gone q inside
    · exact kept q inside
  have mineIff : ∀ q, s.board.board q = pla ↔ Function.update b.board loc pla q = pla := by
    intro q
    rw [colours, removeDead_eq_iff player.ne_empty.symm player.opp_ne.symm]
  have takenOwn : taken (Function.update b.board loc pla) b₂.board pla = s.board.component loc := by
    ext q
    constructor
    · rintro ⟨own, empty⟩
      by_contra outside
      rw [kept q outside, (mineIff q).2 own] at empty
      exact player.ne_empty empty
    · intro inside
      exact ⟨(mineIff q).1 ((Chain.label inside).trans mine), gone q inside⟩
  have takenOpp : taken (Function.update b.board loc pla) b₂.board (getOpp pla) = ∅ := by
    have before : taken b₁.board s.board.board (getOpp pla) = ∅ := by
      have counted := capturing.captured
      rw [none] at counted
      exact (Set.ncard_eq_zero (taken_finite capturing.regular.booked.shape)).1 (by exact_mod_cast counted.symm)
    refine Set.eq_empty_of_forall_notMem fun q found => ?_
    have outside : q ∉ s.board.component loc := fun inside => player.opp_ne <| by
      rw [← found.1, (mineIff q).1 ((Chain.label inside).trans mine)]
    have earlier : q ∈ taken b₁.board s.board.board (getOpp pla) :=
      ⟨by rw [placed]; exact found.1, by rw [← kept q outside]; exact found.2⟩
    rw [before] at earlier
    exact earlier
  have noKo : ¬ ∃ p, KoPoint b.position (b₂.settle pla loc (s.board.stoneCount loc) s).position loc pla p := by
    rintro ⟨p, one, -⟩
    change taken (Function.update b.board loc pla) b₂.board (getOpp pla) = {p} at one
    rw [takenOpp] at one
    exact Set.singleton_ne_empty p one.symm
  refine ⟨regular.congr rfl rfl rfl rfl rfl rfl rfl rfl, allAlive_play alive blank player whole.xSize board,
    whole.xSize, whole.ySize, whole.pla, board, ?_, fun p found => absurd ⟨p, found⟩ noKo, fun _ => ?_⟩
  · intro k isStone
    rw [settle_numCapturesMade player isStone, whole.numCapturesMade]
    congr 1
    change _ = ((taken (Function.update b.board loc pla) b₂.board k).ncard : Int)
    split_ifs with own
    · rw [own, takenOwn, capturing.regular.stoneCount stone]
    · rw [(player.eq_or_eq_opp isStone).resolve_left own, takenOpp, none, Set.ncard_empty]
      rfl
  · change (if _ then some s.caploc else _) = _
    rw [if_neg fun test => by rw [none] at test; exact absurd test.1 (by decide)]

variable [ZobristStone]

/-- A stone added at an empty point of a board in order does what the rules say. -/
theorem addUnsafe_spec (regular : b.Regular) (alive : b.AllAlive) (blank : b.board loc = .empty)
    (player : pla.IsStone) : ∃ b', b.addUnsafe pla loc = some b' ∧ Played b b' pla loc := by
  obtain ⟨b₁, join, regular₁, same, placed, -⟩ := regular.joinStone blank player
  obtain ⟨s, run, capturing⟩ := (Capturing.start regular₁ player loc).loop player (b₁.adj loc) (List.nil_append _)
  have colours := capturing.board_eq placed same.xSize alive blank player
  have stone : (s.board.board loc).IsStone := by
    rw [colours, removeDead_placed player.ne_empty.symm player.opp_ne.symm]
    exact player
  have trapped := capturing.regular.libertyCount_eq_zero_iff stone
  by_cases suicide : s.board.libertyCount loc = 0
  · obtain ⟨b₂, remove, regular₂, rest, gone, kept⟩ := capturing.regular.removeUnsafe stone
    refine ⟨b₂.settle pla loc (s.board.stoneCount loc) s, ?_,
      capturing.suicided placed same alive blank player (trapped.1 suicide) regular₂ rest gone kept⟩
    rw [addUnsafe, join]
    simp only [Option.bind_eq_bind, Option.bind_some, run, resolveSuicide, if_pos suicide, remove]
    rfl
  · refine ⟨s.board.settle pla loc 0 s, ?_, capturing.played placed same alive blank player ?_⟩
    · rw [addUnsafe, join]
      simp only [Option.bind_eq_bind, Option.bind_some, run, resolveSuicide, if_neg suicide]
      rfl
    · by_contra none
      exact suicide (trapped.2 none)

end Board
end KataGo.Python
