import KataGo.Python.Rebuild

/-! `undo`, on any board in order that shows the position after the recorded move. It first
puts back what the move took, by flood fill; then it takes the stone away and rebuilds
what is left of its group. -/

namespace KataGo.Python
open KataGo.Lib CircularList Labelling
open KataGo.Game (Color Player getOpp Loc grid adjs_symm)
open KataGo.Game.Board (DeadBy deadBy_snoc deadBy_adj)

namespace Board

variable {B b b' b₁ b₂ : Board} {g h p q e a loc : Loc} {pla k : Color}

section Delete

/-- Rebuilding next to a list of points: every stone of colour `pla` among them gets a head. -/
theorem rebuildAll_spec (player : pla.IsStone) (l : List Loc) {b : Board} (built : b.Built loc) :
    ∃ b', l.foldlM (fun b a => if b.board a = pla ∧ b.groupHead a = passLoc then b.rebuildChain pla a else some b) b =
        some b' ∧ b'.Built loc ∧ SameRest b b' ∧ b'.board = b.board ∧ b'.zobrist = b.zobrist ∧
      (∀ q, b.groupHead q ≠ 0 → b'.groupHead q ≠ 0) ∧
      ∀ a ∈ l, b.board a = pla → b'.groupHead a ≠ 0 := by
  induction l generalizing b with
  | nil => exact ⟨b, rfl, built, SameRest.refl b, rfl, rfl, fun _ headed => headed, by simp⟩
  | cons a l ih =>
    obtain ⟨b₁, run, built₁, same, board, hash, keeps, found⟩ : ∃ b₁, (if b.board a = pla ∧ b.groupHead a = passLoc
        then b.rebuildChain pla a else some b) = some b₁ ∧ b₁.Built loc ∧ SameRest b b₁ ∧ b₁.board = b.board ∧
        b₁.zobrist = b.zobrist ∧ (∀ q, b.groupHead q ≠ 0 → b₁.groupHead q ≠ 0) ∧
        (b.board a = pla → b₁.groupHead a ≠ 0) := by
      by_cases chosen : b.board a = pla ∧ b.groupHead a = passLoc
      · have stone : (b.board a).IsStone := by rw [chosen.1]; exact player
        obtain ⟨b₁, run, built₁, rebuilt⟩ := rebuildChain_spec built stone chosen.2
        have positive := built.shape.positive stone.ne_wall
        rw [chosen.1] at run
        refine ⟨b₁, by rw [if_pos chosen, run], built₁, rebuilt.toSameRest, rebuilt.board, rebuilt.zobrist,
          fun q headed => ?_, fun _ => ?_⟩
        · by_cases inside : q ∈ b.component a
          · rw [rebuilt.new q inside]
            exact positive.ne'
          · rw [rebuilt.old q inside]
            exact headed
        · rw [rebuilt.new a (Chain.refl a)]
          exact positive.ne'
      · exact ⟨b, if_neg chosen, built, SameRest.refl b, rfl, rfl, fun _ headed => headed,
          fun mine fresh => chosen ⟨mine, fresh⟩⟩
    obtain ⟨b', tail, built', same', board', hash', keeps', found'⟩ := ih built₁
    refine ⟨b', ?_, built', same.trans same', board'.trans board, hash'.trans hash, fun q headed =>
      keeps' q (keeps q headed), fun x member mine => ?_⟩
    · rw [List.foldlM_cons, run]
      exact tail
    · rcases List.mem_cons.1 member with rfl | later
      · exact keeps' x (found mine)
      · exact found' x later (by rw [board, mine])

/-- The last lines of `undo`. -/
def clearLinks (b : Board) (loc : Loc) : Board :=
  { b with
    groupHead := Function.update b.groupHead loc 0
    groupNext := Function.update b.groupNext loc 0
    groupPrev := Function.update b.groupPrev loc 0 }

/-- With a head for every stone, only the links of the emptied point are left to clear. -/
theorem Built.regular (built : b.Built loc) (blank : b.board loc = .empty)
    (headed : ∀ p, (b.board p).IsStone → b.groupHead p ≠ 0) : (b.clearLinks loc).Regular := by
  have heads : (b.clearLinks loc).groupHead = b.groupHead := by
    have zero := built.unheaded loc blank
    change Function.update b.groupHead loc 0 = _
    rw [← zero, Function.update_eq_self]
  have apart : ∀ q, (b.board q).IsStone → q ≠ loc := by
    rintro q stone rfl
    exact stone.ne_empty blank
  refine ⟨⟨⟨built.shape.wide, built.shape.high, built.shape.wall_iff⟩, fun p free => ?_, fun p wall => ?_,
    fun p stone => ?_⟩, fun p q stone => ?_⟩
  · by_cases here : p = loc
    · subst here
      exact ⟨Function.update_self .., Function.update_self .., Function.update_self ..⟩
    · have vacant := built.vacant p free here
      exact ⟨by rw [heads, vacant.head], (Function.update_of_ne here ..).trans vacant.next,
        (Function.update_of_ne here ..).trans vacant.prev⟩
  · rw [heads]
    exact built.wall p wall
  · rw [heads]
    have group := built.group p stone (headed p stone)
    have libs : (b.clearLinks loc).libs (b.groupHead p) = b.libs (b.groupHead p) :=
      libs_congr ⟨rfl, rfl, rfl, rfl, rfl, rfl⟩ (fun _ => Iff.rfl) fun q => by rw [heads]
    exact group.frame (fun q => by rw [heads]) (fun _ _ => rfl)
      (fun q inside => Function.update_of_ne (apart q (group.stones inside)) ..)
      (fun q inside => Function.update_of_ne (apart q (group.stones inside)) ..) rfl
      (by rw [libs]; exact group.liberties)
  · rw [heads]
    exact built.component p q stone (headed p stone)

variable [ZobristStone]

/-- The board without the stone at `loc`, its group not yet mended. -/
def lifted (b : Board) (pla : Player) (loc : Loc) : Board :=
  ({ b with
    zobrist := b.zobrist ^^^ ZobristStone.key pla loc
    board := Function.update b.board loc .empty }.zeroCounts (b.groupHead loc)).changeLiberties
      (· = getOpp pla) loc 1

theorem lifted_sameRest (b : Board) (pla : Player) (loc : Loc) : SameRest b (b.lifted pla loc) := by
  rw [lifted, changeLiberties_frame]
  exact ⟨rfl, rfl, rfl, rfl, rfl, rfl⟩

/-- The other groups of a lifted board are recorded correctly. -/
theorem lifted_built (regular : b.Regular) (player : pla.IsStone) (placed : b.board loc = pla) {l : List Loc}
    (ring : b.Ring (b.groupHead loc) l) :
    ((b.lifted pla loc).clearHeads l).Built loc ∧ SameRest b ((b.lifted pla loc).clearHeads l) ∧
      ((b.lifted pla loc).clearHeads l).board = Function.update b.board loc .empty ∧
      ((b.lifted pla loc).clearHeads l).zobrist = b.zobrist ^^^ ZobristStone.key pla loc ∧
      (b.lifted pla loc).groupNext = b.groupNext ∧
      ∀ q, ((b.lifted pla loc).clearHeads l).groupHead q =
        if b.groupHead q = b.groupHead loc then 0 else b.groupHead q := by
  have booked := regular.booked
  have stone : (b.board loc).IsStone := by rw [placed]; exact player
  have opposite : ∀ a, Function.update b.board loc .empty a = getOpp pla ↔ b.board a = getOpp pla := by
    intro a
    by_cases here : a = loc
    · rw [here, Function.update_self, placed]
      exact iff_of_false player.opp.ne_empty.symm player.opp_ne.symm
    · rw [Function.update_of_ne here]
  obtain ⟨b₀, start⟩ : ∃ b₀, b₀ = ({ b with
      zobrist := b.zobrist ^^^ ZobristStone.key pla loc
      board := Function.update b.board loc .empty } : Board).zeroCounts (b.groupHead loc) := ⟨_, rfl⟩
  have uniform : ∀ a e, b₀.board a = getOpp pla → b₀.groupHead e = b₀.groupHead a → b₀.board e = getOpp pla := by
    intro a e opposing same
    rw [start] at opposing same ⊢
    have before := (opposite a).1 opposing
    exact (opposite e).2 ((booked.uniform a e (by rw [before]; exact player.opp) same).trans before)
  have form : b.lifted pla loc = b₀.changeLiberties (· = getOpp pla) loc 1 := by rw [start]; rfl
  have frame := changeLiberties_frame b₀ (· = getOpp pla) loc 1
  rw [← form] at frame
  obtain ⟨b₂, result⟩ : ∃ b₂, b₂ = (b.lifted pla loc).clearHeads l := ⟨_, rfl⟩
  have counted : ∀ h, h ≠ b.groupHead loc → b₂.groupLibertyCount h = b.groupLibertyCount h +
      if ∃ a ∈ b.adj loc, b.board a = getOpp pla ∧ b.groupHead a = h then 1 else 0 := by
    intro h other
    have count := changeLiberties_count_one uniform loc 1 h
    rw [← form] at count
    have same : b₂.groupLibertyCount h = (b.lifted pla loc).groupLibertyCount h := by rw [result]; rfl
    have zero : b₀.groupLibertyCount h = b.groupLibertyCount h := by
      rw [start]
      exact Function.update_of_ne other ..
    rw [same, count, zero, start]
    congr 2
    refine propext (exists_congr fun a => and_congr_right fun _ => ?_)
    exact and_congr_left fun _ => opposite a
  have same : SameRest b b₂ := by rw [result, frame, start]; exact ⟨rfl, rfl, rfl, rfl, rfl, rfl⟩
  have board : b₂.board = Function.update b.board loc .empty := by rw [result, frame, start]; rfl
  have nexts : b₂.groupNext = b.groupNext := by rw [result, frame, start]; rfl
  have prevs : b₂.groupPrev = b.groupPrev := by rw [result, frame, start]; rfl
  have heads : ∀ q, b₂.groupHead q = if b.groupHead q = b.groupHead loc then 0 else b.groupHead q := by
    intro q
    have cleared := setHeads_groupHead (b.lifted pla loc) l passLoc q
    have before : (b.lifted pla loc).groupHead q = b.groupHead q := by rw [frame, start]; rfl
    rw [before] at cleared
    simp only [ring.mem q] at cleared
    rw [result]
    exact cleared
  have counts : ∀ h, h ≠ b.groupHead loc → b₂.groupStoneCount h = b.groupStoneCount h := by
    intro h other
    rw [result, frame, start]
    exact Function.update_of_ne other ..
  have point : b.board loc ≠ .wall := stone.ne_wall
  have headLoc : b₂.groupHead loc = 0 := by rw [heads loc, if_pos rfl]
  have positive := booked.head_positive stone
  have kept : ∀ q, b.groupHead q ≠ b.groupHead loc → q ≠ loc ∧ b₂.groupHead q = b.groupHead q := by
    intro q other
    exact ⟨fun here => other (by rw [here]), by rw [heads q, if_neg other]⟩
  have blankBefore : ∀ q, b₂.board q = .empty → q ≠ loc → b.board q = .empty := by
    intro q free other
    rwa [board, Function.update_of_ne other] at free
  have emptyHead : ∀ q, b₂.board q = .empty → q ≠ loc → b.groupHead q = 0 ∧ b₂.groupHead q = 0 := by
    intro q free other
    have zero := (booked.vacant q (blankBefore q free other)).head
    refine ⟨zero, ?_⟩
    rw [(kept q (by rw [zero]; exact positive.ne)).2, zero]
  have stoneBefore : ∀ q, (b₂.board q).IsStone → (b.board q).IsStone ∧ q ≠ loc := by
    intro q isStone
    have other : q ≠ loc := by
      rintro rfl
      rw [board, Function.update_self] at isStone
      exact isStone.ne_empty rfl
    exact ⟨by rwa [board, Function.update_of_ne other] at isStone, other⟩
  have outside : ∀ q, b₂.groupHead q ≠ 0 → b.groupHead q ≠ b.groupHead loc := by
    intro q headed same
    rw [heads q, if_pos same] at headed
    exact headed rfl
  have members : ∀ h, h ≠ 0 → h ≠ b.groupHead loc → ∀ q, b₂.groupHead q = h ↔ b.groupHead q = h := by
    intro h real other q
    rw [heads q]
    split_ifs with inside
    · exact iff_of_false real.symm fun same => other (same.symm.trans inside)
    · exact Iff.rfl
  rw [← result]
  refine ⟨⟨same.shape booked.shape (walls_update point (by decide) board), ?_, ?_, ?_, ?_, ?_⟩, same, board,
    by rw [result, frame, start]; rfl, by rw [frame, start]; rfl, heads⟩
  · intro q free
    by_cases here : q = loc
    · rw [here, headLoc]
    · exact (emptyHead q free here).2
  · intro q free other
    have vacant := booked.vacant q (blankBefore q free other)
    exact ⟨(emptyHead q free other).2, by rw [nexts, vacant.next], by rw [prevs, vacant.prev]⟩
  · intro q wall
    rw [walls_update point (by decide) board] at wall
    have nonpos := booked.wall q wall
    rw [heads q, if_neg (ne_of_lt (lt_of_le_of_lt nonpos positive))]
    exact nonpos
  · intro q isStone headed
    have other := outside q headed
    have group := booked.group q (stoneBefore q isStone).1
    rw [(kept q other).2] at headed ⊢
    have far : ∀ x, b.groupHead x = b.groupHead q → x ≠ loc := fun x same here => other (by rw [← same, here])
    refine group.frame (members _ headed other) (fun x inside => by rw [board, Function.update_of_ne (far x inside)])
      (fun x _ => by rw [nexts]) (fun x _ => by rw [prevs]) (counts _ other) ?_
    have opposing : (∃ a ∈ b.adj loc, b.board a = getOpp pla ∧ b.groupHead a = b.groupHead q) ↔
        ∃ a ∈ b.adj loc, b.groupHead a = b.groupHead q := by
      refine exists_congr fun a => and_congr_right fun adjacent => and_iff_right_of_imp fun inside => ?_
      refine (player.eq_or_eq_opp (group.stones inside)).resolve_left fun mine => other ?_
      rw [← inside]
      exact regular.head_eq stone adjacent (mine.trans placed.symm)
    rw [counted _ other, group.liberties,
      card_libs_of_blanked booked.shape same stone.ne_empty point board (members _ headed other)]
    simp only [opposing]
  · intro q x isStone headed
    have other := outside q headed
    have before := (stoneBefore q isStone).1
    rw [(kept q other).2] at headed ⊢
    rw [members _ headed other x, regular.component q x before, same.xSize, board]
    have far : ∀ y, Chain (grid b.xSize) b.board q y → y ≠ loc := by
      rintro y path rfl
      exact other ((regular.component q y before).2 path).symm
    constructor
    · intro path
      exact path.relabel fun y along => Function.update_of_ne (far y along) ..
    · refine Chain.weaken (k := b.board q) (fun y label => ?_) (Function.update_of_ne (far q (Chain.refl q)) ..)
      rw [Function.update_of_ne] at label
      · exact label
      · rintro rfl
        rw [Function.update_self] at label
        exact before.ne_empty label.symm

/-- Deleting a stone leaves the components of the remaining colours. -/
theorem deleteStone_spec (regular : b.Regular) (player : pla.IsStone) (placed : b.board loc = pla) :
    ∃ b', b.deleteStone pla loc = some b' ∧ b'.Regular ∧ SameRest b b' ∧
      b'.board = Function.update b.board loc .empty ∧ b'.zobrist = b.zobrist ^^^ ZobristStone.key pla loc := by
  have booked := regular.booked
  have stone : (b.board loc).IsStone := by rw [placed]; exact player
  obtain ⟨t, walked, ring, size⟩ := (booked.group loc stone).groupLocs booked.shape rfl
  obtain ⟨built, same, board, hash, nexts, heads⟩ := lifted_built regular player placed ring
  have start : b.deleteStone pla loc = (do
      let b' ← if b.groupStoneCount (b.groupHead loc) > 1 then (b.lifted pla loc).undoRebuild pla loc
        else some (b.lifted pla loc)
      return b'.clearLinks loc) := rfl
  have lifted := lifted_sameRest b pla loc
  have sizes : (b.lifted pla loc).xSize = b.xSize ∧ (b.lifted pla loc).ySize = b.ySize := ⟨lifted.xSize, lifted.ySize⟩
  obtain ⟨bL, liftedEq⟩ : ∃ bL, bL = b.lifted pla loc := ⟨_, rfl⟩
  rw [← liftedEq] at built same board hash nexts heads start sizes
  obtain ⟨b₂, clearedEq⟩ : ∃ b₂, b₂ = bL.clearHeads (loc :: t) := ⟨_, rfl⟩
  rw [← clearedEq] at built same board hash heads
  have blank : b₂.board loc = .empty := by rw [board, Function.update_self]
  -- A stone that lost its head is connected to a neighbour of `loc`.
  have attached : ∀ q, b.groupHead q = b.groupHead loc → q ≠ loc → ∃ a ∈ b.adj loc,
      Function.update b.board loc .empty a = pla ∧ Chain (grid b.xSize) (Function.update b.board loc .empty) a q := by
    intro q inside other
    obtain ⟨b₀, lowered⟩ : ∃ b₀ : Board, b₀ = { b with board := Function.update b.board loc .empty } := ⟨_, rfl⟩
    have path := (regular.component loc q stone).1 inside
    have back : b.board = Function.update (Function.update b.board loc .empty) loc pla := by
      rw [Function.update_idem, ← placed, Function.update_eq_self]
    rw [back] at path
    have parts := KataGo.Game.Board.chain_placed_iff (q := q)
      (show b₀.position.colors loc = .empty by rw [lowered]; exact Function.update_self ..) player
    rw [lowered] at parts
    exact (parts.1 path).resolve_left other
  by_cases many : b.groupStoneCount (b.groupHead loc) > 1
  · obtain ⟨b', run, built', same', board', hash', keeps, found⟩ := rebuildAll_spec player (bL.adj loc) built
    refine ⟨b'.clearLinks loc, ?_, built'.regular (by rw [board', blank]) fun q isStone => ?_, ?_, ?_, ?_⟩
    · have loop : bL.groupLocs loc = some (loc :: t) := by
        have size : bL.arrsize = b.arrsize := by rw [arrsize, arrsize, sizes.1, sizes.2]
        rw [Board.groupLocs, nexts, size]
        exact walked
      rw [start, if_pos many, undoRebuild, loop]
      simp only [Option.bind_eq_bind, Option.bind_some, ← clearedEq, run]
      rfl
    · have labels : b'.board = Function.update b.board loc .empty := board'.trans board
      by_cases inside : b.groupHead q = b.groupHead loc
      · have other : q ≠ loc := by
          rintro rfl
          rw [labels, Function.update_self] at isStone
          exact isStone.ne_empty rfl
        obtain ⟨a, near, mine, path⟩ := attached q inside other
        have adjacent : a ∈ bL.adj loc := by
          rw [Board.adj, sizes.1]
          exact near
        have headed := found a adjacent (by rw [board, mine])
        have mine' : (b'.board a).IsStone := by
          rw [labels, mine]
          exact player
        rw [(built'.component a q mine' headed).2 (by
          rw [labels, same'.xSize, same.xSize]
          exact path)]
        exact headed
      · refine keeps q ?_
        have isStone' : (b.board q).IsStone := by
          have other : q ≠ loc := fun here => inside (by rw [here])
          rwa [labels, Function.update_of_ne other] at isStone
        rw [heads q, if_neg inside]
        exact (booked.head_positive isStone').ne'
    · have rest := same.trans same'
      exact ⟨rest.xSize, rest.ySize, rest.pla, rest.simpleKoPoint, rest.numCapturesMade, rest.numNonPassMovesMade⟩
    · exact board'.trans board
    · exact hash'.trans hash
  · have single : t = [] := by
      rw [size, List.length_cons] at many
      refine List.eq_nil_of_length_eq_zero ?_
      push_cast at many
      omega
    subst single
    have final : bL.clearLinks loc = b₂.clearLinks loc := by
      rw [clearedEq]
      unfold clearLinks clearHeads
      simp [passLoc]
    refine ⟨bL.clearLinks loc, ?_, ?_, ?_, ?_, ?_⟩
    · rw [start, if_neg many]
      rfl
    · rw [final]
      refine built.regular blank fun q isStone => ?_
      have other : q ≠ loc := by
        rintro rfl
        rw [board, Function.update_self] at isStone
        exact isStone.ne_empty rfl
      rw [board, Function.update_of_ne other] at isStone
      have outside : b.groupHead q ≠ b.groupHead loc := fun inside =>
        other (by simpa using (ring.mem q).2 inside)
      rw [heads q, if_neg outside]
      exact (booked.head_positive isStone).ne'
    · rw [final]
      exact ⟨same.xSize, same.ySize, same.pla, same.simpleKoPoint, same.numCapturesMade, same.numNonPassMovesMade⟩
    · rw [final]
      exact board
    · rw [final]
      exact hash

end Delete

section Refill

/-- Putting captured groups back, after the directions `seen`. `B` is the board before the
move and `b'` the board that is being undone. -/
structure Refilling (B b' : Board) (loc : Loc) (pla : Player) (seen : List Loc) (b : Board) : Prop where
  regular : b.Regular
  rest : SameRest b' b
  xSize : b.xSize = B.xSize
  back : ∀ q, DeadBy B.xSize (Function.update B.board loc pla) (getOpp pla) seen q → b.board q = getOpp pla
  gone : ∀ q, DeadBy B.xSize (Function.update B.board loc pla) (getOpp pla) (B.adj loc) q →
    ¬ DeadBy B.xSize (Function.update B.board loc pla) (getOpp pla) seen q → b.board q = .empty
  kept : ∀ q, ¬ DeadBy B.xSize (Function.update B.board loc pla) (getOpp pla) (B.adj loc) q →
    b.board q = Function.update B.board loc pla q

/-- The neighbours from which a move takes the last liberty. -/
theorem captures_iff (regular : B.Regular) (blank : B.board loc = .empty) (player : pla.IsStone)
    (near : a ∈ B.adj loc) (opposite : B.board a = getOpp pla) :
    B.libertyCount a = 1 ↔ ¬ ∃ e, Liberty (grid B.xSize) .empty (Function.update B.board loc pla) a e := by
  have stone : (B.board a).IsStone := by rw [opposite]; exact player.opp
  have here : loc ∈ B.liberties a := ⟨blank, a, Chain.refl a, adjs_symm near⟩
  have placed : ∀ e, Liberty (grid B.xSize) .empty (Function.update B.board loc pla) a e ↔
      e ≠ loc ∧ e ∈ B.liberties a := fun e =>
    KataGo.Game.Board.liberty_placed_iff (b := B.position) blank player opposite
  rw [regular.libertyCount stone]
  simp only [placed, not_exists, not_and]
  constructor
  · intro one e other free
    rw [eq_singleton_of_ncard here one] at free
    exact other free
  · intro none
    have single : B.liberties a = {loc} := by
      ext e
      refine ⟨fun free => by_contra fun other => none e other free, ?_⟩
      rintro rfl
      exact here
    rw [single, Set.ncard_singleton]
    rfl

theorem dead_iff (alive : B.AllAlive) (blank : B.board loc = .empty) (player : pla.IsStone) (q : Loc) :
    DeadBy B.xSize (Function.update B.board loc pla) (getOpp pla) (B.adj loc) q ↔
      Function.update B.board loc pla q = getOpp pla ∧
        ¬ ∃ e, Liberty (grid B.xSize) .empty (Function.update B.board loc pla) q e :=
  deadBy_adj (show B.position.AllAlive from alive) blank player

/-- Without a direction to capture in, nothing is captured. -/
theorem removeDead_of_no_capture (regular : B.Regular) (alive : B.AllAlive) (blank : B.board loc = .empty)
    (player : pla.IsStone) (none : ∀ x ∈ B.adj loc, ¬ (B.board x = getOpp pla ∧ B.libertyCount x = 1)) :
    removeDead (grid B.xSize) .empty (getOpp pla) (Function.update B.board loc pla) =
      Function.update B.board loc pla := by
  funext q
  refine removeDead_of_alive fun label => by_contra fun dead => ?_
  obtain ⟨-, -, x, near, path⟩ := (dead_iff alive blank player q).2 ⟨label, dead⟩
  have opposite : B.board x = getOpp pla := by
    rw [← label, ← path.label, Function.update_of_ne (ne_of_mem_adj near)]
  exact none x near ⟨opposite, (captures_iff regular blank player near opposite).2
    fun ⟨e, found⟩ => dead ⟨e, found.of_chain path⟩⟩

/-- The region around a captured stone is the group that was captured there. -/
theorem Refilling.region {seen : List Loc} (inv : Refilling B b' loc pla seen b) (player : pla.IsStone)
    (dead : DeadBy B.xSize (Function.update B.board loc pla) (getOpp pla) (B.adj loc) a)
    (fresh : ¬ DeadBy B.xSize (Function.update B.board loc pla) (getOpp pla) seen a) :
    (∀ q, q ∈ b.component a ↔ Chain (grid B.xSize) (Function.update B.board loc pla) a q) ∧
      ∀ q, q ∈ b.component a → ∀ x ∈ b.adj q, b.board x ≠ getOpp pla := by
  have solid : Function.update B.board loc pla a ≠ .empty := by
    rw [dead.1]
    exact player.opp.ne_empty
  have blanked : ∀ q, Chain (grid B.xSize) (Function.update B.board loc pla) a q → b.board q = .empty :=
    fun q path => inv.gone q (dead.of_chain path) fun found => fresh (found.of_chain path.symm)
  obtain ⟨same, border⟩ := blanked_region solid dead.2.1 blanked
    (fun x _ other => inv.kept x fun found => other (found.1.trans dead.1.symm))
  have members : ∀ q, q ∈ b.component a ↔ Chain (grid B.xSize) (Function.update B.board loc pla) a q := by
    intro q
    rw [component, inv.xSize]
    exact same q
  refine ⟨members, fun q inside x adjacent => ?_⟩
  rw [← dead.1]
  rw [adj, inv.xSize] at adjacent
  exact border q ((members q).1 inside) x adjacent

variable [ZobristStone]

/-- One captured direction: the group is put back unless it is back already. -/
theorem Refilling.step {seen : List Loc} (inv : Refilling B b' loc pla seen b) (player : pla.IsStone)
    (dead : DeadBy B.xSize (Function.update B.board loc pla) (getOpp pla) (B.adj loc) a) :
    ∃ b₁, (if b.board a = .empty then b.floodFillStones (getOpp pla) a else some b) = some b₁ ∧
      Refilling B b' loc pla (seen ++ [a]) b₁ := by
  by_cases empty : b.board a = .empty
  swap
  · refine ⟨b, if_neg empty, inv.regular, inv.rest, inv.xSize, fun q found => ?_, fun q found unseen =>
      inv.gone q found fun old => unseen (deadBy_snoc.2 (Or.inl old)), inv.kept⟩
    rcases deadBy_snoc.1 found with old | ⟨label, trapped, path⟩
    · exact inv.back q old
    -- The stones connected to this neighbour are dead with it, so they are back already.
    · by_contra lost
      refine empty (inv.gone a dead fun before => lost (inv.back q (before.of_chain path.symm)))
  have fresh : ¬ DeadBy B.xSize (Function.update B.board loc pla) (getOpp pla) seen a := by
    intro found
    exact player.opp.ne_empty ((inv.back a found).symm.trans empty)
  obtain ⟨members, border⟩ := inv.region player dead fresh
  obtain ⟨b₁, run, regular, refilled⟩ := floodFillStones_spec inv.regular player.opp empty border
  have snoc : ∀ q, DeadBy B.xSize (Function.update B.board loc pla) (getOpp pla) (seen ++ [a]) q ↔
      DeadBy B.xSize (Function.update B.board loc pla) (getOpp pla) seen q ∨ q ∈ b.component a := by
    intro q
    rw [deadBy_snoc, members q]
    refine or_congr_right ⟨fun found => found.2.2.symm, fun path => ?_⟩
    have found := dead.of_chain path
    exact ⟨found.1, found.2.1, path.symm⟩
  refine ⟨b₁, by rw [if_pos empty, run], regular, inv.rest.trans refilled.toSameRest,
    refilled.xSize.trans inv.xSize, ?_, ?_, ?_⟩
  · intro q found
    by_cases inside : q ∈ b.component a
    · exact refilled.filled q inside
    · rw [refilled.kept q inside]
      exact inv.back q (((snoc q).1 found).resolve_right inside)
  · intro q found unseen
    have outside : q ∉ b.component a := fun inside => unseen ((snoc q).2 (Or.inr inside))
    rw [refilled.kept q outside]
    exact inv.gone q found fun old => unseen ((snoc q).2 (Or.inl old))
  · intro q alive
    have outside : q ∉ b.component a := fun inside => alive (dead.of_chain ((members q).1 inside))
    rw [refilled.kept q outside]
    exact inv.kept q alive

theorem Refilling.loop (player : pla.IsStone) (rest : List (Loc × Nat))
    (sub : ∀ x ∈ rest, x ∈ (B.adj loc).zipIdx ∧
      DeadBy B.xSize (Function.update B.board loc pla) (getOpp pla) (B.adj loc) x.1)
    {seen : List Loc} {b : Board} (inv : Refilling B b' loc pla seen b) :
    ∃ b₁, b.undoCaptures (getOpp pla) loc (rest.map Prod.snd) = some b₁ ∧
      Refilling B b' loc pla (seen ++ rest.map Prod.fst) b₁ := by
  induction rest generalizing b seen with
  | nil => exact ⟨b, rfl, by simpa using inv⟩
  | cons x rest ih =>
    obtain ⟨member, dead⟩ := sub x (by simp)
    have direction : (b.adj loc).getD x.2 0 = x.1 := by
      have same : b.adj loc = B.adj loc := by rw [adj, adj, inv.xSize]
      rw [same, List.getD_eq_getElem?_getD, List.mem_zipIdx_iff_getElem?.1 member, Option.getD_some]
    obtain ⟨b₁, first, next⟩ := inv.step player dead
    obtain ⟨b₂, tail, final⟩ := ih (fun y later => sub y (by simp [later])) next
    refine ⟨b₂, ?_, by simpa using final⟩
    rw [undoCaptures, List.map_cons, List.foldlM_cons, direction, first]
    exact tail

omit [ZobristStone] in
theorem refilling_start (regular : b.Regular) (alive : B.AllAlive) (blank : B.board loc = .empty)
    (player : pla.IsStone) (xSize : b.xSize = B.xSize)
    (board : b.board = removeDead (grid B.xSize) .empty (getOpp pla) (Function.update B.board loc pla)) :
    Refilling B b loc pla [] b := by
  refine ⟨regular, SameRest.refl b, xSize, ?_, ?_, ?_⟩
  · rintro q ⟨-, -, x, member, -⟩
    simp at member
  · intro q dead _
    obtain ⟨label, trapped⟩ := (dead_iff alive blank player q).1 dead
    rw [board, removeDead_of_dead label trapped]
  · intro q other
    rw [board, removeDead_of_alive]
    intro label
    by_contra trapped
    exact other ((dead_iff alive blank player q).2 ⟨label, trapped⟩)

/-- All stones of the move are back on `b₂`, the new one included. -/
structure Restored (B b' b₂ : Board) (loc : Loc) (pla : Player) : Prop where
  regular : b₂.Regular
  rest : SameRest b' b₂
  board : b₂.board = Function.update B.board loc pla

/-- A move that leaves its stone a liberty: the captured directions put everything back. -/
theorem refill_captured (regularB : B.Regular) (alive : B.AllAlive) (blank : B.board loc = .empty)
    (player : pla.IsStone) (regular : b'.Regular) (xSize : b'.xSize = B.xSize)
    (board : b'.board = removeDead (grid B.xSize) .empty (getOpp pla) (Function.update B.board loc pla)) :
    ∃ b₁, b'.undoCaptures (getOpp pla) loc (B.captureDirs pla loc) = some b₁ ∧ Restored B b' b₁ loc pla := by
  have directions : ∀ x ∈ (B.adj loc).zipIdx.filter
      (fun dir => B.board dir.1 = getOpp pla ∧ B.libertyCount dir.1 = 1), x ∈ (B.adj loc).zipIdx ∧
        DeadBy B.xSize (Function.update B.board loc pla) (getOpp pla) (B.adj loc) x.1 := by
    intro x member
    obtain ⟨inside, test⟩ := List.mem_filter.1 member
    obtain ⟨opposite, last⟩ := of_decide_eq_true test
    have near : x.1 ∈ B.adj loc := List.fst_mem_of_mem_zipIdx inside
    refine ⟨inside, (dead_iff alive blank player x.1).2 ⟨?_, ?_⟩⟩
    · rw [Function.update_of_ne (ne_of_mem_adj near), opposite]
    · exact (captures_iff regularB blank player near opposite).1 last
  obtain ⟨b₁, run, inv⟩ := (refilling_start regular alive blank player xSize board).loop player _ directions
  refine ⟨b₁, run, inv.regular, inv.rest, ?_⟩
  funext q
  by_cases dead : DeadBy B.xSize (Function.update B.board loc pla) (getOpp pla) (B.adj loc) q
  · rw [inv.back q, dead.1]
    obtain ⟨label, trapped, a, near, path⟩ := dead
    have opposite : B.board a = getOpp pla := by
      rw [← label, ← path.label, Function.update_of_ne (ne_of_mem_adj near)]
    have last := (captures_iff regularB blank player near opposite).2 fun ⟨e, free⟩ => trapped ⟨e, free.of_chain path⟩
    obtain ⟨i, member⟩ : ∃ i, (a, i) ∈ (B.adj loc).zipIdx := by
      have fst : a ∈ (B.adj loc).zipIdx.map Prod.fst := by rw [List.zipIdx_map_fst]; exact near
      obtain ⟨⟨x, i⟩, inside, rfl⟩ := List.mem_map.1 fst
      exact ⟨i, inside⟩
    refine ⟨label, trapped, a, ?_, path⟩
    rw [List.nil_append]
    exact List.mem_map.2 ⟨(a, i), List.mem_filter.2 ⟨member, decide_eq_true ⟨opposite, last⟩⟩, rfl⟩
  · exact inv.kept q dead

/-- A suicide: nothing else was taken, and the fill puts the mover's group back. -/
theorem refill_suicide (player : pla.IsStone) (regular : b'.Regular) (xSize : b'.xSize = B.xSize)
    (dead : ¬ ∃ e, Liberty (grid B.xSize) .empty (Function.update B.board loc pla) loc e)
    (blanked : ∀ q, Chain (grid B.xSize) (Function.update B.board loc pla) loc q → b'.board q = .empty)
    (kept : ∀ q, ¬ Chain (grid B.xSize) (Function.update B.board loc pla) loc q →
      b'.board q = Function.update B.board loc pla q) :
    ∃ b₁, b'.floodFillStones pla loc = some b₁ ∧ Restored B b' b₁ loc pla := by
  have placed : Function.update B.board loc pla loc = pla := Function.update_self ..
  have solid : Function.update B.board loc pla loc ≠ .empty := by
    rw [placed]
    exact player.ne_empty
  obtain ⟨same, border⟩ := blanked_region solid dead blanked
    (fun x _ other => kept x fun path => other path.label)
  have members : ∀ q, q ∈ b'.component loc ↔ Chain (grid B.xSize) (Function.update B.board loc pla) loc q := by
    intro q
    rw [component, xSize]
    exact same q
  obtain ⟨b₁, run, regular₁, refilled⟩ := floodFillStones_spec regular player (blanked loc (Chain.refl loc))
    (fun q inside x adjacent => by
      rw [adj, xSize] at adjacent
      have other := border q ((members q).1 inside) x adjacent
      rwa [placed] at other)
  refine ⟨b₁, run, regular₁, refilled.toSameRest, ?_⟩
  funext q
  by_cases inside : q ∈ b'.component loc
  · rw [refilled.filled q inside, ((members q).1 inside).label, placed]
  · rw [refilled.kept q inside, kept q fun path => inside ((members q).2 path)]

/-- Both ways a move can have ended. -/
theorem refill_spec (regularB : B.Regular) (alive : B.AllAlive) (blank : B.board loc = .empty)
    (player : pla.IsStone) (regular : b'.Regular) (xSize : b'.xSize = B.xSize)
    (board : b'.board = Labelling.play (grid B.xSize) .empty pla (getOpp pla) B.board loc) :
    ∃ b₁ b₂, b'.undoCaptures (getOpp pla) loc (B.captureDirs pla loc) = some b₁ ∧
      (if b'.board loc = .empty then b₁.floodFillStones pla loc else some b₁) = some b₂ ∧
        Restored B b' b₂ loc pla := by
  by_cases free : ∃ e, Liberty (grid B.xSize) .empty
      (removeDead (grid B.xSize) .empty (getOpp pla) (Function.update B.board loc pla)) loc e
  · rw [play_of_alive free] at board
    obtain ⟨b₁, run, restored⟩ := refill_captured regularB alive blank player regular xSize board
    have mine : b'.board loc = pla := by rw [board, removeDead_placed player.ne_empty.symm player.opp_ne.symm]
    exact ⟨b₁, b₁, run, if_neg (by rw [mine]; exact player.ne_empty), restored⟩
  · have colours : ∀ q, b'.board q = _ := fun q => (congrFun board q).trans (play_of_dead free)
    have empty : b'.board loc = .empty := by rw [colours loc, if_pos (Chain.refl loc)]
    -- A captured neighbour would be a liberty of the new stone.
    have noCapture : ∀ x ∈ B.adj loc, ¬ (B.board x = getOpp pla ∧ B.libertyCount x = 1) := by
      rintro x near ⟨opposite, last⟩
      have dead := (captures_iff regularB blank player near opposite).1 last
      refine free ⟨x, removeDead_of_dead ?_ dead, loc, Chain.refl loc, near⟩
      rw [Function.update_of_ne (ne_of_mem_adj near), opposite]
    have nothing := removeDead_of_no_capture regularB alive blank player noCapture
    have none : B.captureDirs pla loc = [] := by
      rw [captureDirs, List.map_eq_nil_iff, List.filter_eq_nil_iff]
      intro x member test
      exact noCapture x.1 (List.fst_mem_of_mem_zipIdx member) (of_decide_eq_true test)
    rw [nothing] at free
    obtain ⟨b₁, run, restored⟩ := refill_suicide player regular xSize free
      (fun q path => by rw [colours q, nothing, if_pos path]) (fun q path => by rw [colours q, nothing, if_neg path])
    exact ⟨b', b₁, by rw [none]; rfl, by rw [if_pos empty, run], restored⟩

end Refill

section Undo

variable [ZobristStone]

/-- `record` belongs to the move at `loc` that turned the stones of `B` into those of `b`. -/
structure RecordOf (B b : Board) (record : MoveRecord) : Prop where
  blank : B.board record.loc = .empty
  player : record.pla.IsStone
  board : b.board = Labelling.play (grid B.xSize) .empty record.pla (getOpp record.pla) B.board record.loc
  capDirs : record.capDirs = B.captureDirs record.pla record.loc
  selfCap : record.selfCap = decide (b.board record.loc = .empty)

/-- The first lines of `undo`. -/
def resetTo (b : Board) (record : MoveRecord) : Board :=
  { b with
    simpleKoPoint := record.oldSimpleKoPoint
    pla := record.pla
    numCapturesMade := record.oldNumCapturesMade
    numNonPassMovesMade := record.oldNumNonPassMovesMade }

/-- Undoing a recorded move, on any board in order that shows the position after it: the stones come back, and
the rest is what the record holds. -/
theorem undo_restores {record : MoveRecord} (regularB : B.Regular) (alive : B.AllAlive) (recorded : RecordOf B b' record)
    (regular : b'.Regular) (xSize : b'.xSize = B.xSize) :
    ∃ b'', b'.undo record = some b'' ∧ b''.Regular ∧ SameRest (b'.resetTo record) b'' ∧ b''.board = B.board := by
  have notPass : record.loc ≠ passLoc :=
    (regularB.booked.shape.positive (by rw [recorded.blank]; decide)).ne'
  obtain ⟨b₀, reset⟩ : ∃ b₀ : Board, b₀ = b'.resetTo record := ⟨_, rfl⟩
  have regular₀ : b₀.Regular := by
    rw [reset]
    exact regular.congr rfl rfl rfl rfl rfl rfl rfl rfl
  have xSize₀ : b₀.xSize = B.xSize := by rw [reset]; exact xSize
  have board₀ : b₀.board = b'.board := by rw [reset]; rfl
  obtain ⟨b₁, b₂, fill, suicide, restored⟩ := refill_spec regularB alive recorded.blank recorded.player regular₀ xSize₀
    (board₀.trans recorded.board)
  have placed : b₂.board record.loc = record.pla := by rw [restored.board, Function.update_self]
  obtain ⟨b'', delete, regular'', same, board, -⟩ := deleteStone_spec restored.regular recorded.player placed
  refine ⟨b'', ?_, regular'', ?_, ?_⟩
  · have start : b'.undo record = (do
        let b ← b₀.undoCaptures (getOpp record.pla) record.loc record.capDirs
        let b ← if record.selfCap then b.floodFillStones record.pla record.loc else some b
        b.deleteStone record.pla record.loc) := by
      rw [undo, reset]
      exact if_neg notPass
    rw [board₀] at suicide
    rw [start, recorded.capDirs, fill, recorded.selfCap]
    by_cases taken : b'.board record.loc = .empty
    · rw [if_pos taken] at suicide
      simp [taken, suicide, delete]
    · rw [if_neg taken] at suicide
      simp [taken, Option.some.inj suicide, delete]
  · rw [← reset]
    exact restored.rest.trans same
  · rw [board, restored.board, Function.update_idem, ← recorded.blank, Function.update_eq_self]

theorem undo_spec {record : MoveRecord} (regularB : B.Regular) (alive : B.AllAlive) (recorded : RecordOf B b' record)
    (regular : b'.Regular) (xSize : b'.xSize = B.xSize) (ySize : b'.ySize = B.ySize) :
    ∃ b'', b'.undo record = some b'' ∧ b''.Regular ∧ b''.xSize = B.xSize ∧ b''.ySize = B.ySize ∧
      b''.board = B.board := by
  obtain ⟨b'', run, regular'', same, board⟩ := undo_restores regularB alive recorded regular xSize
  exact ⟨b'', run, regular'', same.xSize.trans xSize, same.ySize.trans ySize, board⟩

end Undo

end Board
end KataGo.Python
