import KataGo.Game.Play

/-! A whole move: the end of the loop, the suicide branch, and the comparison of
`playMoveAssumeLegal` with the rule of the game. -/

namespace KataGo.Game
open KataGo.Lib CircularList Labelling

namespace Board

variable {b b' : Board} {p q e loc : Loc} {pla : Player}

/-- `b'` is `b` without the chain of `p`. -/
structure Removed (b b' : Board) (p : Loc) : Prop where
  xSize : b'.xSize = b.xSize
  ySize : b'.ySize = b.ySize
  koLoc : b'.koLoc = b.koLoc
  numBlackCaptures : b'.numBlackCaptures = b.numBlackCaptures
  numWhiteCaptures : b'.numWhiteCaptures = b.numWhiteCaptures
  gone : ∀ q, q ∈ b.component p → b'.colors q = .empty
  kept : ∀ q, q ∉ b.component p → b'.colors q = b.colors q

/-- Components of a board from which whole components were removed. -/
theorem Removed.chain (removed : Removed b b' p) (stone : (b'.colors q).IsStone) (x : Loc) :
    Chain (grid b.xSize) b'.colors q x ↔ Chain (grid b.xSize) b.colors q x := by
  have remains : ∀ y, (b'.colors y).IsStone → b'.colors y = b.colors y := by
    intro y isStone
    refine removed.kept y fun inside => ?_
    rw [removed.gone y inside] at isStone
    exact isStone.ne_empty rfl
  have outside : q ∉ b.component p := fun inside => by
    rw [removed.gone q inside] at stone
    exact stone.ne_empty rfl
  constructor
  · refine Chain.weaken (k := b.colors q) (fun y label => ?_) (remains q stone)
    rw [← label]
    exact (remains y (by rw [label, ← remains q stone]; exact stone)).symm
  · exact Chain.relabel fun y path => removed.kept y fun inside => outside (Chain.trans inside (Chain.symm path))

/-- Removing a chain takes no liberty from the others. -/
theorem Removed.allAlive (removed : Removed b b' p) (alive : b.AllAlive) : b'.AllAlive := by
  intro q stone
  have outside : q ∉ b.component p := fun inside => by
    rw [removed.gone q inside] at stone
    exact stone.ne_empty rfl
  have same := removed.kept q outside
  rw [same] at stone
  obtain ⟨e, free⟩ := alive q stone
  refine ⟨e, ?_⟩
  rw [liberties, removed.xSize]
  refine Liberty.relabel (fun x path => removed.kept x fun inside => outside (Chain.trans inside (Chain.symm path)))
    ?_ free
  by_cases inside : e ∈ b.component p
  · exact removed.gone e inside
  · rw [removed.kept e inside]
    exact free.1

theorem liberty_of_ne (blank : b.colors loc = .empty) (stone : (b.colors q).IsStone) (apart : e ≠ loc)
    (free : Liberty (grid b.xSize) .empty b.colors q e) :
    Liberty (grid b.xSize) .empty (Function.update b.colors loc pla) q e := by
  refine free.relabel (fun x path => Function.update_of_ne ?_ _ _) ?_
  · rintro rfl
    rw [← path.label, blank] at stone
    exact stone.ne_empty rfl
  · rw [Function.update_of_ne apart]
    exact free.1

variable [Zobrist]

theorem Regular.removeChain (regular : b.Regular) (stone : (b.colors p).IsStone) :
    ∃ b', b.removeChain p = some (b', ((b.component p).ncard : Int)) ∧ b'.Regular ∧ Removed b b' p := by
  have ok := regular.chainOk stone
  obtain ⟨b', l, removed, ring, -, cleared⟩ := removeChain_eq regular.shape ok ⟨stone, rfl⟩
  have members : ∀ q, q ∈ l ↔ q ∈ b.component p := fun q => (ring.mem q).trans (regular.component p q stone)
  have result : Removed b b' p := by
    refine ⟨cleared.xSize, cleared.ySize, cleared.koLoc, cleared.numBlackCaptures, cleared.numWhiteCaptures,
      ?_, ?_⟩
    · intro q inside
      rw [cleared.colors q, if_pos ((members q).2 inside)]
    · intro q outside
      rw [cleared.colors q, if_neg fun inside => outside ((members q).1 inside)]
  have remains : ∀ q, (b'.colors q).IsStone → q ∉ b.component p ∧ b'.colors q = b.colors q := by
    intro q isStone
    have outside : q ∉ b.component p := fun inside => by
      rw [result.gone q inside] at isStone
      exact isStone.ne_empty rfl
    exact ⟨outside, result.kept q outside⟩
  have isolated : ∀ q, b.InChain (b.chainHead p) q → ∀ a ∈ b.adj q,
      b.colors a = b.colors (b.chainHead p) → b.InChain (b.chainHead p) a := by
    intro q inside a adjacent same
    have colour := ok.colour q inside
    exact ⟨by rw [same]; exact ok.stone, (regular.head_eq inside.1 adjacent (same.trans colour.symm)).trans inside.2⟩
  refine ⟨b', by rw [removed, regular.numLocs stone], Recorded.regular ⟨?_, cleared.posHash regular.recorded.hash,
    ?_⟩ ?_ ?_, result⟩
  · exact cleared.shape regular.shape fun q inside => ((ring.mem q).1 inside).1.ne_wall
  · intro q isStone
    obtain ⟨outside, same⟩ := remains q isStone
    rw [same] at isStone
    rw [cleared.chainHead]
    exact cleared.chainOk regular.shape ring.nodup (fun q => (ring.mem q).1) ok.stone
      (fun q member => isolated q ((ring.mem q).1 member)) (regular.chainOk isStone) fun equal =>
      outside ((regular.component p q stone).1 ⟨isStone, equal⟩)
  · intro q x stoneQ stoneX same
    rw [result.xSize, result.chain stoneQ, ← regular.component q x (by rw [← (remains q stoneQ).2]; exact stoneQ)]
    rw [cleared.chainHead] at same
    exact ⟨by rw [← (remains x stoneX).2]; exact stoneX, same.symm⟩
  · intro q x stoneQ adjacent same
    have stoneX : (b'.colors x).IsStone := by rw [same]; exact stoneQ
    rw [(remains q stoneQ).2, (remains x stoneX).2] at same
    rw [(remains q stoneQ).2] at stoneQ
    rw [adj, result.xSize] at adjacent
    rw [cleared.chainHead]
    exact regular.head_eq stoneQ adjacent same

section Loop

variable {b₀ : Board} {s : PlayState}

omit [Zobrist] in
/-- The opponent's stones without liberties are all connected to a neighbour of the new stone. -/
theorem deadBy_adj (alive : b₀.AllAlive) (blank : b₀.colors loc = .empty) (player : pla.IsStone) :
    DeadBy b₀.xSize (Function.update b₀.colors loc pla) (getOpp pla) (b₀.adj loc) q ↔
      Function.update b₀.colors loc pla q = getOpp pla ∧
        ¬ ∃ e, Liberty (grid b₀.xSize) .empty (Function.update b₀.colors loc pla) q e := by
  refine ⟨fun dead => ⟨dead.1, dead.2.1⟩, fun ⟨label, trapped⟩ => ⟨label, trapped, ?_⟩⟩
  have apart : q ≠ loc := by
    rintro rfl
    rw [Function.update_self] at label
    exact player.opp_ne label.symm
  rw [Function.update_of_ne apart] at label
  have stone : (b₀.colors q).IsStone := by rw [label]; exact player.opp
  obtain ⟨e, free⟩ := alive q stone
  by_cases here : e = loc
  · subst here
    obtain ⟨-, x, path, adjacent⟩ := free
    refine ⟨x, adjs_symm adjacent, path.weaken (k := b₀.colors q) (fun y same => ?_) rfl⟩
    rw [Function.update_of_ne, same]
    rintro rfl
    exact stone.ne_empty (same.symm.trans blank)
  · exact absurd ⟨e, liberty_of_ne blank stone here free⟩ trapped

/-- The colours at the end of the loop. -/
theorem PlayInv.colors_eq (inv : PlayInv b₀ (Function.update b₀.colors loc pla) loc pla (b₀.adj loc) s)
    (alive : b₀.AllAlive) (blank : b₀.colors loc = .empty) (player : pla.IsStone) :
    s.board.colors = removeDead (grid b₀.xSize) .empty (getOpp pla) (Function.update b₀.colors loc pla) := by
  funext q
  by_cases dead : DeadBy b₀.xSize (Function.update b₀.colors loc pla) (getOpp pla) (b₀.adj loc) q
  · obtain ⟨label, none⟩ := (deadBy_adj alive blank player).1 dead
    rw [inv.dead q dead, removeDead_of_dead label none]
  · rw [inv.kept q dead, removeDead_of_alive]
    intro label
    by_contra none
    exact dead ((deadBy_adj alive blank player).2 ⟨label, none⟩)

theorem PlayInv.regular (inv : PlayInv b₀ (Function.update b₀.colors loc pla) loc pla (b₀.adj loc) s) :
    s.board.Regular := by
  have settled : s.board.pending loc (b₀.adj loc) = fun _ => 0 := by
    funext h
    refine if_neg ?_
    rintro ⟨-, found, none⟩
    rw [inv.adj_eq] at found
    exact none found
  have recorded := inv.recorded
  rw [settled] at recorded
  refine recorded.regular ?_ ?_
  · intro p q stoneP stoneQ same
    have path := inv.connected p q stoneP stoneQ same
    have colourP := inv.colour stoneP.ne_empty
    rw [inv.xSize]
    refine path.relabel fun x along => inv.kept x fun dead => ?_
    exact stoneP.ne_empty (inv.dead p (dead.of_chain along.symm))
  · intro p q stone adjacent same
    rw [inv.adj_eq] at adjacent
    exact inv.closed p q stone adjacent same (fun here => here ▸ adjacent) (fun here => adjs_symm (here ▸ adjacent))

end Loop

section Counts

def captures (b : Board) (k : Color) : Int := if k = .black then b.numBlackCaptures else b.numWhiteCaptures

omit [Zobrist] in
theorem captures_addCaptures {j k : Color} (stoneJ : j.IsStone) (stoneK : k.IsStone) (b : Board) (n : Int) :
    (b.addCaptures k n).captures j = b.captures j + if j = k then n else 0 := by
  rcases stoneJ with rfl | rfl <;> rcases stoneK with rfl | rfl <;> simp [captures, addCaptures]

/-- The two boards differ in their ko point and their capture counts only. -/
structure SameChains (b b' : Board) : Prop where
  xSize : b'.xSize = b.xSize
  ySize : b'.ySize = b.ySize
  colors : b'.colors = b.colors
  chainData : b'.chainData = b.chainData
  chainHead : b'.chainHead = b.chainHead
  nextInChain : b'.nextInChain = b.nextInChain
  posHash : b'.posHash = b.posHash

omit [Zobrist] in
theorem sameChains_addCaptures (b : Board) (k : Color) (n : Int) : SameChains b (b.addCaptures k n) := by
  unfold addCaptures
  split_ifs <;> exact ⟨rfl, rfl, rfl, rfl, rfl, rfl, rfl⟩

omit [Zobrist] in
theorem sameChains_withKo (b : Board) (ko : Loc) : SameChains b { b with koLoc := ko } :=
  ⟨rfl, rfl, rfl, rfl, rfl, rfl, rfl⟩

omit [Zobrist] in
theorem SameChains.trans {b'' : Board} (first : SameChains b b') (second : SameChains b' b'') : SameChains b b'' :=
  ⟨second.xSize.trans first.xSize, second.ySize.trans first.ySize, second.colors.trans first.colors,
    second.chainData.trans first.chainData, second.chainHead.trans first.chainHead,
    second.nextInChain.trans first.nextInChain, second.posHash.trans first.posHash⟩

/-- Everything the invariant speaks about is shared. -/
theorem SameChains.regular (same : SameChains b b') (regular : b.Regular) : b'.Regular := by
  obtain ⟨xSize, ySize, colors, data, head, next, ko, hash, black, white⟩ := b
  obtain ⟨xSize', ySize', colors', data', head', next', ko', hash', black', white'⟩ := b'
  obtain ⟨rfl, rfl, rfl, rfl, rfl, rfl, rfl⟩ := same
  refine ⟨⟨⟨regular.shape.wide, regular.shape.high, regular.shape.wall_iff⟩, regular.recorded.hash,
    fun p stone => ?_⟩, regular.component⟩
  have ok := regular.chainOk stone
  exact ⟨ok.stone, ok.self, ok.ring.imp fun l found => ⟨⟨found.1.nodup, found.1.mem, found.1.linked⟩, found.2⟩,
    ok.colour, ok.owner, ok.liberties⟩

omit [Zobrist] in
theorem SameChains.component (same : SameChains b b') (p : Loc) : b'.component p = b.component p := by
  rw [Board.component, Board.component, same.xSize, same.colors]

omit [Zobrist] in
theorem SameChains.liberties (same : SameChains b b') (p : Loc) : b'.liberties p = b.liberties p := by
  rw [Board.liberties, Board.liberties, same.xSize, same.colors]

theorem SameChains.consistent (same : SameChains b b') (consistent : b.Consistent) : b'.Consistent := by
  refine (same.regular consistent.regular).consistent fun p stone => ?_
  rw [same.colors] at stone
  rw [same.liberties]
  exact consistent.allAlive p stone

end Counts

/-- `p` is the one stone taken, and the new stone stands alone with `p` as its one liberty. -/
def KoPoint (b b' : Board) (loc : Loc) (pla : Player) (p : Loc) : Prop :=
  taken (Function.update b.colors loc pla) b'.colors (getOpp pla) = {p} ∧
    b'.component loc = {loc} ∧ b'.liberties loc = {p}

/-- `b'` is what the rules make of `b` when `pla` plays at `loc`. -/
structure Played (b b' : Board) (loc : Loc) (pla : Player) : Prop where
  consistent : b'.Consistent
  xSize : b'.xSize = b.xSize
  ySize : b'.ySize = b.ySize
  colors : b'.colors = play (grid b.xSize) .empty pla (getOpp pla) b.colors loc
  captures : ∀ k, k.IsStone →
    b'.captures k = b.captures k + (taken (Function.update b.colors loc pla) b'.colors k).ncard
  ko : ∀ p, KoPoint b b' loc pla p → b'.koLoc = p
  noKo : (¬ ∃ p, KoPoint b b' loc pla p) → b'.koLoc = nullLoc

theorem Regular.getNumLiberties (regular : b.Regular) (stone : (b.colors p).IsStone) :
    b.getNumLiberties p = (b.liberties p).ncard := regular.numLiberties stone

theorem Regular.getChainSize (regular : b.Regular) (stone : (b.colors p).IsStone) :
    b.getChainSize p = (b.component p).ncard := regular.numLocs stone

omit [Zobrist] in
theorem taken_finite {c : Loc → Color} {k : Color} (shape : b.Shape) : (taken c b.colors k).Finite := by
  refine Set.Finite.subset (Finset.finite_toSet b.locs.toFinset) fun q gone => ?_
  rw [Finset.mem_coe, List.mem_toFinset]
  exact shape.mem_locs (by rw [gone.2]; decide)

/-- The source's test for a ko, in terms of the position after the captures. -/
theorem ko_test {b₀ : Board} {s : PlayState} {c : Loc → Color} {seen : List Loc}
    (inv : PlayInv b₀ c loc pla seen s) (regular : s.board.Regular) (player : pla.IsStone) (p : Loc) :
    (taken c s.board.colors (getOpp pla) = {p} ∧ s.board.component loc = {loc} ∧ s.board.liberties loc = {p}) ↔
      (s.numCaptured = 1 ∧ s.board.getChainSize loc = 1 ∧ s.board.getNumLiberties loc = 1) ∧
        s.possibleKoLoc = p := by
  have stone : (s.board.colors loc).IsStone := by rw [inv.loc_colour player]; exact player
  have nearLiberty : s.numCaptured ≠ 0 → s.possibleKoLoc ∈ s.board.liberties loc := by
    intro some
    obtain ⟨adjacent, -, free⟩ := inv.koPoint some
    refine ⟨free, loc, Chain.refl loc, ?_⟩
    rw [inv.xSize]
    exact adjacent
  rw [regular.getChainSize stone, regular.getNumLiberties stone, inv.captured]
  constructor
  · rintro ⟨one, alone, liberty⟩
    have counted := inv.captured
    rw [one, Set.ncard_singleton] at counted
    have found := (inv.koPoint (by rw [counted]; decide)).2
    rw [one] at found ⊢
    rw [alone, liberty]
    exact ⟨by simp, found⟩
  · rintro ⟨⟨one, alone, liberty⟩, rfl⟩
    have some : s.numCaptured ≠ 0 := by
      rw [inv.captured, one]
      decide
    have single : ∀ (S : Set Loc) (x : Loc), x ∈ S → ((S.ncard : Int) = 1) → S = {x} := by
      intro S x member size
      obtain ⟨y, rfl⟩ := Set.ncard_eq_one.1 (by exact_mod_cast size)
      rw [Set.mem_singleton_iff.1 member]
    exact ⟨single _ _ (inv.koPoint some).2 one, single _ _ (Chain.refl loc) alone,
      single _ _ (nearLiberty some) liberty⟩

/-- `b₁` is `b` with the new stone and without the opponent's dead chains, before the move
is checked for suicide. -/
structure Captured (b b₁ : Board) (loc : Loc) (pla : Player) : Prop where
  regular : b₁.Regular
  xSize : b₁.xSize = b.xSize
  ySize : b₁.ySize = b.ySize
  colors : b₁.colors = removeDead (grid b.xSize) .empty (getOpp pla) (Function.update b.colors loc pla)
  captures : ∀ k, k.IsStone →
    b₁.captures k = b.captures k + (taken (Function.update b.colors loc pla) b₁.colors k).ncard
  ko : ∀ p, KoPoint b b₁ loc pla p → b₁.koLoc = p
  noKo : (¬ ∃ p, KoPoint b b₁ loc pla p) → b₁.koLoc = nullLoc
  opened : ∀ p, p ∈ taken (Function.update b.colors loc pla) b₁.colors (getOpp pla) → ∃ e, e ∈ b₁.liberties loc

omit [Zobrist] in
/-- Captures take none of the mover's stones. -/
theorem taken_removeDead_eq_empty {xSize : Nat} {c : Loc → Color} (player : pla.IsStone) :
    taken c (removeDead (grid xSize) .empty (getOpp pla) c) pla = ∅ := by
  ext q
  simp only [taken, Set.mem_ofPred_eq, Set.mem_empty_iff_false, iff_false, not_and]
  intro mine
  rw [removeDead_of_ne (by rw [mine]; exact player.opp_ne.symm), mine]
  exact player.ne_empty

theorem PlayInv.captured_board {s : PlayState} {b₁ : Board} {ko : Loc}
    (inv : PlayInv b (Function.update b.colors loc pla) loc pla (b.adj loc) s) (consistent : b.Consistent)
    (blank : b.colors loc = .empty) (player : pla.IsStone)
    (koEq : ko = if s.numCaptured = 1 ∧ s.board.getChainSize loc = 1 ∧ s.board.getNumLiberties loc = 1 then
      s.possibleKoLoc else nullLoc)
    (board : b₁ = ({ s.board with koLoc := ko } : Board).addCaptures (getOpp pla) s.numCaptured) :
    Captured b b₁ loc pla := by
  have colours := inv.colors_eq consistent.allAlive blank player
  have same : SameChains s.board b₁ := by
    rw [board]
    exact (sameChains_withKo _ _).trans (sameChains_addCaptures _ _ _)
  have koLoc : b₁.koLoc = ko := by
    rw [board, Board.addCaptures]
    split_ifs <;> rfl
  have koPoint : ∀ p, KoPoint b b₁ loc pla p ↔ (s.numCaptured = 1 ∧ s.board.getChainSize loc = 1 ∧
      s.board.getNumLiberties loc = 1) ∧ s.possibleKoLoc = p := by
    intro p
    rw [KoPoint, same.colors, same.component, same.liberties]
    exact ko_test inv inv.regular player p
  refine ⟨same.regular inv.regular, same.xSize.trans inv.xSize, same.ySize.trans inv.ySize,
    same.colors.trans colours, ?_, ?_, ?_, ?_⟩
  · intro k stone
    have before : ({ s.board with koLoc := ko } : Board).captures k = b.captures k := by
      simp only [Board.captures, inv.numBlackCaptures, inv.numWhiteCaptures]
    rw [board, captures_addCaptures stone player.opp, before, ← board, same.colors]
    congr 1
    rcases player.eq_or_eq_opp stone with rfl | rfl
    · rw [if_neg player.opp_ne.symm, colours, taken_removeDead_eq_empty player, Set.ncard_empty]
      rfl
    · rw [if_pos rfl, inv.captured]
  · intro p found
    obtain ⟨test, point⟩ := (koPoint p).1 found
    rw [koLoc, koEq, if_pos test, point]
  · intro absent
    rw [koLoc, koEq, if_neg fun test => absent ⟨_, (koPoint _).2 ⟨test, rfl⟩⟩]
  · intro p found
    rw [same.colors] at found
    have some : s.numCaptured ≠ 0 := by
      rw [inv.captured]
      exact_mod_cast (Set.ncard_pos (taken_finite inv.recorded.shape)).2 ⟨p, found⟩ |>.ne'
    obtain ⟨adjacent, -, free⟩ := inv.koPoint some
    rw [same.liberties]
    refine ⟨s.possibleKoLoc, free, loc, Chain.refl loc, ?_⟩
    rw [inv.xSize]
    exact adjacent

omit [Zobrist] in
/-- After a move every chain has a liberty. -/
theorem allAlive_play (alive : b.AllAlive) (blank : b.colors loc = .empty) (player : pla.IsStone)
    (xSize : b'.xSize = b.xSize)
    (colors : b'.colors = play (grid b.xSize) .empty pla (getOpp pla) b.colors loc) : b'.AllAlive := by
  intro p stone
  rw [liberties, xSize]
  rw [colors] at stone ⊢
  rcases player.eq_or_eq_opp stone with mine | theirs
  · exact play_alive_me player.ne_empty.symm player.opp_ne.symm blank
      (fun x own => alive x (by rw [own]; exact player)) mine
  · exact play_alive_you player.ne_empty.symm player.opp.ne_empty.symm player.opp_ne.symm theirs

theorem Captured.played (captured : Captured b b' loc pla) (alive : b.AllAlive) (blank : b.colors loc = .empty)
    (player : pla.IsStone) (free : ∃ e, e ∈ b'.liberties loc) : Played b b' loc pla := by
  have colours : b'.colors = play (grid b.xSize) .empty pla (getOpp pla) b.colors loc := by
    rw [liberties, captured.colors, captured.xSize] at free
    rw [play_of_alive free, captured.colors]
  exact ⟨captured.regular.consistent (allAlive_play alive blank player captured.xSize colours), captured.xSize,
    captured.ySize, colours, captured.captures, captured.ko, captured.noKo⟩

/-- A suicide: nothing was captured, and the mover's chain goes. -/
theorem Captured.suicided {b₁ b₂ : Board} (captured : Captured b b₁ loc pla) (alive : b.AllAlive)
    (blank : b.colors loc = .empty) (player : pla.IsStone) (dead : ¬ ∃ e, e ∈ b₁.liberties loc)
    (regular : b₂.Regular) (removed : Removed b₁ b₂ loc) (placed : b₁.colors loc = pla) :
    Played b (b₂.addCaptures pla (b₁.component loc).ncard) loc pla := by
  have same := sameChains_addCaptures b₂ pla (b₁.component loc).ncard
  have mineIff : ∀ q, b₁.colors q = pla ↔ Function.update b.colors loc pla q = pla := by
    intro q
    rw [captured.colors, removeDead_eq_iff player.ne_empty.symm player.opp_ne.symm]
  have colours : b₂.colors = play (grid b.xSize) .empty pla (getOpp pla) b.colors loc := by
    funext q
    rw [liberties, captured.xSize, captured.colors] at dead
    rw [play_of_dead dead, ← captured.colors, ← captured.xSize]
    split_ifs with inside
    · exact removed.gone q inside
    · exact removed.kept q inside
  have keepsOpp : ∀ q, Function.update b.colors loc pla q = getOpp pla → b₂.colors q = b₁.colors q := by
    intro q opposite
    refine removed.kept q fun inside => player.opp_ne ?_
    rw [← opposite]
    exact (mineIff q).1 ((Chain.label inside).trans placed)
  have takenOpp : taken (Function.update b.colors loc pla) b₂.colors (getOpp pla) =
      taken (Function.update b.colors loc pla) b₁.colors (getOpp pla) := by
    ext q
    exact and_congr_right fun opposite => by rw [keepsOpp q opposite]
  have takenNone : taken (Function.update b.colors loc pla) b₁.colors (getOpp pla) = ∅ := by
    refine Set.eq_empty_of_forall_notMem fun q found => dead (captured.opened q found)
  have takenOwn : taken (Function.update b.colors loc pla) b₂.colors pla = b₁.component loc := by
    ext q
    constructor
    · rintro ⟨mine, gone⟩
      by_contra outside
      rw [removed.kept q outside, (mineIff q).2 mine] at gone
      exact player.ne_empty gone
    · intro inside
      exact ⟨(mineIff q).1 ((Chain.label inside).trans placed), removed.gone q inside⟩
  have noKoPoint : ∀ b'' : Board, b''.colors = b₁.colors ∨ b''.colors = b₂.colors →
      ¬ ∃ p, KoPoint b b'' loc pla p := by
    rintro b'' which ⟨p, one, -⟩
    have none : taken (Function.update b.colors loc pla) b''.colors (getOpp pla) = ∅ := by
      rcases which with first | second
      · rw [first, takenNone]
      · rw [second, takenOpp, takenNone]
    rw [none] at one
    exact Set.singleton_ne_empty p one.symm
  have sizeX := removed.xSize.trans captured.xSize
  refine ⟨same.consistent (regular.consistent (allAlive_play alive blank player sizeX colours)),
    same.xSize.trans sizeX, same.ySize.trans (removed.ySize.trans captured.ySize), same.colors.trans colours,
    ?_, ?_, ?_⟩
  · intro k stone
    have before : b₂.captures k = b₁.captures k := by
      simp only [Board.captures, removed.numBlackCaptures, removed.numWhiteCaptures]
    rw [captures_addCaptures stone player, before, captured.captures k stone, same.colors]
    rcases player.eq_or_eq_opp stone with rfl | rfl
    · rw [if_pos rfl, takenOwn, captured.colors, taken_removeDead_eq_empty player, Set.ncard_empty]
      ring
    · rw [if_neg player.opp_ne, takenOpp, add_zero]
  · intro p found
    exact absurd ⟨p, found⟩ (noKoPoint _ (Or.inr same.colors))
  · intro _
    have ko : (b₂.addCaptures pla (b₁.component loc).ncard).koLoc = b₂.koLoc := by
      unfold addCaptures
      split_ifs <;> rfl
    rw [ko, removed.koLoc]
    exact captured.noKo (noKoPoint b₁ (Or.inl rfl))

/-- On a consistent board a move at an empty point does what the rules say. -/
theorem playMoveAssumeLegal_spec (consistent : b.Consistent) (blank : b.colors loc = .empty)
    (player : pla.IsStone) : ∃ b', b.playMoveAssumeLegal loc pla = some b' ∧ Played b b' loc pla := by
  have alive := consistent.allAlive
  have notPass : loc ≠ passLoc := consistent.shape.ne_pass (by rw [blank]; decide)
  obtain ⟨s, run, inv⟩ := (playInv_placeStone consistent.regular blank player).loop player (b.adj loc) rfl
  have opponent : (if pla = .black then Color.white else .black) = getOpp pla := by
    rcases player with rfl | rfl <;> rfl
  have itself : (if pla = .black then Color.black else .white) = pla := by
    rcases player with rfl | rfl <;> rfl
  obtain ⟨ko, koEq⟩ : ∃ ko, ko = if s.numCaptured = 1 ∧ s.board.getChainSize loc = 1 ∧
    s.board.getNumLiberties loc = 1 then s.possibleKoLoc else nullLoc := ⟨_, rfl⟩
  obtain ⟨b₁, board⟩ : ∃ b₁, b₁ = ({ s.board with koLoc := ko } : Board).addCaptures (getOpp pla) s.numCaptured :=
    ⟨_, rfl⟩
  have captured := inv.captured_board consistent blank player koEq board
  have steps : b.playMoveAssumeLegal loc pla =
      if b₁.getNumLiberties loc = 0 then
        b₁.removeChain loc >>= fun next => pure (next.1.addCaptures pla (b₁.getChainSize loc))
      else some b₁ := by
    rw [playMoveAssumeLegal, if_neg notPass, run]
    simp only [opponent, itself]
    rw [board, koEq]
    rfl
  have placed : b₁.colors loc = pla := by
    rw [captured.colors, removeDead_placed player.ne_empty.symm player.opp_ne.symm]
  have stone : (b₁.colors loc).IsStone := by rw [placed]; exact player
  have libertyIff : b₁.getNumLiberties loc = 0 ↔ ¬ ∃ e, e ∈ b₁.liberties loc :=
    captured.regular.numLiberties_eq_zero_iff stone
  rw [steps]
  by_cases suicide : b₁.getNumLiberties loc = 0
  · obtain ⟨b₂, remove, regular₂, removed⟩ := captured.regular.removeChain stone
    refine ⟨b₂.addCaptures pla (b₁.component loc).ncard, ?_,
      captured.suicided alive blank player (libertyIff.1 suicide) regular₂ removed placed⟩
    rw [if_pos suicide, remove, captured.regular.getChainSize stone]
    rfl
  · refine ⟨b₁, if_neg suicide, captured.played alive blank player ?_⟩
    by_contra none
    exact suicide (libertyIff.2 none)

omit [Zobrist] in
theorem blank_of_legal {flag : Bool} (legal : b.isLegalIgnoringKo loc pla flag = true) (notPass : loc ≠ passLoc) :
    b.colors loc = .empty ∧ pla.IsStone ∧ b.isIllegalSuicide loc pla flag = false := by
  unfold isLegalIgnoringKo at legal
  split_ifs at legal with stranger
  simp only [notPass, decide_false, Bool.false_or, Bool.and_eq_true, decide_eq_true_eq, Bool.not_eq_true']
    at legal
  refine ⟨legal.1.2, ?_, legal.2⟩
  rw [not_and_or, not_not, not_not] at stranger
  exact stranger

omit [Zobrist] in
theorem ne_pass_of_isOnBoard (shape : b.Shape) (onBoard : b.isOnBoard loc = true) : loc ≠ passLoc := by
  simp only [isOnBoard, decide_eq_true_eq] at onBoard
  exact shape.ne_pass onBoard.2.2

/-- A move that `isLegalIgnoringKo` accepts has the effect of the rules: the opponent's chains
without liberties are taken off, then the mover's own chain if it has none; the counts
grow by what was taken; and the ko point is the stone taken by a lone stone that could be
taken back. -/
theorem playMoveAssumeLegal_eq_rule (b : Board) (loc : Loc) (pla : Player) (isMultiStoneSuicideLegal : Bool)
    (consistent : b.Consistent) (onBoard : b.isOnBoard loc = true)
    (legal : b.isLegalIgnoringKo loc pla isMultiStoneSuicideLegal = true) :
    ∃ b', b.playMoveAssumeLegal loc pla = some b' ∧
      b'.colors = play (grid b.xSize) .empty pla (getOpp pla) b.colors loc ∧
      b'.numBlackCaptures =
        b.numBlackCaptures + (taken (Function.update b.colors loc pla) b'.colors .black).ncard ∧
      b'.numWhiteCaptures =
        b.numWhiteCaptures + (taken (Function.update b.colors loc pla) b'.colors .white).ncard ∧
      (∀ p, p ∈ taken (Function.update b.colors loc pla) b'.colors (getOpp pla) →
        (b'.koLoc = p ↔ KoPoint b b' loc pla p)) ∧
      ((¬ ∃ p, KoPoint b b' loc pla p) → b'.koLoc = nullLoc) := by
  have notPass := ne_pass_of_isOnBoard consistent.shape onBoard
  obtain ⟨blank, player, -⟩ := blank_of_legal legal notPass
  obtain ⟨b', run, played⟩ := playMoveAssumeLegal_spec consistent blank player
  refine ⟨b', run, played.colors, played.captures .black (Or.inl rfl), played.captures .white (Or.inr rfl), ?_,
    played.noKo⟩
  intro p gone
  refine ⟨fun ko => ?_, played.ko p⟩
  have point : p ≠ nullLoc := played.consistent.shape.ne_null (by rw [gone.2]; decide)
  by_contra other
  by_cases some : ∃ q, KoPoint b b' loc pla q
  · obtain ⟨q, found⟩ := some
    have same : q = p := (played.ko q found).symm.trans ko
    exact other (same ▸ found)
  · exact point (ko.symm.trans (played.noKo some))

omit [Zobrist] in
/-- A first move in the middle of a small board. -/
theorem playMoveAssumeLegal_eq_rule_opening :
    letI := Zobrist.blank
    ∃ b b', init 3 3 = some b ∧ b.playMoveAssumeLegal (Location.getLoc 1 1 3) .black = some b' ∧
      b'.colors = play (grid b.xSize) .empty .black .white b.colors (Location.getLoc 1 1 3) := by
  let _ := Zobrist.blank
  obtain ⟨b, start, consistent⟩ := init_consistent 3 3 (by decide) (by decide)
  have onBoard : b.isOnBoard (Location.getLoc 1 1 3) = true := by
    obtain rfl := Option.some.inj start
    decide
  have legal : b.isLegalIgnoringKo (Location.getLoc 1 1 3) .black false = true := by
    obtain rfl := Option.some.inj start
    decide
  obtain ⟨b', run, colours, -⟩ := playMoveAssumeLegal_eq_rule b _ .black false consistent onBoard legal
  exact ⟨b, b', start, run, colours⟩

end Board
end KataGo.Game
