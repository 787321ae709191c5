import KataGo.Python.Placement

/-! The Python board and the C++ board side by side. Both are compared with the rules of the
game: what a move makes of the stones, which stones it takes and where it leaves a ko are
functions of the colours before it, and so are the answers to the two legality tests. The
counters of captured stones are unbounded on both sides. -/

namespace KataGo.Python.Lockstep
open KataGo.Lib CircularList Labelling
open KataGo.Game (Color Player getOpp Loc grid nullLoc Zobrist)

/-- A player, and a pass or the coordinates of a point. -/
structure Turn where
  pla : Player
  point : Option (Nat × Nat)
  deriving DecidableEq

/-- The location for the Python board. -/
def Turn.loc (t : Turn) (xSize : Nat) : Loc :=
  match t.point with
  | none => passLoc
  | some (x, y) => locOf xSize x y

/-- The location for the C++ board. -/
def Turn.engineLoc (t : Turn) (xSize : Nat) : Loc :=
  match t.point with
  | none => KataGo.Game.passLoc
  | some (x, y) => KataGo.Game.Location.getLoc x y xSize

structure Pair where
  board : Board
  engine : KataGo.Game.Board

variable [ZobristStone] [Zobrist]

omit [ZobristStone] [Zobrist] in
theorem any_or {α : Type} (l : List α) (f g : α → Bool) : l.any (fun a => f a || g a) = (l.any f || l.any g) := by
  induction l with
  | nil => rfl
  | cons a l ih =>
    rw [List.any_cons, List.any_cons, List.any_cons, ih]
    ac_rfl

namespace Pair

omit [ZobristStone] [Zobrist] in
def wouldBeLegal (s : Pair) (t : Turn) : Bool := s.board.wouldBeLegal t.pla (t.loc s.board.xSize)

omit [ZobristStone] [Zobrist] in
def isLegal (s : Pair) (t : Turn) : Bool := s.engine.isLegal (t.engineLoc s.engine.xSize) t.pla true

/-- Try a move on both boards. A board that refuses it stays as it is. -/
def tryMove (s : Pair) (t : Turn) : Option Pair := do
  let board ← match ← s.board.play t.pla (t.loc s.board.xSize) with
    | .error _ => some s.board
    | .ok b => some b
  let engine ←
    if s.isLegal t then s.engine.playMoveAssumeLegal (t.engineLoc s.engine.xSize) t.pla else some s.engine
  return ⟨board, engine⟩

def tryMoves (s : Pair) (turns : List Turn) : Option Pair := turns.foldlM tryMove s

omit [ZobristStone] [Zobrist] in
/-- The same stones, the same ko point, the same number of liberties of every stone and the
same numbers of captured stones. -/
structure Same (s : Pair) : Prop where
  xSize : s.engine.xSize = s.board.xSize
  ySize : s.engine.ySize = s.board.ySize
  stones : ∀ p ∈ s.board.locs, s.engine.colors p = s.board.board p
  ko : s.engine.koLoc = s.board.simpleKoPoint.getD nullLoc
  liberties : ∀ p ∈ s.board.locs, (s.board.board p).IsStone → s.engine.getNumLiberties p = s.board.numLiberties p
  blackCaptures : s.engine.numBlackCaptures = s.board.numCapturesMade .black
  whiteCaptures : s.engine.numWhiteCaptures = s.board.numCapturesMade .white

/-- Both boards are in order and show the same position. -/
structure Agree (s : Pair) : Prop where
  sound : s.board.Sound
  consistent : s.engine.Consistent
  xSize : s.engine.xSize = s.board.xSize
  ySize : s.engine.ySize = s.board.ySize
  colors : s.engine.colors = s.board.board
  ko : s.engine.koLoc = s.board.simpleKoPoint.getD nullLoc
  koPoint : s.board.simpleKoPoint ≠ some nullLoc
  captures : ∀ k, k.IsStone → s.engine.captures k = s.board.numCapturesMade k

variable {s s' : Pair} {t : Turn} {p loc : Loc} {pla : Color}

omit [ZobristStone] in
/-- A liberty count is a number of points that the colours determine, on either board. -/
theorem Agree.libertyCount (agree : s.Agree) (stone : (s.board.board p).IsStone) :
    s.engine.getNumLiberties p = s.board.libertyCount p := by
  have same : s.engine.liberties p = s.board.liberties p := by
    unfold KataGo.Game.Board.liberties Board.liberties
    rw [agree.xSize, agree.colors]
  rw [agree.consistent.regular.getNumLiberties (by rw [agree.colors]; exact stone),
    agree.sound.regular.libertyCount stone, same]

omit [ZobristStone] in
theorem Agree.same (agree : s.Agree) : s.Same := by
  refine ⟨agree.xSize, agree.ySize, fun p _ => congrFun agree.colors p, agree.ko, fun p _ stone => ?_,
    agree.captures .black (Or.inl rfl), agree.captures .white (Or.inr rfl)⟩
  rw [agree.libertyCount stone, Board.numLiberties, if_neg]
  exact fun none => none.elim stone.ne_empty stone.ne_wall

omit [ZobristStone] [Zobrist] in
theorem loc_eq (t : Turn) (xSize : Nat) (point : t.point ≠ none) : t.engineLoc xSize = t.loc xSize := by
  unfold Turn.engineLoc Turn.loc
  split
  · next none => exact absurd none point
  · unfold KataGo.Game.Location.getLoc locOf
    ring

omit [ZobristStone] [Zobrist] in
theorem loc_pos (t : Turn) (xSize : Nat) (point : t.point ≠ none) : (1 : Int) < t.loc xSize := by
  unfold Turn.loc
  split
  · next none => exact absurd none point
  · next x y _ =>
    unfold locOf
    have rows : (0 : Int) ≤ (xSize + 1) * y := Int.mul_nonneg (by omega) (by omega)
    rw [mul_add, mul_one]
    omega

omit [ZobristStone] in
/-- The two tests for suicide look at the neighbours in the same way. -/
theorem Agree.suicide (agree : s.Agree) (player : pla.IsStone) :
    s.engine.isIllegalSuicide loc pla true = s.board.wouldBeSingleStoneSuicide pla loc := by
  have near : s.engine.adj loc = s.board.adj loc := by
    unfold KataGo.Game.Board.adj Board.adj
    rw [agree.xSize]
  have test : (fun a => if s.engine.colors a = .empty then true
      else if s.engine.colors a = pla then true || decide (s.engine.getNumLiberties a > 1)
      else if s.engine.colors a = getOpp pla then decide (s.engine.getNumLiberties a = 1) else false) =
      fun a => decide (s.board.board a = .empty ∨ s.board.board a = getOpp pla ∧ s.board.libertyCount a = 1) ||
        decide (s.board.board a = pla) := by
    funext a
    rw [agree.colors]
    by_cases blank : s.board.board a = .empty
    · simp [blank]
    by_cases mine : s.board.board a = pla
    · simp [mine]
    by_cases opposite : s.board.board a = getOpp pla
    · simp [opposite, player.opp.ne_empty, player.opp_ne,
        agree.libertyCount (show (s.board.board a).IsStone by rw [opposite]; exact player.opp)]
    · simp [blank, mine, opposite]
  rw [KataGo.Game.Board.isIllegalSuicide, near, test, Board.wouldBeSingleStoneSuicide, any_or]
  cases (s.board.adj loc).any fun a =>
      decide (s.board.board a = .empty ∨ s.board.board a = getOpp pla ∧ s.board.libertyCount a = 1) <;>
    cases (s.board.adj loc).any fun a => decide (s.board.board a = pla) <;> rfl

omit [ZobristStone] in
/-- The two boards accept the same moves. -/
theorem Agree.isLegal (agree : s.Agree) (t : Turn) : s.isLegal t = s.wouldBeLegal t := by
  unfold Pair.isLegal Pair.wouldBeLegal KataGo.Game.Board.isLegal Board.wouldBeLegal
  by_cases stranger : t.pla ≠ .black ∧ t.pla ≠ .white
  · rw [if_pos stranger, if_pos stranger]
  have player : t.pla.IsStone := by
    by_contra none
    exact stranger ⟨fun black => none (Or.inl black), fun white => none (Or.inr white)⟩
  rw [if_neg stranger, if_neg stranger, agree.xSize]
  by_cases pass : t.point = none
  · simp only [Turn.engineLoc, Turn.loc, pass, decide_true, Bool.true_or, if_true]
  rw [loc_eq t _ pass]
  have bound := loc_pos t s.board.xSize pass
  have notPass : t.loc s.board.xSize ≠ passLoc := fun here => by
    rw [here] at bound
    exact absurd bound (by decide)
  have notEnginePass : t.loc s.board.xSize ≠ KataGo.Game.passLoc := bound.ne'
  have notNull : t.loc s.board.xSize ≠ nullLoc := fun here => notPass here
  rw [if_neg notPass, decide_eq_false notEnginePass, Bool.false_or, agree.colors]
  generalize t.loc s.board.xSize = loc at *
  by_cases blank : s.board.board loc = .empty
  swap
  · rw [decide_eq_false blank, Bool.and_false, Bool.false_and, Bool.false_and]
    by_cases onBoard : s.board.isOnBoard loc = true
    · simp [onBoard, blank]
    · simp [onBoard]
  have member := agree.sound.regular.booked.shape.mem_locs (p := loc) (by rw [blank]; decide)
  have onBoard := agree.sound.regular.booked.shape.isOnBoard_iff.2 member
  have bounds := KataGo.Game.boardLocs_bounds agree.consistent.wide.2 agree.consistent.high.2
    (show loc ∈ KataGo.Game.boardLocs s.engine.xSize s.engine.ySize by
      rw [agree.xSize, agree.ySize]
      exact member)
  have ko : s.engine.isKoBanned loc = decide (some loc = s.board.simpleKoPoint) := by
    unfold KataGo.Game.Board.isKoBanned
    rw [agree.ko]
    cases found : s.board.simpleKoPoint with
    | none => simp [notNull]
    | some q => simp
  rw [onBoard, agree.suicide player, ko, decide_eq_true blank, decide_eq_true (zero_le_one.trans bounds.1.le),
    decide_eq_true bounds.2]
  simp only [Bool.not_true, Bool.false_eq_true, if_false, blank, ne_eq, not_true_eq_false, Bool.true_and]
  cases s.board.wouldBeSingleStoneSuicide t.pla loc <;> by_cases here : some loc = s.board.simpleKoPoint <;>
    simp [here]

omit [ZobristStone] in
/-- A legal stone leaves both boards in the position that the rules give. -/
theorem Agree.place {b : Board} {c : KataGo.Game.Board} (agree : s.Agree)
    (played : Board.Played s.board b pla loc) (engine : KataGo.Game.Board.Played s.engine c loc pla) (turn : Player) :
    (⟨{ b with pla := turn }, c⟩ : Pair).Agree := by
  have xSize : c.xSize = b.xSize := by rw [engine.xSize, played.xSize, agree.xSize]
  have colors : c.colors = b.board := by rw [engine.colors, played.board, agree.xSize, agree.colors]
  have koPoint : ∀ p, KataGo.Game.Board.KoPoint s.engine c loc pla p ↔
      KataGo.Game.Board.KoPoint s.board.position b.position loc pla p := by
    intro p
    unfold KataGo.Game.Board.KoPoint KataGo.Game.Board.component KataGo.Game.Board.liberties
    rw [colors, xSize, agree.colors]
    exact Iff.rfl
  have positive : ∀ p, KataGo.Game.Board.KoPoint s.board.position b.position loc pla p → p ≠ nullLoc := by
    rintro p ⟨-, -, only⟩
    have free : p ∈ b.position.liberties loc := by
      rw [only]
      rfl
    exact (played.regular.booked.shape.positive (by rw [show b.board p = .empty from free.1]; decide)).ne'
  refine ⟨played.sound.congr rfl rfl rfl rfl rfl rfl rfl rfl, engine.consistent, xSize, ?_, colors, ?_, ?_,
    fun k stone => ?_⟩
  · change c.ySize = b.ySize
    rw [engine.ySize, played.ySize, agree.ySize]
  · change c.koLoc = b.simpleKoPoint.getD nullLoc
    by_cases found : ∃ p, KataGo.Game.Board.KoPoint s.board.position b.position loc pla p
    · obtain ⟨p, ko⟩ := found
      rw [played.ko p ko, engine.ko p ((koPoint p).2 ko)]
      rfl
    · rw [played.noKo found, engine.noKo fun ⟨p, ko⟩ => found ⟨p, (koPoint p).1 ko⟩]
      rfl
  · change b.simpleKoPoint ≠ some nullLoc
    by_cases found : ∃ p, KataGo.Game.Board.KoPoint s.board.position b.position loc pla p
    · obtain ⟨p, ko⟩ := found
      rw [played.ko p ko]
      exact fun same => positive p ko (Option.some.inj same)
    · rw [played.noKo found]
      exact (Option.some_ne_none _).symm
  · change c.captures k = b.numCapturesMade k
    rw [engine.captures k stone, played.captures k stone, agree.captures k stone, colors, agree.colors]

/-- What one move preserves. -/
theorem Agree.tryMove (agree : s.Agree) (t : Turn) : ∃ s', s.tryMove t = some s' ∧ s'.Agree ∧
    s'.board.xSize = s.board.xSize ∧ s'.board.ySize = s.board.ySize := by
  have same := agree.isLegal t
  cases legal : s.wouldBeLegal t with
  | false =>
    obtain ⟨message, raised⟩ := Board.play_of_illegal legal
    rw [legal] at same
    exact ⟨s, by simp [Pair.tryMove, raised, same], agree, rfl, rfl⟩
  | true =>
    obtain ⟨player, open'⟩ := Board.open_of_legal legal
    have run := Board.play_of_legal legal
    rw [legal] at same
    by_cases pass : t.point = none
    · have loc : t.loc s.board.xSize = passLoc := by simp only [Turn.loc, pass]
      have engineLoc : t.engineLoc s.engine.xSize = KataGo.Game.passLoc := by simp only [Turn.engineLoc, pass]
      refine ⟨⟨{ s.board with simpleKoPoint := none, pla := getOpp t.pla }, { s.engine with koLoc := nullLoc }⟩, ?_,
        ⟨agree.sound.congr rfl rfl rfl rfl rfl rfl rfl rfl,
          (KataGo.Game.Board.sameChains_withKo s.engine nullLoc).consistent agree.consistent, agree.xSize, agree.ySize,
          agree.colors, rfl, (Option.some_ne_none _).symm, agree.captures⟩, rfl, rfl⟩
      rw [Board.playUnsafe, if_pos loc] at run
      simp only [Pair.tryMove, run, same, if_true, engineLoc, KataGo.Game.Board.playMoveAssumeLegal]
      rfl
    · have bound := loc_pos t s.board.xSize pass
      have notPass : t.loc s.board.xSize ≠ passLoc := fun here => by
        rw [here] at bound
        exact absurd bound (by decide)
      have blank := open'.resolve_left notPass
      have engineLoc : t.engineLoc s.engine.xSize = t.loc s.board.xSize := by rw [agree.xSize, loc_eq t _ pass]
      obtain ⟨b, add, played⟩ := Board.addUnsafe_spec agree.sound.regular agree.sound.alive blank player
      obtain ⟨c, move, engine⟩ := KataGo.Game.Board.playMoveAssumeLegal_spec agree.consistent
        (show s.engine.colors (t.loc s.board.xSize) = .empty by rw [agree.colors, blank]) player
      refine ⟨⟨{ b with pla := getOpp t.pla }, c⟩, ?_, agree.place played engine _, played.xSize, played.ySize⟩
      rw [Board.playUnsafe, if_neg notPass, add] at run
      simp only [Pair.tryMove, run, same, if_true, engineLoc, move]
      rfl

/-- Any sequence of moves on boards that agree. -/
theorem Agree.tryMoves (agree : s.Agree) (turns : List Turn) :
    ∃ s', s.tryMoves turns = some s' ∧ s'.Agree := by
  induction turns generalizing s with
  | nil => exact ⟨s, rfl, agree⟩
  | cons t turns ih =>
    obtain ⟨s₁, first, agree₁, -, -⟩ := agree.tryMove t
    obtain ⟨s', rest, agree'⟩ := ih agree₁
    refine ⟨s', ?_, agree'⟩
    rw [Pair.tryMoves, List.foldlM_cons, first]
    exact rest

omit [ZobristStone] in
/-- The empty boards of a size that both admit. -/
theorem agree_empty {xSize ySize : Nat} {c : KataGo.Game.Board} (wide : 2 ≤ xSize ∧ xSize ≤ KataGo.Game.maxLen)
    (high : 2 ≤ ySize ∧ ySize ≤ KataGo.Game.maxLen) (start : KataGo.Game.init xSize ySize = some c) :
    (⟨emptyBoard xSize ySize, c⟩ : Pair).Agree := by
  obtain ⟨c', start', consistent⟩ := KataGo.Game.Board.init_consistent xSize ySize (by omega) (by omega)
  obtain rfl := Option.some.inj (start.symm.trans start')
  have most : KataGo.Game.maxLen = 19 := rfl
  rw [KataGo.Game.init, if_neg (by omega)] at start
  obtain rfl := Option.some.inj start
  refine ⟨⟨emptyBoard_regular (by omega) (by omega), emptyBoard_allAlive⟩, consistent, rfl, rfl, funext fun p => ?_,
    rfl, (Option.some_ne_none _).symm, fun k stone => ?_⟩
  · exact (KataGo.Game.Board.foldl_update_apply (KataGo.Game.boardLocs xSize ySize) (fun _ => Color.wall) .empty p).trans
      initBoard_eq.symm
  · rcases stone with rfl | rfl <;> rfl

/-- Two boards of one size, both empty, and any moves: after all of them both boards show the
same game, and they accept the same moves next. -/
theorem same_game (size : Size) (b : Board) (c : KataGo.Game.Board) (start : init size = .ok b)
    (engine : KataGo.Game.init b.xSize b.ySize = some c) (turns : List Turn) :
    ∃ s, (⟨b, c⟩ : Pair).tryMoves turns = some s ∧ s.Same ∧ ∀ t, s.isLegal t = s.wouldBeLegal t := by
  unfold Python.init at start
  split_ifs at start with narrow low
  obtain rfl := Except.ok.inj start
  have bounded : size.xSize.toNat ≤ KataGo.Game.maxLen ∧ size.ySize.toNat ≤ KataGo.Game.maxLen := by
    unfold KataGo.Game.init at engine
    split_ifs at engine with large
    have sizes : ¬ (KataGo.Game.maxLen < size.xSize.toNat ∨ KataGo.Game.maxLen < size.ySize.toNat) := large
    omega
  have wide : 2 ≤ size.xSize.toNat ∧ size.xSize.toNat ≤ KataGo.Game.maxLen := by omega
  have high : 2 ≤ size.ySize.toNat ∧ size.ySize.toNat ≤ KataGo.Game.maxLen := by omega
  obtain ⟨s, run, agree⟩ := (agree_empty wide high engine).tryMoves turns
  exact ⟨s, run, agree.same, agree.isLegal⟩

omit [ZobristStone] [Zobrist] in
/-- Four points: a pass, a capture, a suicide that both refuse and a move off the board. -/
theorem same_game_four_points :
    letI : ZobristStone := ⟨fun _ _ => 0⟩
    letI := Zobrist.blank
    ∃ b c s, init (.square 2) = .ok b ∧ KataGo.Game.init 2 2 = some c ∧ (⟨b, c⟩ : Pair).tryMoves
      [⟨.black, some (0, 0)⟩, ⟨.white, some (0, 1)⟩, ⟨.black, none⟩, ⟨.white, some (1, 0)⟩, ⟨.black, some (0, 0)⟩,
        ⟨.black, some (5, 0)⟩] = some s ∧ s.Same ∧ ∀ t, s.isLegal t = s.wouldBeLegal t := by
  let _ : ZobristStone := ⟨fun _ _ => 0⟩
  let _ := Zobrist.blank
  obtain ⟨c, engine, -⟩ := KataGo.Game.Board.init_consistent 2 2 (by decide) (by decide)
  obtain ⟨s, run, same, legal⟩ := same_game (.square 2) (emptyBoard 2 2) c rfl engine
    [⟨.black, some (0, 0)⟩, ⟨.white, some (0, 1)⟩, ⟨.black, none⟩, ⟨.white, some (1, 0)⟩, ⟨.black, some (0, 0)⟩,
      ⟨.black, some (5, 0)⟩]
  exact ⟨emptyBoard 2 2, c, s, rfl, engine, run, same, legal⟩

end Pair
end KataGo.Python.Lockstep
