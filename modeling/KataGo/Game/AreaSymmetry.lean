import KataGo.Game.UnconditionalLife

/-! Area scoring treats the two colours alike, although it scores Black first and lets White
write over Black's marks. -/

namespace KataGo.Game
open KataGo.Lib CircularList Labelling
open scoped Classical

/-- The other player's colour; points without a stone stay as they are. -/
def exchange : Color → Color
  | .empty => .empty
  | .black => .white
  | .white => .black
  | .wall => .wall

theorem exchange_exchange (c : Color) : exchange (exchange c) = c := by cases c <;> rfl

theorem exchange_injective : Function.Injective exchange :=
  Function.LeftInverse.injective exchange_exchange

theorem exchange_eq_empty {c : Color} : exchange c = .empty ↔ c = .empty := by cases c <;> decide

theorem exchange_isStone {c : Color} : (exchange c).IsStone ↔ c.IsStone := by cases c <;> decide

theorem exchange_stone {pla : Player} (player : pla.IsStone) : exchange pla = getOpp pla := by
  rcases player with rfl | rfl <;> rfl

theorem side_opp {pla : Player} (player : pla.IsStone) :
    side (getOpp pla) player.opp = (side pla player).map exchange exchange_injective := by
  rcases player with rfl | rfl <;> rfl

theorem side_swap {pla : Player} (player : pla.IsStone) : side (getOpp pla) player.opp = (side pla player).swap := by
  rcases player with rfl | rfl <;> rfl

namespace Board

variable {b b' : Board} {pla : Player} {x : Loc}

/-- A path in the other direction. -/
theorem path_symm {P : Loc → Prop} {xSize : Nat} {p q : Loc} (start : P p)
    (path : Relation.ReflTransGen (fun q r => (grid xSize).Adj q r ∧ P r) p q) :
    Relation.ReflTransGen (fun q r => (grid xSize).Adj q r ∧ P r) q p ∧ P q := by
  induction path with
  | refl => exact ⟨Relation.ReflTransGen.refl, start⟩
  | tail _ edge ih => exact ⟨Relation.ReflTransGen.head ⟨edge.1.symm, ih.2⟩ ih.1, edge.2⟩

/-- Every point of the board can be reached from the corner. -/
theorem path_from_corner {P : Loc → Prop} {xSize ySize : Nat} (points : ∀ q ∈ boardLocs xSize ySize, P q) {x y : Nat}
    (left : x < xSize) (below : y < ySize) :
    Relation.ReflTransGen (fun q r => (grid xSize).Adj q r ∧ P r) (Location.getLoc 0 0 xSize)
      (Location.getLoc x y xSize) := by
  have row : ∀ y < ySize, Relation.ReflTransGen (fun q r => (grid xSize).Adj q r ∧ P r)
      (Location.getLoc 0 0 xSize) (Location.getLoc 0 y xSize) := by
    intro y below
    induction y with
    | zero => exact Relation.ReflTransGen.refl
    | succ y ih =>
      refine (ih (by omega)).tail ⟨?_, points _ (mem_boardLocs.mpr ⟨y + 1, below, 0, by omega, rfl⟩)⟩
      rw [grid_adj, mem_adjs]
      refine .inr (.inr (.inr ?_))
      unfold Location.getLoc
      push_cast
      ring
  induction x with
  | zero => exact row y below
  | succ x ih =>
    refine (ih (by omega)).tail ⟨?_, points _ (mem_boardLocs.mpr ⟨y, below, x + 1, left, rfl⟩)⟩
    rw [grid_adj, mem_adjs]
    refine .inr (.inr (.inl ?_))
    unfold Location.getLoc
    push_cast
    ring

theorem onBoard_iff (shape : b.Shape) (player : pla.IsStone) :
    Benson.OnBoard (side pla player) b.colors x ↔ x ∈ b.locs := by
  rw [← not_iff_not, ← shape.wall_iff x]
  simp only [Benson.OnBoard, Benson.Space, side]
  rcases player with rfl | rfl
  · cases b.colors x <;> simp [getOpp]
  · cases b.colors x <;> simp [getOpp]

/-- The board is connected. -/
theorem joined (shape : b.Shape) (player : pla.IsStone) : Benson.Joined (grid b.xSize) (side pla player) b.colors := by
  intro p q first second
  have points : ∀ x ∈ boardLocs b.xSize b.ySize, Benson.OnBoard (side pla player) b.colors x := fun x member =>
    (onBoard_iff shape player).mpr member
  have corner : ∀ x, Benson.OnBoard (side pla player) b.colors x → Relation.ReflTransGen
      (fun q r => (grid b.xSize).Adj q r ∧ Benson.OnBoard (side pla player) b.colors r)
      (Location.getLoc 0 0 b.xSize) x := by
    intro x point
    obtain ⟨y, below, x, left, rfl⟩ := mem_boardLocs.mp ((onBoard_iff shape player).mp point)
    exact path_from_corner points left below
  have start : Benson.OnBoard (side pla player) b.colors (Location.getLoc 0 0 b.xSize) := by
    apply points
    exact mem_boardLocs.mpr ⟨0, shape.high.1, 0, shape.wide.1, rfl⟩
  exact (path_symm start (corner p first)).1.trans (corner q second)

variable [Zobrist]

/-- Nothing belongs to both players for good. -/
theorem owned_disjoint (consistent : b.Consistent) (player : pla.IsStone) {suicide safe : Bool}
    (own : b.Owned pla player suicide safe x) : ¬ b.Owned (getOpp pla) player.opp suicide safe x := by
  unfold Owned
  rw [side_swap player]
  refine Benson.owned_disjoint (fun x mine => consistent.allAlive x ?_) (fun x theirs => consistent.allAlive x ?_)
    (joined consistent.shape player) own
  · rw [mine]
    exact player
  · rw [theirs]
    exact player.opp

theorem surrounded_disjoint (consistent : b.Consistent) (player : pla.IsStone) (own : b.Surrounded pla player x) :
    ¬ b.Surrounded (getOpp pla) player.opp x := by
  unfold Surrounded
  rw [side_swap player]
  exact Benson.surrounded_disjoint (joined consistent.shape player) own

/-- The order of the two players does not matter. -/
theorem withArea_comm (consistent : b.Consistent) (safe loose suicide : Bool) :
    b.withArea .white (.inr rfl) safe loose suicide (b.withArea .black (.inl rfl) safe loose suicide fun _ => .empty) =
      b.withArea .black (.inl rfl) safe loose suicide
        (b.withArea .white (.inr rfl) safe loose suicide fun _ => .empty) := by
  funext x
  have owned : b.Owned .black (.inl rfl) suicide safe x → ¬ b.Owned .white (.inr rfl) suicide safe x :=
    owned_disjoint consistent (.inl rfl)
  have surrounded : b.Surrounded .black (.inl rfl) x → ¬ b.Surrounded .white (.inr rfl) x :=
    surrounded_disjoint consistent (.inl rfl)
  unfold withArea
  by_cases black : b.Owned .black (.inl rfl) suicide safe x
  · simp [black, owned black]
  · by_cases white : b.Owned .white (.inr rfl) suicide safe x
    · simp [black, white]
    · by_cases around : loose = true ∧ b.Surrounded .black (.inl rfl) x
      · simp [black, white, around.1, around.2, surrounded around.2]
      · rw [not_and] at around
        by_cases allowed : loose = true
        · simp [black, white, around allowed]
        · simp [black, white, allowed]

/-- The board `b'` has a white stone where `b` has a black one, and the other way round. -/
structure Exchanged (b b' : Board) : Prop where
  xSize : b'.xSize = b.xSize
  ySize : b'.ySize = b.ySize
  colors : ∀ x, b'.colors x = exchange (b.colors x)

omit [Zobrist] in
theorem withArea_exchange (exchanged : Exchanged b b') (player : pla.IsStone) (safe loose suicide : Bool)
    (result : Loc → Color) :
    b'.withArea (getOpp pla) player.opp safe loose suicide (fun x => exchange (result x)) =
      fun x => exchange (b.withArea pla player safe loose suicide result x) := by
  have colours : b'.colors = fun x => exchange (b.colors x) := funext exchanged.colors
  funext x
  unfold withArea
  have owned : b'.Owned (getOpp pla) player.opp suicide safe x ↔ b.Owned pla player suicide safe x := by
    unfold Owned
    rw [exchanged.xSize, colours, side_opp player, Benson.owned_map exchange_injective]
  have surrounded : b'.Surrounded (getOpp pla) player.opp x ↔ b.Surrounded pla player x := by
    unfold Surrounded
    rw [exchanged.xSize, colours, side_opp player, Benson.surrounded_map exchange_injective]
  rw [apply_ite exchange, apply_ite exchange, exchange_stone player]
  simp only [owned, surrounded, exchange_eq_empty]

omit [Zobrist] in
theorem markNonPassAliveStones_exchange (exchanged : Exchanged b b') (result : Loc → Color) :
    b'.markNonPassAliveStones (fun x => exchange (result x)) = fun x => exchange (b.markNonPassAliveStones result x) := by
  unfold markNonPassAliveStones locs
  rw [exchanged.xSize, exchanged.ySize]
  induction boardLocs b.xSize b.ySize generalizing result with
  | nil => rfl
  | cons loc rest ih =>
    rw [List.foldl_cons, List.foldl_cons, ← ih]
    congr 1
    simp only [exchange_eq_empty, exchanged.colors]
    split_ifs with blank
    · funext x
      by_cases here : x = loc
      · simp [here]
      · simp [here]
    · rfl

/-- The area of an exchanged board. -/
theorem calculateArea_exchanged (consistent : b.Consistent) (consistent' : b'.Consistent) (exchanged : Exchanged b b')
    (nonPassAliveStones safe loose suicide : Bool) :
    b'.calculateArea nonPassAliveStones safe loose suicide =
      (b.calculateArea nonPassAliveStones safe loose suicide).map fun result x => exchange (result x) := by
  have area : b'.withArea .black (.inl rfl) safe loose suicide
      (b'.withArea .white (.inr rfl) safe loose suicide fun _ => .empty) =
        fun x => exchange (b.withArea .white (.inr rfl) safe loose suicide
          (b.withArea .black (.inl rfl) safe loose suicide fun _ => .empty) x) := by
    have first := withArea_exchange exchanged (.inl rfl) safe loose suicide fun _ => .empty
    have second := withArea_exchange exchanged (.inr rfl) safe loose suicide
      (b.withArea .black (.inl rfl) safe loose suicide fun _ => .empty)
    rw [← first] at second
    exact second
  rw [calculateArea, calculateArea, calculateAreaInOrder_eq consistent (.inl rfl) (.inr rfl),
    calculateAreaInOrder_eq consistent' (.inl rfl) (.inr rfl), withArea_comm consistent', area]
  cases nonPassAliveStones with
  | true => exact congrArg some (markNonPassAliveStones_exchange exchanged _)
  | false => rfl

/-- The board with the two colours exchanged. -/
def exchanged (b : Board) : Board where
  xSize := b.xSize
  ySize := b.ySize
  colors := fun x => exchange (b.colors x)
  chainData := fun x => { b.chainData x with owner := exchange (b.chainData x).owner }
  chainHead := b.chainHead
  nextInChain := b.nextInChain
  koLoc := b.koLoc
  posHash := positionHash b.xSize b.ySize fun x => exchange (b.colors x)
  numBlackCaptures := b.numWhiteCaptures
  numWhiteCaptures := b.numBlackCaptures

theorem exchanged_exchanged (b : Board) : Exchanged b b.exchanged := ⟨rfl, rfl, fun _ => rfl⟩

theorem exchanged_consistent (consistent : b.Consistent) : b.exchanged.Consistent := by
  have stones : ∀ p, (b.exchanged.colors p).IsStone → (b.colors p).IsStone := fun p => exchange_isStone.mp
  have components : ∀ p, b.exchanged.component p = b.component p := by
    intro p
    show {q | Chain (grid b.xSize) (fun x => exchange (b.colors x)) p q} = _
    rw [Benson.chain_map exchange_injective]
    rfl
  have libs : ∀ p, b.exchanged.liberties p = b.liberties p := by
    intro p
    show {e | Liberty (grid b.xSize) .empty (fun x => exchange (b.colors x)) p e} = _
    unfold Liberty
    rw [Benson.chain_map exchange_injective]
    simp only [exchange_eq_empty]
    rfl
  refine ⟨consistent.wide, consistent.high, fun p => ?_, fun p stone => ?_, fun p stone => ?_, fun p q stone inside => ?_,
    fun p stone => ?_, fun p stone => ?_, fun p stone => ?_, fun p stone => ?_, rfl⟩
  · rw [show b.exchanged.locs = b.locs from rfl, ← consistent.walls p]
    show exchange (b.colors p) = .wall ↔ _
    cases b.colors p <;> simp [exchange]
  · rw [components]
    exact consistent.cycle p (stones p stone)
  · rw [components]
    exact consistent.head p (stones p stone)
  · rw [components] at inside
    exact consistent.shared p q (stones p stone) inside
  · exact congrArg exchange (consistent.owner p (stones p stone))
  · rw [components]
    exact consistent.numLocs p (stones p stone)
  · rw [libs]
    exact consistent.numLiberties p (stones p stone)
  · exact consistent.alive p (stones p stone)

/-- Area scoring is symmetric: on a board with the colours exchanged the result is exchanged, and
scoring White before Black gives the same result. -/
theorem calculateArea_symmetric (b : Board)
    (nonPassAliveStones safeBigTerritories unsafeBigTerritories isMultiStoneSuicideLegal : Bool)
    (consistent : b.Consistent) :
    ∃ result, b.calculateArea nonPassAliveStones safeBigTerritories unsafeBigTerritories isMultiStoneSuicideLegal =
        some result ∧
      b.exchanged.calculateArea nonPassAliveStones safeBigTerritories unsafeBigTerritories isMultiStoneSuicideLegal =
        some (fun x => exchange (result x)) ∧
      (∀ b' : Board, b'.Consistent → Exchanged b b' →
        b'.calculateArea nonPassAliveStones safeBigTerritories unsafeBigTerritories isMultiStoneSuicideLegal =
          some fun x => exchange (result x)) ∧
      b.calculateAreaInOrder .white .black nonPassAliveStones safeBigTerritories unsafeBigTerritories
        isMultiStoneSuicideLegal = some result := by
  have area := calculateAreaInOrder_eq consistent (.inl rfl) (.inr rfl) nonPassAliveStones safeBigTerritories
    unsafeBigTerritories isMultiStoneSuicideLegal
  have other : ∀ b' : Board, b'.Consistent → Exchanged b b' → b'.calculateArea nonPassAliveStones safeBigTerritories
      unsafeBigTerritories isMultiStoneSuicideLegal = _ := fun b' consistent' exchange' =>
    (calculateArea_exchanged consistent consistent' exchange' _ _ _ _).trans (congrArg (Option.map _) area)
  refine ⟨_, area, other _ (exchanged_consistent consistent) (exchanged_exchanged b), other, ?_⟩
  rw [calculateAreaInOrder_eq consistent (.inr rfl) (.inl rfl), withArea_comm consistent]

end Board

/-- Three stones of either colour. -/
theorem calculateArea_symmetric_three :
    letI := Zobrist.blank
    ∃ b result, threeStones = some b ∧ b.calculateArea true true true true = some result ∧
      b.exchanged.calculateArea true true true true = some fun x => exchange (result x) := by
  let _ := Zobrist.blank
  obtain ⟨b, made, consistent⟩ := threeStones_consistent
  obtain ⟨result, area, symmetric, -⟩ := Board.calculateArea_symmetric b true true true true consistent
  exact ⟨b, result, made, area, symmetric⟩

end KataGo.Game
