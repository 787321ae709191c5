import KataGo.Python.LadderTrace

/-! Head `0` belongs to no group: no operation counts a liberty for it. The search reads this count when the
group it follows has taken its own last liberty and is gone. -/

namespace KataGo.Python
open KataGo.Lib CircularList Labelling Flood
open KataGo.Game (Color Player getOpp Loc grid)

namespace Board

/-- No liberty is counted at head `0`, and every stone has another head. -/
structure Rooted (b : Board) : Prop where
  zero : b.groupLibertyCount 0 = 0
  heads : ∀ p, (b.board p).IsStone → b.groupHead p ≠ 0

variable {b b' b₁ : Board} {h p q a loc head : Loc} {pla opp : Color}

theorem Rooted.congr (rooted : b.Rooted) (board : b'.board = b.board) (heads : b'.groupHead = b.groupHead)
    (counts : b'.groupLibertyCount = b.groupLibertyCount) : b'.Rooted :=
  ⟨by rw [counts]; exact rooted.zero, fun p stone => by rw [heads]; exact rooted.heads p (board ▸ stone)⟩

/-- The count of another head is written. -/
theorem Rooted.write (rooted : b.Rooted) (other : head ≠ 0) (n : Int) :
    ({ b with groupLibertyCount := Function.update b.groupLibertyCount head n } : Board).Rooted :=
  ⟨(Function.update_of_ne other.symm ..).trans rooted.zero, rooted.heads⟩

theorem update_zero {f : Loc → Int} (zero : f 0 = 0) (head : Loc) : Function.update f head 0 0 = 0 := by
  by_cases here : head = 0
  · rw [here, Function.update_self]
  · rw [Function.update_of_ne (Ne.symm here), zero]

theorem Rooted.changeLibertiesFrom {mine : Color → Bool} (stones : ∀ c, mine c = true → c.IsStone) (delta : Int)
    (rest : List Loc) {earlier : List Loc} {b : Board} (rooted : b.Rooted) :
    (Board.changeLibertiesFrom mine delta earlier rest b).Rooted := by
  induction rest generalizing earlier b with
  | nil => exact rooted
  | cons a rest ih =>
    refine ih ?_
    by_cases chosen : mine (b.board a) = true ∧ earlier.all (fun e => b.groupHead a ≠ b.groupHead e) = true
    · rw [if_pos chosen]
      exact rooted.write (rooted.heads a (stones _ chosen.1)) _
    · rw [if_neg chosen]
      exact rooted

theorem Rooted.changeLiberties (rooted : b.Rooted) {mine : Color → Bool} (stones : ∀ c, mine c = true → c.IsStone)
    (loc : Loc) (delta : Int) : (b.changeLiberties mine loc delta).Rooted :=
  Rooted.changeLibertiesFrom stones delta _ rooted

theorem stone_of_eq (player : pla.IsStone) : ∀ c, decide (c = pla) = true → c.IsStone := fun c same => by
  rw [of_decide_eq_true same]
  exact player

/-- Merging writes the counts of the two groups and gives the stones of one the head of the other. -/
theorem Rooted.mergeStones (rooted : b.Rooted) (other : h ≠ 0) (chead : Loc) (stones : List Loc) :
    (b.mergeStones h chead stones).Rooted ∧ (b.mergeStones h chead stones).board = b.board := by
  have merged : ∀ (n : Int), ((stones.foldl (mergeStone h) (b, n)).1.board = b.board ∧
      (stones.foldl (mergeStone h) (b, n)).1.groupLibertyCount = b.groupLibertyCount) ∧
      (stones.foldl (mergeStone h) (b, n)).1.Rooted := by
    induction stones generalizing b with
    | nil => exact fun _ => ⟨⟨rfl, rfl⟩, rooted⟩
    | cons p stones ih =>
      intro n
      rw [List.foldl_cons]
      refine ih (b := (mergeStone h (b, n) p).1) ⟨rooted.zero, fun q stone => ?_⟩ _
      change Function.update b.groupHead p h q ≠ 0
      by_cases here : q = p
      · rw [here, Function.update_self]
        exact other
      · rw [Function.update_of_ne here]
        exact rooted.heads q stone
  obtain ⟨⟨board, counts⟩, rooted'⟩ := merged (b.groupLibertyCount h)
  refine ⟨⟨?_, rooted'.heads⟩, board⟩
  have zero := update_zero rooted.zero chead
  rw [← counts] at zero
  exact (Function.update_of_ne other.symm ..).trans zero

theorem Rooted.mergeUnsafe {loc0 loc1 : Loc} (rooted : b.Rooted) (stone0 : (b.board loc0).IsStone)
    (stone1 : (b.board loc1).IsStone) (run : b.mergeUnsafe loc0 loc1 = some b') :
    b'.Rooted ∧ b'.board = b.board := by
  unfold Board.mergeUnsafe at run
  have parent : (b.board (if b.stoneCount loc0 ≥ b.stoneCount loc1 then loc0 else loc1)).IsStone := by
    split_ifs
    · exact stone0
    · exact stone1
  dsimp only at run
  by_cases same : b.groupHead (if b.stoneCount loc0 ≥ b.stoneCount loc1 then loc0 else loc1) =
      b.groupHead (if b.stoneCount loc0 ≥ b.stoneCount loc1 then loc1 else loc0)
  · rw [if_pos same] at run
    obtain rfl := Option.some.inj run
    exact ⟨rooted, rfl⟩
  · rw [if_neg same] at run
    obtain ⟨stones, -, result⟩ := Option.bind_eq_some_iff.mp run
    obtain rfl := Option.some.inj result
    exact rooted.mergeStones (rooted.heads _ parent) _ stones

variable [ZobristStone]

theorem Rooted.placeStone (rooted : b.Rooted) (proper : loc ≠ 0) : (b.placeStone pla loc).Rooted := by
  refine ⟨(Function.update_of_ne proper.symm ..).trans rooted.zero, fun p stone => ?_⟩
  change Function.update b.groupHead loc loc p ≠ 0
  by_cases here : p = loc
  · rw [here, Function.update_self]
    exact proper
  · rw [Function.update_of_ne here]
    refine rooted.heads p ?_
    have stone : (Function.update b.board loc pla p).IsStone := stone
    rwa [Function.update_of_ne here] at stone

theorem Rooted.joinStone (rooted : b.Rooted) (proper : loc ≠ 0) (player : pla.IsStone)
    (run : b.joinStone pla loc = some b') : b'.Rooted := by
  have merges : ∀ (rest : List Loc) {b b' : Board}, b.Rooted → b.board loc = pla →
      rest.foldlM (fun b a => if b.board a = pla then b.mergeUnsafe loc a else some b) b = some b' → b'.Rooted := by
    intro rest
    induction rest with
    | nil =>
      intro b b' rooted _ run
      obtain rfl := Option.some.inj run
      exact rooted
    | cons a rest ih =>
      intro b b' rooted placed run
      obtain ⟨b₁, first, run⟩ := Option.bind_eq_some_iff.mp run
      have first : (if b.board a = pla then b.mergeUnsafe loc a else some b) = some b₁ := first
      by_cases mine : b.board a = pla
      · rw [if_pos mine] at first
        obtain ⟨rooted₁, board⟩ := rooted.mergeUnsafe (by rw [placed]; exact player) (by rw [mine]; exact player) first
        exact ih rooted₁ (by rw [board, placed]) run
      · rw [if_neg mine] at first
        obtain rfl := Option.some.inj first
        exact ih rooted placed run
  have frame := changeLiberties_frame (b.placeStone pla loc) (fun c => c = .black ∨ c = .white) loc (-1)
  have placed : (b.placeStone pla loc).Rooted := rooted.placeStone proper
  refine merges _ (placed.changeLiberties (fun c stone => of_decide_eq_true stone) loc (-1)) ?_ run
  exact (congrArg (fun b : Board => b.board loc) frame).trans (Function.update_self ..)

theorem Rooted.removeStones (opponent : opp.IsStone) (stones : List Loc) {b : Board} (rooted : b.Rooted) :
    (stones.foldl (removeStone opp) b).Rooted := by
  induction stones generalizing b with
  | nil => exact rooted
  | cons p stones ih =>
    refine ih ?_
    have changed := rooted.changeLiberties (stone_of_eq opponent) p 1
    refine ⟨changed.zero, fun q stone => ?_⟩
    have stone : (Function.update (b.changeLiberties (· = opp) p 1).board p .empty q).IsStone := stone
    change Function.update (b.changeLiberties (· = opp) p 1).groupHead p 0 q ≠ 0
    have other : q ≠ p := by
      rintro rfl
      rw [Function.update_self] at stone
      exact stone.ne_empty rfl
    rw [Function.update_of_ne other] at stone ⊢
    exact changed.heads q stone

theorem Rooted.removeUnsafe (rooted : b.Rooted) (stone : (b.board p).IsStone) (run : b.removeUnsafe p = some b') :
    b'.Rooted := by
  obtain ⟨stones, -, result⟩ := Option.bind_eq_some_iff.mp run
  obtain rfl := Option.some.inj result
  have removed := rooted.removeStones stone.opp stones
  exact ⟨update_zero removed.zero _, removed.heads⟩

theorem Rooted.captures (opponent : opp.IsStone) (rest : List Loc) {s s' : CaptureState} (rooted : s.board.Rooted)
    (run : rest.foldlM (captureDir opp) s = some s') : s'.board.Rooted := by
  induction rest generalizing s with
  | nil =>
    obtain rfl := Option.some.inj run
    exact rooted
  | cons a rest ih =>
    obtain ⟨s₁, first, run⟩ := Option.bind_eq_some_iff.mp run
    refine ih ?_ run
    unfold captureDir at first
    by_cases captured : s.board.board a = opp ∧ s.board.libertyCount a = 0
    · rw [if_pos captured] at first
      obtain ⟨b, removed, result⟩ := Option.bind_eq_some_iff.mp first
      obtain rfl := Option.some.inj result
      exact rooted.removeUnsafe (by rw [captured.1]; exact opponent) removed
    · rw [if_neg captured] at first
      obtain rfl := Option.some.inj first
      exact rooted

/-- A stone added to a board in order. -/
theorem Rooted.addUnsafe (rooted : b.Rooted) (sound : b.Sound) (blank : b.board loc = .empty) (player : pla.IsStone)
    (run : b.addUnsafe pla loc = some b') : b'.Rooted := by
  have proper : loc ≠ 0 := (sound.regular.booked.shape.positive (by rw [blank]; decide)).ne'
  obtain ⟨b₁, join, regular₁, same, placed, -⟩ := sound.regular.joinStone blank player
  obtain ⟨s, captures, capturing⟩ := (Capturing.start regular₁ player loc).loop player (b₁.adj loc) (List.nil_append _)
  have colours := capturing.board_eq placed same.xSize sound.alive blank player
  have stone : (s.board.board loc).IsStone := by
    rw [colours, removeDead_placed player.ne_empty.symm player.opp_ne.symm]
    exact player
  have rooted₂ := Rooted.captures player.opp _ (rooted.joinStone proper player join) captures
  rw [Board.addUnsafe, join] at run
  simp only [Option.bind_eq_bind, Option.bind_some, captures, resolveSuicide] at run
  by_cases suicide : s.board.libertyCount loc = 0
  · rw [if_pos suicide] at run
    obtain ⟨⟨b₂, taken⟩, resolved, result⟩ := Option.bind_eq_some_iff.mp run
    obtain ⟨b₃, removed, pair⟩ := Option.bind_eq_some_iff.mp resolved
    obtain ⟨rfl, -⟩ := Prod.mk.inj (Option.some.inj pair)
    obtain rfl := Option.some.inj result
    exact (rooted₂.removeUnsafe stone removed).congr rfl rfl rfl
  · rw [if_neg suicide] at run
    obtain rfl := Option.some.inj run
    exact rooted₂.congr rfl rfl rfl

theorem Rooted.playUnsafe (rooted : b.Rooted) (sound : b.Sound) (player : pla.IsStone)
    (open' : loc = passLoc ∨ b.board loc = .empty) (run : b.playUnsafe pla loc = some b') : b'.Rooted := by
  unfold Board.playUnsafe at run
  by_cases pass : loc = passLoc
  · rw [if_pos pass] at run
    obtain rfl := Option.some.inj run
    exact rooted.congr rfl rfl rfl
  · rw [if_neg pass] at run
    obtain ⟨b₁, added, result⟩ := Option.bind_eq_some_iff.mp run
    obtain rfl := Option.some.inj result
    exact (rooted.addUnsafe sound (open'.resolve_left pass) player added).congr rfl rfl rfl

section Undo

theorem Rooted.floodFillVisit (rooted : b.Rooted) (proper : head ≠ 0) (player : pla.IsStone) (tail : Loc) (p : Loc) :
    (Board.floodFillVisit head pla (b, tail) p).1.Rooted := by
  change (Board.changeLiberties _ (· = getOpp pla) p (-1)).Rooted
  refine Rooted.changeLiberties ?_ (stone_of_eq player.opp) p (-1)
  refine ⟨rooted.zero, fun q stone => ?_⟩
  have stone : (Function.update b.board p pla q).IsStone := stone
  change Function.update b.groupHead p head q ≠ 0
  by_cases here : q = p
  · rw [here, Function.update_self]
    exact proper
  · rw [Function.update_of_ne here] at stone ⊢
    exact rooted.heads q stone

theorem Rooted.floodFillStones (rooted : b.Rooted) (proper : loc ≠ 0) (player : pla.IsStone)
    (run : b.floodFillStones pla loc = some b') : b'.Rooted := by
  obtain ⟨⟨b₁, front⟩, filled, result⟩ := Option.bind_eq_some_iff.mp run
  obtain rfl := Option.some.inj result
  have start : (b.zeroCounts loc).Rooted := ⟨update_zero rooted.zero loc, rooted.heads⟩
  have kept := flood_invariant (fun s : Board × Loc => s.1.Rooted)
    (fun s v inv => Rooted.floodFillVisit inv proper player s.2 v) _ start filled
  exact kept.congr rfl rfl rfl

theorem Rooted.floodFillStones_wall (rooted : b.Rooted) (wall : b.board 0 ≠ .empty) (blank : b.board loc = .empty)
    (player : pla.IsStone) (run : b.floodFillStones pla loc = some b') : b'.Rooted ∧ b'.board 0 ≠ .empty := by
  have proper : loc ≠ 0 := fun here => wall (here ▸ blank)
  refine ⟨rooted.floodFillStones proper player run, ?_⟩
  obtain ⟨⟨b₁, front⟩, filled, result⟩ := Option.bind_eq_some_iff.mp run
  obtain rfl := Option.some.inj result
  refine flood_invariant (fun s : Board × Loc => s.1.board 0 ≠ .empty) (fun s v inv => ?_) _
    (s := (b.zeroCounts loc, loc)) wall filled
  have frame := changeLiberties_frame ({ s.1 with
    board := Function.update s.1.board v pla
    zobrist := s.1.zobrist ^^^ ZobristStone.key pla v
    groupHead := Function.update s.1.groupHead v loc
    groupStoneCount := Function.update s.1.groupStoneCount loc (s.1.groupStoneCount loc + 1)
    groupNext := Function.update s.1.groupNext v s.2
    groupPrev := Function.update s.1.groupPrev s.2 v } : Board) (· = getOpp pla) v (-1)
  have colours : (Board.floodFillVisit loc pla s v).1.board 0 = Function.update s.1.board v pla 0 :=
    congrArg (fun b : Board => b.board 0) frame
  change (Board.floodFillVisit loc pla s v).1.board 0 ≠ .empty
  rw [colours]
  by_cases here : (0 : Loc) = v
  · rw [here, Function.update_self]
    exact player.ne_empty
  · rwa [Function.update_of_ne here]

theorem Rooted.undoCaptures (capDirs : List Nat) {b : Board} (rooted : b.Rooted) (wall : b.board 0 ≠ .empty)
    (opponent : opp.IsStone) (run : b.undoCaptures opp loc capDirs = some b') : b'.Rooted := by
  induction capDirs generalizing b with
  | nil =>
    obtain rfl := Option.some.inj run
    exact rooted
  | cons i capDirs ih =>
    obtain ⟨b₁, first, run⟩ := Option.bind_eq_some_iff.mp run
    have first : (if b.board ((b.adj loc).getD i 0) = .empty then b.floodFillStones opp ((b.adj loc).getD i 0)
      else some b) = some b₁ := first
    by_cases blank : b.board ((b.adj loc).getD i 0) = .empty
    · rw [if_pos blank] at first
      obtain ⟨rooted₁, wall₁⟩ := rooted.floodFillStones_wall wall blank opponent first
      exact ih rooted₁ wall₁ run
    · rw [if_neg blank] at first
      obtain rfl := Option.some.inj first
      exact ih rooted wall run

omit [ZobristStone] in
theorem rebuildChain_counted (zero : b.groupLibertyCount 0 = 0) (proper : loc ≠ 0) (run : b.rebuildChain pla loc = some b') :
    b'.groupLibertyCount 0 = 0 ∧ b'.board = b.board := by
  obtain ⟨⟨b₁, front⟩, rebuilt, result⟩ := Option.bind_eq_some_iff.mp run
  obtain rfl := Option.some.inj result
  have visits : ∀ (s : Board × Loc) v, (s.1.groupLibertyCount 0 = 0 ∧ s.1.board = b.board) →
      (rebuildVisit loc s v).1.groupLibertyCount 0 = 0 ∧ (rebuildVisit loc s v).1.board = b.board := fun s v inv =>
    ⟨(Function.update_of_ne proper.symm ..).trans inv.1, inv.2⟩
  exact flood_invariant (fun s : Board × Loc => s.1.groupLibertyCount 0 = 0 ∧ s.1.board = b.board) visits _
    ⟨update_zero zero loc, rfl⟩ rebuilt

omit [ZobristStone] in
theorem rebuildAll_counted (l : List Loc) {b : Board} (zero : b.groupLibertyCount 0 = 0)
    (proper : ∀ a, b.board a = pla → a ≠ 0)
    (run : l.foldlM (fun b a => if b.board a = pla ∧ b.groupHead a = passLoc then b.rebuildChain pla a else some b) b =
      some b') : b'.groupLibertyCount 0 = 0 := by
  induction l generalizing b with
  | nil =>
    obtain rfl := Option.some.inj run
    exact zero
  | cons a l ih =>
    obtain ⟨b₁, first, run⟩ := Option.bind_eq_some_iff.mp run
    have first : (if b.board a = pla ∧ b.groupHead a = passLoc then b.rebuildChain pla a else some b) = some b₁ := first
    by_cases chosen : b.board a = pla ∧ b.groupHead a = passLoc
    · rw [if_pos chosen] at first
      obtain ⟨zero₁, board⟩ := rebuildChain_counted zero (proper a chosen.1) first
      exact ih zero₁ (by rwa [board]) run
    · rw [if_neg chosen] at first
      obtain rfl := Option.some.inj first
      exact ih zero proper run

theorem Rooted.deleteStone (rooted : b.Rooted) (shape : b.Shape) (player : pla.IsStone)
    (run : b.deleteStone pla loc = some b') : b'.groupLibertyCount 0 = 0 := by
  have emptied : ∀ a, (Function.update b.board loc .empty a).IsStone → (b.board a).IsStone := by
    intro a stone
    by_cases here : a = loc
    · rw [here, Function.update_self] at stone
      exact absurd rfl stone.ne_empty
    · rwa [Function.update_of_ne here] at stone
  have zeroed : (({ b with
      zobrist := b.zobrist ^^^ ZobristStone.key pla loc
      board := Function.update b.board loc .empty } : Board).zeroCounts (b.groupHead loc)).Rooted :=
    ⟨update_zero rooted.zero _, fun a stone => rooted.heads a (emptied a stone)⟩
  have lifted : (b.lifted pla loc).Rooted := zeroed.changeLiberties (stone_of_eq player.opp) loc 1
  have start : b.deleteStone pla loc = (do
      let b' ← if b.groupStoneCount (b.groupHead loc) > 1 then (b.lifted pla loc).undoRebuild pla loc
        else some (b.lifted pla loc)
      return b'.clearLinks loc) := rfl
  by_cases many : b.groupStoneCount (b.groupHead loc) > 1
  · rw [start, if_pos many] at run
    obtain ⟨b₁, rebuilt, result⟩ := Option.bind_eq_some_iff.mp run
    obtain rfl := Option.some.inj result
    change b₁.groupLibertyCount 0 = 0
    obtain ⟨stones, -, rebuilt⟩ := Option.bind_eq_some_iff.mp rebuilt
    refine rebuildAll_counted _ (b := (b.lifted pla loc).clearHeads stones) lifted.zero (fun a mine => ?_) rebuilt
    have frame := changeLiberties_frame (({ b with
      zobrist := b.zobrist ^^^ ZobristStone.key pla loc
      board := Function.update b.board loc .empty } : Board).zeroCounts (b.groupHead loc)) (· = getOpp pla) loc 1
    have colours : ((b.lifted pla loc).clearHeads stones).board a = Function.update b.board loc .empty a :=
      congrArg (fun b : Board => b.board a) frame
    rw [colours] at mine
    exact (shape.positive (emptied a (by rw [mine]; exact player)).ne_wall).ne'
  · rw [start, if_neg many] at run
    obtain rfl := Option.some.inj run
    exact lifted.zero

omit [ZobristStone] in
theorem Shape.wall_zero (shape : b.Shape) : b.board 0 ≠ .empty := fun blank =>
  absurd (shape.positive (p := 0) (by rw [blank]; decide)) (by decide)

/-- Undoing a recorded move, on any board in order that shows the position after it. -/
theorem Rooted.undo {B : Board} {record : MoveRecord} (rooted : b.Rooted) (regularB : B.Regular) (alive : B.AllAlive)
    (recorded : RecordOf B b record) (regular : b.Regular) (xSize : b.xSize = B.xSize)
    (run : b.undo record = some b') : b'.groupLibertyCount 0 = 0 := by
  have proper : record.loc ≠ 0 := (regularB.booked.shape.positive (by rw [recorded.blank]; decide)).ne'
  obtain ⟨b₀, reset⟩ : ∃ b₀ : Board, b₀ = b.resetTo record := ⟨_, rfl⟩
  have regular₀ : b₀.Regular := by
    rw [reset]
    exact regular.congr rfl rfl rfl rfl rfl rfl rfl rfl
  have rooted₀ : b₀.Rooted := by
    rw [reset]
    exact rooted.congr rfl rfl rfl
  have board₀ : b₀.board = b.board := by rw [reset]; rfl
  obtain ⟨b₁, b₂, fill, suicide, restored⟩ := refill_spec regularB alive recorded.blank recorded.player regular₀
    (by rw [reset]; exact xSize) (board₀.trans recorded.board)
  have rooted₁ := rooted₀.undoCaptures _ regular₀.booked.shape.wall_zero recorded.player.opp fill
  have rooted₂ : b₂.Rooted := by
    by_cases taken : b₀.board record.loc = .empty
    · rw [if_pos taken] at suicide
      exact rooted₁.floodFillStones proper recorded.player suicide
    · rw [if_neg taken] at suicide
      exact Option.some.inj suicide ▸ rooted₁
  have start : b.undo record = (do
      let b ← b₀.undoCaptures (getOpp record.pla) record.loc record.capDirs
      let b ← if record.selfCap then b.floodFillStones record.pla record.loc else some b
      b.deleteStone record.pla record.loc) := by
    rw [Board.undo, reset]
    exact if_neg proper
  have delete : b₂.deleteStone record.pla record.loc = some b' := by
    rw [board₀] at suicide
    rw [start, recorded.capDirs, fill, recorded.selfCap] at run
    by_cases taken : b.board record.loc = .empty
    · rw [if_pos taken] at suicide
      simpa [taken, suicide] using run
    · rw [if_neg taken] at suicide
      simpa [taken, Option.some.inj suicide] using run
  exact rooted₂.deleteStone restored.regular.booked.shape recorded.player delete

end Undo

section PutBack

theorem Rooted.putBack (alive : b.AllAlive) (player : pla.IsStone) (rest : List Loc) {b₁ : Board}
    (colour : ∀ q ∈ rest, b.board q = pla) (nodup : rest.Nodup) (absent : loc ∉ rest) (sound : b₁.Sound)
    (xSize : b₁.xSize = b.xSize) (colours : ∀ q, b₁.board q = if q = loc ∨ q ∈ rest then .empty else b.board q)
    (rooted : b₁.Rooted)
    (run : rest.foldlM (fun b p => if p ≠ loc then b.addUnsafe pla p else some b) b₁ = some b') : b'.Rooted := by
  induction rest generalizing b₁ with
  | nil =>
    obtain rfl := Option.some.inj run
    exact rooted
  | cons p rest ih =>
    obtain ⟨fresh, rest'⟩ := List.nodup_cons.1 nodup
    have other : p ≠ loc := fun same => absent (by simp [same])
    have mine := colour p (by simp)
    have fewer : ∀ q, b₁.board q = b.board q ∨ b₁.board q = .empty := by
      intro q
      rw [colours q]
      split_ifs <;> simp
    have blank : b₁.board p = .empty := by rw [colours p, if_pos (by simp)]
    obtain ⟨b₂, added, sound₂, xSize₂, -, colours₂⟩ := addUnsafe_back alive sound xSize fewer blank
      (by rw [mine]; exact player)
    rw [mine] at added colours₂
    rw [List.foldlM_cons, if_pos other, added] at run
    refine ih (fun q member => colour q (by simp [member])) rest' (fun member => absent (by simp [member])) sound₂
      (xSize₂.trans xSize) (fun q => ?_) (rooted.addUnsafe sound blank player added) run
    rw [colours₂]
    by_cases here : q = p
    · subst here
      simp [other, fresh, mine]
    · simp [colours q, here]

theorem Rooted.removeSingleStoneUnsafe (rooted : b.Rooted) (sound : b.Sound) (stone : (b.board loc).IsStone)
    (run : b.removeSingleStoneUnsafe loc = some b') : b'.Rooted := by
  have regular := sound.regular
  obtain ⟨t, walked, ring, -⟩ := (regular.booked.group loc stone).groupLocs regular.booked.shape rfl
  obtain ⟨b₁, remove, regular₁, same, gone, kept⟩ := regular.removeUnsafe stone
  obtain ⟨absent, nodup⟩ := List.nodup_cons.1 ring.nodup
  have members : ∀ q, q ∈ loc :: t ↔ q ∈ b.component loc := fun q =>
    (ring.mem q).trans (regular.component loc q stone)
  have colours : ∀ q, b₁.board q = if q = loc ∨ q ∈ t then .empty else b.board q := by
    intro q
    split_ifs with inside
    · exact gone q ((members q).1 (List.mem_cons.2 inside))
    · exact kept q fun found => inside (List.mem_cons.1 ((members q).2 found))
  have sound₁ : b₁.Sound := by
    refine ⟨regular₁, allAlive_of_fewer sound.alive same.xSize fun q => ?_⟩
    rw [colours q]
    split_ifs <;> simp
  rw [Board.removeSingleStoneUnsafe, walked] at run
  simp only [Option.bind_eq_bind, Option.bind_some, remove, List.foldlM_cons, ne_eq, not_true_eq_false, if_false] at run
  exact Rooted.putBack sound.alive stone t (fun q member => Chain.label ((members q).1 (by simp [member]))) nodup absent
    sound₁ same.xSize colours (rooted.removeUnsafe stone remove) run

theorem Rooted.replaceStone (rooted : b.Rooted) (sound : b.Sound) (settable : pla ≠ .wall) (point : b.board loc ≠ .wall)
    (run : b.replaceStone pla loc = some b') : b'.Rooted := by
  have player : pla ≠ .empty → pla.IsStone := fun other => by
    by_contra none
    exact (cases_of_not_stone none).elim other settable
  have stone : b.board loc ≠ .empty → (b.board loc).IsStone := fun other => by
    by_contra none
    exact (cases_of_not_stone none).elim other point
  unfold Board.replaceStone at run
  split_ifs at run with same blank erase
  · exact Option.some.inj run ▸ rooted
  · exact rooted.addUnsafe sound blank (player fun none => same (blank.trans none.symm)) run
  · exact rooted.removeSingleStoneUnsafe sound (stone blank) run
  · obtain ⟨b₁, removed, run⟩ := Option.bind_eq_some_iff.mp run
    obtain ⟨b₂, remove, sound₁, -, -, colours⟩ := removeSingleStoneUnsafe_spec sound (stone blank)
    obtain rfl := Option.some.inj (remove.symm.trans removed)
    exact (rooted.removeSingleStoneUnsafe sound (stone blank) removed).addUnsafe sound₁
      (by rw [colours, Function.update_self]) (player erase) run

end PutBack

/-- In order, with nothing counted at head `0`. -/
structure Orderly (b : Board) : Prop extends Sound b where
  zero : b.groupLibertyCount 0 = 0

omit [ZobristStone] in
theorem Orderly.rooted (orderly : b.Orderly) : b.Rooted :=
  ⟨orderly.zero, fun _ stone => (orderly.regular.booked.head_positive stone).ne'⟩

omit [ZobristStone] in
theorem Orderly.congr (orderly : b.Orderly) (xSize : b'.xSize = b.xSize) (ySize : b'.ySize = b.ySize)
    (board : b'.board = b.board) (heads : b'.groupHead = b.groupHead)
    (counts : b'.groupStoneCount = b.groupStoneCount) (libertyCounts : b'.groupLibertyCount = b.groupLibertyCount)
    (nexts : b'.groupNext = b.groupNext) (prevs : b'.groupPrev = b.groupPrev) : b'.Orderly :=
  ⟨orderly.toSound.congr xSize ySize board heads counts libertyCounts nexts prevs, by
    rw [libertyCounts]
    exact orderly.zero⟩

theorem Orderly.playRecordedUnsafe {record : MoveRecord} (orderly : b.Orderly) (player : pla.IsStone)
    (open' : loc = passLoc ∨ b.board loc = .empty) (run : b.playRecordedUnsafe pla loc = some (b', record)) :
    b'.Orderly ∧ LedTo b b' record := by
  obtain ⟨b₁, record', run', sound, led⟩ := playRecordedUnsafe_ledTo orderly.toSound player open'
  obtain ⟨rfl, rfl⟩ := Prod.mk.inj (Option.some.inj (run'.symm.trans run))
  obtain ⟨b₂, played, result⟩ := Option.bind_eq_some_iff.mp run
  obtain ⟨rfl, -⟩ := Prod.mk.inj (Option.some.inj result)
  exact ⟨⟨sound, (orderly.rooted.playUnsafe orderly.toSound player open' played).zero⟩, led⟩

theorem Orderly.undo {B : Board} {record : MoveRecord} (orderly : b.Orderly) (soundB : B.Sound) (led : LedTo B b record)
    (run : b.undo record = some b') : b'.Orderly := by
  obtain ⟨b₁, run', sound, -⟩ := undo_ledTo orderly.toSound soundB led
  obtain rfl := Option.some.inj (run'.symm.trans run)
  refine ⟨sound, ?_⟩
  obtain ⟨xSize, -, ⟨pass, -⟩ | recorded⟩ := led
  · rw [Board.undo, if_pos pass] at run
    obtain rfl := Option.some.inj run
    exact orderly.zero
  · exact orderly.rooted.undo soundB.regular soundB.alive recorded orderly.regular xSize run

end Board

namespace Session

variable [ZobristStone] {s s' : Session}

/-- What one operation preserves. -/
theorem Sound.apply_orderly (sound : s.Sound) (zero : s.board.groupLibertyCount 0 = 0) {op : Op}
    (admissible : s.admissible op = true) (run : s.apply op = some s') : s'.board.groupLibertyCount 0 = 0 := by
  have orderly : s.board.Orderly := ⟨sound.board, zero⟩
  cases op with
  | play pla loc =>
    obtain ⟨result, played, rfl⟩ := Option.map_eq_some_iff.mp run
    cases legal : s.board.wouldBeLegal pla loc with
    | false =>
      obtain ⟨message, raised⟩ := Board.play_of_illegal legal
      obtain rfl := Option.some.inj (raised.symm.trans played)
      exact zero
    | true =>
      rw [Board.play_of_legal legal] at played
      obtain ⟨b, moved, rfl⟩ := Option.map_eq_some_iff.mp played
      obtain ⟨player, open'⟩ := Board.open_of_legal legal
      exact (orderly.rooted.playUnsafe orderly.toSound player open' moved).zero
  | setStone pla loc =>
    obtain ⟨result, placed, rfl⟩ := Option.map_eq_some_iff.mp run
    by_cases settable : pla ≠ .wall
    swap
    · rw [not_not] at settable
      rw [Board.setStone, if_pos (by rw [settable]; decide)] at placed
      obtain rfl := Option.some.inj placed
      exact zero
    by_cases onBoard : s.board.isOnBoard loc = true
    · rw [Board.setStone_eq settable onBoard] at placed
      obtain ⟨b, replaced, rfl⟩ := Option.map_eq_some_iff.mp placed
      have shape := orderly.regular.booked.shape
      exact (orderly.rooted.replaceStone orderly.toSound settable
        ((shape.wall_iff loc).not_left.2 (shape.isOnBoard_iff.1 onBoard)) replaced).zero
    · rw [Board.setStone, if_neg (by revert settable; cases pla <;> decide), if_pos (by simpa using onBoard)] at placed
      obtain rfl := Option.some.inj placed
      exact zero
  | playRecordedUnsafe pla loc =>
    obtain ⟨player, open'⟩ := of_decide_eq_true admissible
    obtain ⟨⟨b, record⟩, played, result⟩ := Option.bind_eq_some_iff.mp run
    obtain rfl := Option.some.inj result
    exact (orderly.playRecordedUnsafe player open' played).1.zero
  | undo =>
    obtain ⟨board, records⟩ := s
    cases records with
    | nil => cases run
    | cons record records =>
      obtain ⟨B, soundB, led, -⟩ := sound.undoable
      obtain ⟨b, undone, result⟩ := Option.bind_eq_some_iff.mp run
      obtain rfl := Option.some.inj result
      exact (orderly.undo soundB led undone).zero

/-- Every run of operations from an empty board leaves nothing counted at head `0`. -/
theorem Sound.run_orderly (sound : s.Sound) (zero : s.board.groupLibertyCount 0 = 0) (ops : List Op)
    (admissible : s.allAdmissible ops = true) (run : s.run ops = some s') : s'.board.Orderly := by
  induction ops generalizing s with
  | nil =>
    obtain rfl := Option.some.inj run
    exact ⟨sound.board, zero⟩
  | cons op ops ih =>
    rw [allAdmissible, Bool.and_eq_true] at admissible
    obtain ⟨s₁, first, sound₁⟩ := sound.apply admissible.1
    rw [first] at admissible
    rw [Session.run, List.foldlM_cons, first] at run
    exact ih sound₁ (sound.apply_orderly zero admissible.1 first) admissible.2 run

omit [ZobristStone] in
theorem zero_init {size : Size} {b : Board} (start : init size = .ok b) : b.groupLibertyCount 0 = 0 := by
  unfold init at start
  split_ifs at start
  obtain rfl := Except.ok.inj start
  rfl

/-- A board reached from an empty one. -/
theorem reachable_orderly {size : Size} {b : Board} (start : init size = .ok b) (ops : List Op)
    (admissible : (⟨b, []⟩ : Session).allAdmissible ops = true) (run : (⟨b, []⟩ : Session).run ops = some s) :
    s.board.Orderly := (sound_init start).run_orderly (zero_init start) ops admissible run

end Session
end KataGo.Python
