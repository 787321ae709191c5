import KataGo.History.Passes
import KataGo.History.RootTable

/-! The books of a history: the turn of the first ko hash, and the ko recapture blocks of the encore
with their hash. -/

namespace KataGo.Game
open KataGo.Lib

variable [Zobrist] [KoMarkZobrist]

/-- What a block contributes to the hash. -/
def koMark (blocked : Bool) (loc : Loc) : Hash128 :=
  if blocked then KoMarkZobrist.koMarkHash loc .black ^^^ KoMarkZobrist.koMarkHash loc .white else 0

/-- The XOR of the ko marks of the blocked points of a board. -/
def koBlockHash (locs : List Loc) (blocked : Loc → Bool) : Hash128 :=
  locs.toFinset.fold (· ^^^ ·) 0 fun loc => koMark (blocked loc) loc

namespace BoardHistory

variable {h h' : BoardHistory} {board board' : Board} {locs : List Loc} {loc moveLoc : Loc} {movePla : Player}
  {table : Option KoHashTable} {wasPassForKo preventEncore : Bool}

section Marks

omit [Zobrist]

/-- The blocks are on the board, and their hash is up to date. -/
structure Marks (h : BoardHistory) (locs : List Loc) : Prop where
  hash : h.koRecapBlockHash = koBlockHash locs h.koRecapBlocked
  points : ∀ loc, h.koRecapBlocked loc = true → loc ∈ locs

theorem marks_of_none (blocks : h.koRecapBlocked = fun _ => false) (hash : h.koRecapBlockHash = 0) : h.Marks locs := by
  refine ⟨?_, fun loc blocked => ?_⟩
  · rw [hash, koBlockHash, blocks]
    exact (XorFold.fold_zero (f := fun loc b => koMark b loc) (· ^^^ ·) Hash128.zero_xor fun _ _ => rfl).symm
  · rw [blocks] at blocked
    cases blocked

theorem setKoRecapBlocked_apply (h : BoardHistory) (loc : Loc) (b : Bool) :
    (h.setKoRecapBlocked loc b).koRecapBlocked = Function.update h.koRecapBlocked loc b := by
  unfold setKoRecapBlocked
  split_ifs with change
  · rfl
  · exact (Function.update_eq_self_iff.2 (not_not.1 change).symm).symm

/-- The hash follows a block that is set or lifted. -/
theorem Marks.set (marks : h.Marks locs) (point : loc ∈ locs) (b : Bool) : (h.setKoRecapBlocked loc b).Marks locs := by
  refine ⟨?_, fun q blocked => ?_⟩
  · rw [setKoRecapBlocked_apply]
    unfold setKoRecapBlocked
    split_ifs with change
    · have updated := @XorFold.fold_update _ _ _ _ (· ^^^ ·) _ _ locs.toFinset (0 : Hash128) (fun loc b => koMark b loc) h.koRecapBlocked
        loc Hash128.xor_xor_cancel_right (List.mem_toFinset.2 point) b
      refine Eq.trans ?_ updated.symm
      show h.koRecapBlockHash ^^^ _ = koBlockHash locs h.koRecapBlocked ^^^ _ ^^^ _
      rw [marks.hash]
      cases b with
      | true =>
        rw [Bool.eq_false_iff.2 change]
        simp [koMark]
      | false =>
        rw [(Bool.not_eq_false _).mp change]
        simp [koMark]
    · rw [Function.update_eq_self_iff.2 (not_not.1 change).symm]
      exact marks.hash
  · rw [setKoRecapBlocked_apply] at blocked
    by_cases here : q = loc
    · exact here ▸ point
    · rw [Function.update_of_ne here] at blocked
      exact marks.points q blocked

/-- No empty point keeps a block. -/
theorem Marks.unmarkEmpty (marks : h.Marks board.locs) : (h.unmarkEmpty board).Marks board.locs ∧
    ∀ q, (h.unmarkEmpty board).koRecapBlocked q = true → h.koRecapBlocked q = true ∧ board.colors q ≠ .empty := by
  have general : ∀ (l : List Loc) (h : BoardHistory), (∀ loc ∈ l, loc ∈ board.locs) → h.Marks board.locs →
      let h' := l.foldl (fun h loc =>
        if board.colors loc = .empty ∧ h.koRecapBlocked loc then h.setKoRecapBlocked loc false else h) h
      h'.Marks board.locs ∧ ∀ q, h'.koRecapBlocked q = true → h.koRecapBlocked q = true ∧ (q ∈ l → board.colors q ≠ .empty) := by
    intro l
    induction l with
    | nil => exact fun h _ marks => ⟨marks, fun q blocked => ⟨blocked, fun absent => (nomatch absent)⟩⟩
    | cons loc l ih =>
      intro h inside marks
      rw [List.foldl_cons]
      have later := fun x member => inside x (List.mem_cons_of_mem _ member)
      split_ifs with lifted
      · obtain ⟨marks', kept⟩ := ih _ later (marks.set (inside loc List.mem_cons_self) false)
        refine ⟨marks', fun q blocked => ?_⟩
        obtain ⟨before, stone⟩ := kept q blocked
        rw [setKoRecapBlocked_apply] at before
        have other : q ≠ loc := by
          rintro rfl
          rw [Function.update_self] at before
          cases before
        rw [Function.update_of_ne other] at before
        exact ⟨before, fun member => stone (List.mem_of_ne_of_mem other member)⟩
      · obtain ⟨marks', kept⟩ := ih h later marks
        refine ⟨marks', fun q blocked => ?_⟩
        obtain ⟨before, stone⟩ := kept q blocked
        refine ⟨before, fun member => ?_⟩
        rcases List.mem_cons.1 member with rfl | rest
        · exact fun blank => lifted ⟨blank, before⟩
        · exact stone rest
  obtain ⟨marks', kept⟩ := general board.locs h (fun _ => id) marks
  exact ⟨marks', fun q blocked => ⟨(kept q blocked).1, (kept q blocked).2 (marks.points q (kept q blocked).1)⟩⟩

end Marks

/-- The blocks are on stones of the encore, and their hash is up to date. -/
structure KoBlocks (h : BoardHistory) (board : Board) : Prop where
  hash : h.koRecapBlockHash = koBlockHash board.locs h.koRecapBlocked
  stones : ∀ loc, h.koRecapBlocked loc = true → h.encorePhase > 0 ∧ (board.colors loc).IsStone

omit [Zobrist] in
theorem KoBlocks.marks (blocks : h.KoBlocks board) (shape : board.Shape) : h.Marks board.locs :=
  ⟨blocks.hash, fun loc blocked => shape.stone_mem_locs (blocks.stones loc blocked).2⟩

omit [Zobrist] in
/-- The same blocks on a board with the same stones, in a phase that is not earlier. -/
theorem KoBlocks.congr (blocks : h.KoBlocks board) (locs : board'.locs = board.locs) (colors : board'.colors = board.colors)
    (blocked : h'.koRecapBlocked = h.koRecapBlocked) (hash : h'.koRecapBlockHash = h.koRecapBlockHash)
    (phase : h'.encorePhase = h.encorePhase) : h'.KoBlocks board' := by
  refine ⟨by rw [hash, blocked, locs]; exact blocks.hash, ?_⟩
  rw [blocked, phase, colors]
  exact blocks.stones

omit [Zobrist] in
theorem koBlocks_of_none (blocks : h.koRecapBlocked = fun _ => false) (hash : h.koRecapBlockHash = 0) : h.KoBlocks board :=
  ⟨(marks_of_none blocks hash).hash, fun loc blocked => by
    rw [blocks] at blocked
    cases blocked⟩

omit [Zobrist] in
theorem koBlocks_of_main (blocks : h.KoBlocks board) (main : h.encorePhase = 0) :
    h.koRecapBlocked = (fun _ => false) ∧ h.koRecapBlockHash = 0 := by
  have none : h.koRecapBlocked = fun _ => false := by
    funext loc
    refine Bool.eq_false_iff.2 fun blocked => ?_
    exact absurd main (Nat.pos_iff_ne_zero.1 (blocks.stones loc blocked).1)
  refine ⟨none, ?_⟩
  rw [blocks.hash, none]
  exact XorFold.fold_zero (f := fun loc b => koMark b loc) (· ^^^ ·) Hash128.zero_xor fun _ _ => rfl

section Moves

omit [Zobrist] [KoMarkZobrist] in
theorem passForKoLoc_blocked {blocked : Loc} (found : h.passForKoLoc board moveLoc movePla = some blocked) :
    h.koRecapBlocked blocked = true := by
  unfold passForKoLoc at found
  dsimp only at found
  split_ifs at found with encore here capture
  · cases found
    exact here.2
  · cases found
    exact capture.2.1

/-- The only part of a move that touches the blocks. -/
theorem KoBlocks.playOrPassForKo (blocks : h.KoBlocks board) (consistent : board.Consistent)
    (legal : h.isLegalTolerant board moveLoc movePla = true)
    (run : h.playOrPassForKo board moveLoc movePla = some (h', board', wasPassForKo)) :
    h'.KoBlocks board' ∧ h'.encorePhase = h.encorePhase := by
  obtain ⟨_, _, _, kos, main⟩ := playOrPassForKo_some run
  refine ⟨?_, by rw [kos]; rfl⟩
  by_cases phase : h.encorePhase = 0
  · obtain ⟨none, hash⟩ := koBlocks_of_main blocks phase
    rw [(main phase).1]
    exact koBlocks_of_none none hash
  have encore : h.encorePhase > 0 := Nat.pos_of_ne_zero phase
  unfold BoardHistory.playOrPassForKo at run
  split at run
  next lifted found =>
    cases run
    have marks := (blocks.marks consistent.shape).set
      (consistent.shape.stone_mem_locs (blocks.stones lifted (passForKoLoc_blocked found)).2) false
    refine ⟨marks.hash, fun loc blocked => ?_⟩
    rw [setKoRecapBlocked_apply] at blocked
    have before : h.koRecapBlocked loc = true := by
      by_cases here : loc = lifted
      · rw [here, Function.update_self] at blocked
        cases blocked
      · rwa [Function.update_of_ne here] at blocked
    obtain ⟨_, _, same⟩ := h.setKoRecapBlocked_eq lifted false
    rw [same]
    exact blocks.stones loc before
  next noKo =>
    obtain ⟨played, plays, run⟩ := Option.bind_eq_some_iff.mp run
    obtain ⟨consistent', point⟩ := played_of_legal consistent legal noKo plays
    have locs : played.locs = board.locs := Board.locs_congr (Board.playMoveAssumeLegal_dims plays)
    have marks : h.Marks played.locs := by
      rw [locs]
      exact blocks.marks consistent.shape
    rw [if_pos encore] at run
    -- Whatever is blocked, a captured or missing stone takes its block with it.
    have unmarked : ∀ (h₁ : BoardHistory) (ko : Loc), h₁.Marks played.locs → h₁.encorePhase = h.encorePhase →
        (h₁.unmarkEmpty { played with koLoc := ko }).KoBlocks { played with koLoc := ko } := by
      intro h₁ ko marks₁ phase₁
      obtain ⟨marks', kept⟩ := (marks₁ : h₁.Marks (Board.locs { played with koLoc := ko })).unmarkEmpty
      obtain ⟨_, _, same⟩ := h₁.unmarkEmpty_eq { played with koLoc := ko }
      refine ⟨marks'.hash, fun loc blocked => ⟨?_, ?_⟩⟩
      · rw [same]
        exact phase₁.symm ▸ encore
      · have inside : loc ∈ played.locs := marks'.points loc blocked
        have stone : played.colors loc ≠ .empty := (kept loc blocked).2
        have onBoard : played.colors loc ≠ .wall := fun wall => (consistent'.shape.wall_iff loc).1 wall inside
        show (played.colors loc).IsStone
        revert stone onBoard
        cases played.colors loc <;> decide
    unfold absorbKo at run
    split_ifs at run with ko
    · cases run
      have marks' := marks.set (locs ▸ point ko) true
      refine unmarked _ nullLoc ⟨marks'.hash, marks'.points⟩ ?_
      obtain ⟨_, _, same⟩ := h.setKoRecapBlocked_eq moveLoc true
      rw [same]
      rfl
    · cases run
      exact unmarked h board'.koLoc marks rfl

theorem KoBlocks.endPhase {spightlike : Bool} (blocks : h.KoBlocks board)
    (ends : h.endPhase board movePla spightlike preventEncore = some h') : h'.KoBlocks board := by
  rcases endPhase_some ends with rfl | ⟨score, area, -, rfl⟩ | ⟨-, -, rfl | rfl⟩
  · exact blocks
  · obtain ⟨_, _, _, scored, -⟩ := h.scoreGame_eq score
    rw [scored]
    exact blocks.congr rfl rfl rfl rfl rfl
  · exact blocks.congr rfl rfl rfl rfl rfl
  · exact koBlocks_of_none rfl rfl

/-- A tolerated move keeps the books. -/
theorem KoBlocks.move (blocks : h.KoBlocks board) (consistent : board.Consistent)
    (legal : h.isLegalTolerant board moveLoc movePla = true)
    (run : h.makeBoardMoveAssumeLegal board moveLoc movePla table preventEncore = some (h', board')) :
    h'.KoBlocks board' ∧ board'.Consistent := by
  obtain ⟨spightlike, wasPassForKo, illegal, h₁, h₂, h₃, h₄, h₅, passes, plays, bans, chills, ends, breaks⟩ :=
    makeBoardMoveAssumeLegal_some run
  obtain ⟨_, _, _, _, _, _, _, counted, -⟩ := updatePasses_some passes
  have before : h₁.koRecapBlocked = h.koRecapBlocked ∧ h₁.koRecapBlockHash = h.koRecapBlockHash ∧
      h₁.encorePhase = h.encorePhase ∧ h₁.isLegalTolerant board moveLoc movePla = h.isLegalTolerant board moveLoc movePla := by
    rw [counted]
    unfold opened
    split_ifs <;> exact ⟨rfl, rfl, rfl, rfl⟩
  have legal₁ := before.2.2.2.trans legal
  obtain ⟨blocks₂, -⟩ := (blocks.congr rfl rfl before.1 before.2.1 before.2.2.1).playOrPassForKo consistent legal₁ plays
  obtain ⟨_, banned⟩ := updateSuperKoBanned_some bans
  obtain ⟨_, chilled, -⟩ := chill_some chills
  obtain ⟨_, _, bonus⟩ := h₄.updateHandicapBonus_eq moveLoc movePla
  have blocks₄ : (h₄.updateHandicapBonus moveLoc movePla).KoBlocks board' := by
    rw [bonus, chilled, banned]
    exact blocks₂.congr rfl rfl rfl rfl rfl
  refine ⟨?_, playOrPassForKo_consistent consistent legal₁ plays⟩
  rcases breakLongCycles_some breaks with rfl | rfl
  · exact blocks₄.endPhase ends
  · exact (blocks₄.endPhase ends).congr rfl rfl rfl rfl rfl

omit [KoMarkZobrist] in
theorem clear_noBlocks {pla : Player} {r : Rules} {ePhase : Nat} (cleared : h.clear board pla r ePhase = some h') :
    h'.koRecapBlocked = (fun _ => false) ∧ h'.koRecapBlockHash = 0 := by
  obtain ⟨-, cleared⟩ := guard_bind_eq_some.mp cleared
  obtain ⟨-, cleared⟩ := guard_bind_eq_some.mp cleared
  cases cleared
  exact ⟨rfl, rfl⟩

end Moves

end BoardHistory

namespace Match

variable {g g' : Match} {ms : List HistoryMove}

theorem legalMoves_books (tracked : g.hist.Tracked) (blocks : g.hist.KoBlocks g.board) (consistent : g.board.Consistent)
    (run : g.legalMoves ms = some g') : g'.hist.Tracked ∧ g'.hist.KoBlocks g'.board := by
  induction ms generalizing g with
  | nil =>
    cases run
    exact ⟨tracked, blocks⟩
  | cons m ms ih =>
    obtain ⟨g₁, moved, rest⟩ := Option.bind_eq_some_iff.mp run
    obtain ⟨legal, moved⟩ := guard_bind_eq_some.mp moved
    obtain ⟨⟨hist, board⟩, made, moved⟩ := Option.bind_eq_some_iff.mp moved
    cases moved
    obtain ⟨blocks₁, consistent₁⟩ := blocks.move consistent legal made
    exact ih (tracked.move made).1 blocks₁ consistent₁ rest

/-- After any moves from any cleared history there is a ko hash for every turn since the first one that has one, the
hash of the blocks is that of the blocked points, and the blocks are on stones of the encore. -/
theorem legalMoves_bookkeeping (h h₀ : BoardHistory) (board : Board) (pla : Player) (r : Rules) (ePhase : Nat)
    (cleared : h.clear board pla r ePhase = some h₀) (consistent : board.Consistent) (ms : List HistoryMove) (g : Match)
    (reached : legalMoves ⟨h₀, board⟩ ms = some g) :
    g.hist.firstTurnIdxWithKoHistory + g.hist.koHashHistory.length = g.hist.moveHistory.length + 1 ∧
      g.hist.koRecapBlockHash = koBlockHash g.board.locs g.hist.koRecapBlocked ∧
      ∀ loc, g.hist.koRecapBlocked loc = true → g.hist.encorePhase > 0 ∧ (g.board.colors loc).IsStone := by
  obtain ⟨none, hash⟩ := BoardHistory.clear_noBlocks cleared
  obtain ⟨tracked, blocks⟩ := legalMoves_books (BoardHistory.clear_tracked cleared)
    (BoardHistory.koBlocks_of_none none hash) consistent reached
  exact ⟨tracked.turns, blocks.hash, blocks.stones⟩

omit [Zobrist] [KoMarkZobrist] in
/-- A stone and a pass in the first encore. -/
theorem legalMoves_bookkeeping_encore :
    letI := Zobrist.blank
    letI := KoMarkZobrist.blank
    ∃ board h₀ g, init 2 2 = some board ∧
      BoardHistory.new board .black { Rules.getTrompTaylorish with scoringRule := .territory } 1 = some h₀ ∧
      legalMoves ⟨h₀, board⟩ [⟨Location.getLoc 0 0 2, .black, none, false⟩, ⟨passLoc, .white, none, true⟩] = some g ∧
      g.hist.firstTurnIdxWithKoHistory = 2 ∧ g.hist.koHashHistory.length = 1 := by
  let _ := Zobrist.blank
  let _ := KoMarkZobrist.blank
  have whole : ((init 2 2).bind fun board =>
      (BoardHistory.new board .black { Rules.getTrompTaylorish with scoringRule := .territory } 1).bind fun h₀ =>
        (legalMoves ⟨h₀, board⟩ [⟨Location.getLoc 0 0 2, .black, none, false⟩, ⟨passLoc, .white, none, true⟩]).map fun g =>
          (g.hist.firstTurnIdxWithKoHistory, g.hist.moveHistory.length)) = some (2, 2) := by decide +kernel
  obtain ⟨board, made, whole⟩ := Option.bind_eq_some_iff.mp whole
  obtain ⟨h₀, begun, whole⟩ := Option.bind_eq_some_iff.mp whole
  obtain ⟨g, reached, counts⟩ := Option.map_eq_some_iff.mp whole
  obtain ⟨blank, -, cleared⟩ := Option.bind_eq_some_iff.mp
    (show (BoardHistory.blank .black { Rules.getTrompTaylorish with scoringRule := .territory }).bind (fun h =>
      h.clear board .black { Rules.getTrompTaylorish with scoringRule := .territory } 1) = some h₀ from begun)
  obtain ⟨b₀, start, consistent⟩ := Board.init_consistent 2 2 (by decide) (by decide)
  rw [made] at start
  obtain rfl := Option.some.inj start
  obtain ⟨turns, -, -⟩ := legalMoves_bookkeeping blank h₀ board .black _ 1 cleared consistent _ g reached
  obtain ⟨first, moves⟩ := Prod.mk.inj counts
  exact ⟨board, h₀, g, made, begun, reached, first, by omega⟩

end Match
end KataGo.Game
