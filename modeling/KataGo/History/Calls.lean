import KataGo.History.Moves

/-! The calls on a history and its board, and sequences of them. -/

namespace KataGo.Game
open KataGo.Lib

namespace BoardHistory

variable [Zobrist] [KoMarkZobrist]

/-- Territory scoring takes a point for every stone, seen or captured. -/
def chillStart (rules : Rules) (board : Board) : ℚ :=
  if rules.scoringRule = .territory then
    board.locs.foldl (fun (bonus : ℚ) loc => bonus - pointScore (board.colors loc)) 0 -
      (board.numWhiteCaptures - board.numBlackCaptures : Int)
  else 0

/-- The button is looked for before the encore phase is set. -/
def clear (h : BoardHistory) (board : Board) (pla : Player) (r : Rules) (ePhase : Nat) : Option BoardHistory := do
  guard (ePhase ≤ 2)
  guard (ePhase > 0 → r.scoringRule = .territory)
  let h :=
    { h with
      rules := r
      moveHistory := []
      preventEncoreHistory := []
      koHashHistory := [getKoHash r board pla ePhase 0]
      firstTurnIdxWithKoHistory := 0
      initialBoard := board
      initialPla := pla
      initialEncorePhase := ePhase
      initialTurnNumber := 0
      assumeMultipleStartingBlackMovesAreHandicap := false
      whiteHasMoved := false
      overrideNumHandicapStones := -1
      recentBoards := fun _ => board
      currentRecentBoardIdx := 0
      presumedNextMovePla := pla
      wasEverOccupiedOrPlayed := board.locs.foldl (fun occupied loc =>
        Function.update occupied loc (decide (board.colors loc ≠ Color.empty))) h.wasEverOccupiedOrPlayed
      superKoBanned := fun _ => false
      consecutiveEndingPasses := 0
      hashesBeforeBlackPass := []
      hashesBeforeWhitePass := []
      encorePhase := ePhase
      numTurnsThisPhase := 0
      numApproxValidTurnsThisPhase := 0
      numConsecValidTurnsThisGame := 0
      koRecapBlocked := fun _ => false
      koRecapBlockHash := 0
      koCapturesInEncore := []
      secondEncoreStartColors := if ePhase = 2 then board.colors else fun _ => Color.empty
      whiteBonusScore := chillStart r board
      whiteHandicapBonusScore := 0
      hasButton := r.hasButton && decide (h.encorePhase = 0)
      isPastNormalPhaseEnd := false
      isGameFinished := false
      winner := .empty
      finalWhiteMinusBlackScore := 0
      isScored := false
      isNoResult := false
      isResignation := false }
  return { h with whiteHandicapBonusScore := h.computeWhiteHandicapBonus }

/-- The fields before the constructor calls `clear`. -/
def blank (pla : Player) (r : Rules) : Option BoardHistory := do
  let board ← init maxLen maxLen
  return {
    rules := r
    moveHistory := []
    preventEncoreHistory := []
    koHashHistory := []
    firstTurnIdxWithKoHistory := 0
    initialBoard := board
    initialPla := .empty
    initialEncorePhase := 0
    initialTurnNumber := 0
    assumeMultipleStartingBlackMovesAreHandicap := false
    whiteHasMoved := false
    overrideNumHandicapStones := -1
    recentBoards := fun _ => board
    currentRecentBoardIdx := 0
    presumedNextMovePla := pla
    wasEverOccupiedOrPlayed := fun _ => false
    superKoBanned := fun _ => false
    consecutiveEndingPasses := 0
    hashesBeforeBlackPass := []
    hashesBeforeWhitePass := []
    encorePhase := 0
    numTurnsThisPhase := 0
    numApproxValidTurnsThisPhase := 0
    numConsecValidTurnsThisGame := 0
    koRecapBlocked := fun _ => false
    koRecapBlockHash := 0
    koCapturesInEncore := []
    secondEncoreStartColors := fun _ => .empty
    whiteBonusScore := 0
    whiteHandicapBonusScore := 0
    hasButton := false
    isPastNormalPhaseEnd := false
    isGameFinished := false
    winner := .empty
    finalWhiteMinusBlackScore := 0
    isScored := false
    isNoResult := false
    isResignation := false }

/-- The constructor with a board. -/
def new (board : Board) (pla : Player) (r : Rules) (ePhase : Nat) : Option BoardHistory := do
  let h ← blank pla r
  h.clear board pla r ePhase

def setKomi (h : BoardHistory) (newKomi : ℚ) : BoardHistory :=
  let oldKomi := h.rules.komi
  let h := { h with rules := { h.rules with komi := newKomi } }
  if h.isGameFinished && h.isScored then h.setFinalScoreAndWinner (h.finalWhiteMinusBlackScore - oldKomi + newKomi)
  else h

def setInitialTurnNumber (h : BoardHistory) (n : Int) : BoardHistory := { h with initialTurnNumber := n }

def setAssumeMultipleStartingBlackMovesAreHandicap (h : BoardHistory) (b : Bool) : BoardHistory :=
  let h := { h with assumeMultipleStartingBlackMovesAreHandicap := b }
  { h with whiteHandicapBonusScore := h.computeWhiteHandicapBonus }

def setOverrideNumHandicapStones (h : BoardHistory) (n : Int) : BoardHistory :=
  let h := { h with overrideNumHandicapStones := n }
  { h with whiteHandicapBonusScore := h.computeWhiteHandicapBonus }

/-- The score when every point is pass-alive, which a group tax makes the code count again. -/
def endGameIfAllPassAlive (h : BoardHistory) (board : Board) : Option BoardHistory := do
  let area ← board.calculateArea false false false h.rules.multiStoneSuicideLegal
  if board.locs.all fun loc => (area loc).IsStone then
    if h.rules.taxRule = .all then h.endAndScoreGameNow board
    else return h.scoreGame (board.locs.foldl (fun score loc => score + pointScore (area loc)) 0)
  else return h

def setWinnerByResignation (h : BoardHistory) (pla : Player) : BoardHistory :=
  { h with
    isGameFinished := true
    isPastNormalPhaseEnd := false
    isScored := false
    isNoResult := false
    isResignation := true
    winner := pla
    finalWhiteMinusBlackScore := 0 }

/-- The tolerant moves: either side may move, and suicide is tolerated. A move that is refused leaves
the history and the board alone. -/
def makeBoardMoveTolerant (h : BoardHistory) (board : Board) (moveLoc : Loc) (movePla : Player) :
    Option (BoardHistory × Board × Bool) :=
  if movePla ≠ .black ∧ movePla ≠ .white then some (h, board, false)
  else if !h.isPassForKo board moveLoc movePla && !board.isLegalIgnoringKo moveLoc movePla true then some (h, board, false)
  else do
    let (h, board) ← h.makeBoardMoveAssumeLegal board moveLoc movePla none false
    return (h, board, true)

end BoardHistory

/-- A history and the board that its moves are made on. -/
structure Match where
  hist : BoardHistory
  board : Board

/-- A call on a history. -/
inductive Call where
  | clear (board : Board) (pla : Player) (r : Rules) (ePhase : Nat)
  | makeBoardMoveAssumeLegal (moveLoc : Loc) (movePla : Player) (preventEncore : Bool)
  | makeBoardMoveTolerant (moveLoc : Loc) (movePla : Player)
  | setKomi (newKomi : ℚ)
  | setInitialTurnNumber (n : Int)
  | setAssumeMultipleStartingBlackMovesAreHandicap (b : Bool)
  | setOverrideNumHandicapStones (n : Int)
  | endGameIfAllPassAlive
  | endAndScoreGameNow
  | setWinnerByResignation (pla : Player)

namespace Match

variable [Zobrist] [KoMarkZobrist]

/-- The constructor of a history. -/
def new (board : Board) (pla : Player) (r : Rules) (ePhase : Nat) : Option Match := do
  let hist ← BoardHistory.new board pla r ePhase
  return ⟨hist, board⟩

def move (g : Match) (rootKoHashTable : Option KoHashTable) (moveLoc : Loc) (movePla : Player) (preventEncore : Bool) :
    Option Match := do
  let (hist, board) ← g.hist.makeBoardMoveAssumeLegal g.board moveLoc movePla rootKoHashTable preventEncore
  return ⟨hist, board⟩

def call (g : Match) : Call → Option Match
  | .clear board pla r ePhase => do
      let hist ← g.hist.clear board pla r ePhase
      return ⟨hist, board⟩
  | .makeBoardMoveAssumeLegal moveLoc movePla preventEncore => g.move none moveLoc movePla preventEncore
  | .makeBoardMoveTolerant moveLoc movePla => do
      let (hist, board, _) ← g.hist.makeBoardMoveTolerant g.board moveLoc movePla
      return ⟨hist, board⟩
  | .setKomi newKomi => some ⟨g.hist.setKomi newKomi, g.board⟩
  | .setInitialTurnNumber n => some ⟨g.hist.setInitialTurnNumber n, g.board⟩
  | .setAssumeMultipleStartingBlackMovesAreHandicap b =>
      some ⟨g.hist.setAssumeMultipleStartingBlackMovesAreHandicap b, g.board⟩
  | .setOverrideNumHandicapStones n => some ⟨g.hist.setOverrideNumHandicapStones n, g.board⟩
  | .endGameIfAllPassAlive => do
      let hist ← g.hist.endGameIfAllPassAlive g.board
      return ⟨hist, g.board⟩
  | .endAndScoreGameNow => do
      let hist ← g.hist.endAndScoreGameNow g.board
      return ⟨hist, g.board⟩
  | .setWinnerByResignation pla => some ⟨g.hist.setWinnerByResignation pla, g.board⟩

def run (g : Match) (calls : List Call) : Option Match := calls.foldlM call g

end Match
end KataGo.Game
