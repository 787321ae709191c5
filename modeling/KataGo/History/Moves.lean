import KataGo.History.KoTable
import KataGo.Game.HashAfterMove

/-! How a history changes: `clear`, the scores and `makeBoardMoveAssumeLegal` of
`cpp/game/boardhistory.cpp`. The long function is cut where its comments cut it. -/

namespace KataGo.Game
open KataGo.Lib

namespace BoardHistory

variable [Zobrist] [KoMarkZobrist]

section Repetition

variable (h : BoardHistory)

/-- A table that starts at the same turn stands for the oldest hashes. -/
def koHashOccursInHistory (koHash : Hash128) (rootKoHashTable : Option KoHashTable) : Option Bool :=
  match rootKoHashTable.filter fun table => h.firstTurnIdxWithKoHistory = table.firstTurnIdxWithKoHistory with
  | some table => do
      guard (h.firstTurnIdxWithKoHistory + h.koHashHistory.length = h.moveHistory.length + 1)
      guard (table.size ≤ h.koHashHistory.length)
      return table.containsHash koHash || (h.koHashHistory.drop table.size).contains koHash
  | none => some (h.koHashHistory.contains koHash)

def numberOfKoHashOccurrencesInHistory (koHash : Hash128) (rootKoHashTable : Option KoHashTable) : Option Nat :=
  match rootKoHashTable.filter fun table => h.firstTurnIdxWithKoHistory = table.firstTurnIdxWithKoHistory with
  | some table => do
      guard (h.firstTurnIdxWithKoHistory + h.koHashHistory.length = h.moveHistory.length + 1)
      guard (table.size ≤ h.koHashHistory.length)
      return table.numberOfOccurrencesOfHash koHash + (h.koHashHistory.drop table.size).count koHash
  | none => some (h.koHashHistory.count koHash)

end Repetition

section Scores

/-- One point of an area, for White and against Black. -/
def pointScore : Color → Int
  | .white => 1
  | .black => -1
  | _ => 0

def countAreaScoreWhiteMinusBlack (h : BoardHistory) (board : Board) : Option (Int × (Loc → Color)) := do
  let (score, area) ← match h.rules.taxRule with
    | .none => do
        let area ← board.calculateArea true true true h.rules.multiStoneSuicideLegal
        pure ((0 : Int), area)
    | .seki => do
        let (area, _) ← board.calculateIndependentLifeArea false true h.rules.multiStoneSuicideLegal
        pure (0, area)
    | .all => do
        let (area, whiteMinusBlackIndependentLifeRegionCount) ←
          board.calculateIndependentLifeArea false true h.rules.multiStoneSuicideLegal
        pure (-2 * whiteMinusBlackIndependentLifeRegionCount, area)
  return (board.locs.foldl (fun score loc => score + pointScore (area loc)) score, area)

/-- The owner of a point that is not in the area: a stone scores for its owner, in the second encore
only where it stood when the encore began. -/
def stoneOwner (h : BoardHistory) (board : Board) (loc : Loc) : Color :=
  if (board.colors loc).IsStone ∧ (h.encorePhase < 2 ∨ h.secondEncoreStartColors loc = board.colors loc) then
    board.colors loc
  else .empty

def countTerritoryAreaScoreWhiteMinusBlack (h : BoardHistory) (board : Board) : Option (Int × (Loc → Color)) := do
  let (area, whiteMinusBlackIndependentLifeRegionCount) ← board.calculateIndependentLifeArea
    (decide (h.rules.taxRule = .none)) false h.rules.multiStoneSuicideLegal
  let (score, area) := board.locs.foldl (fun (score, area) loc =>
    if (area loc).IsStone then (score + pointScore (area loc), area)
    else
      let owner := h.stoneOwner board loc
      (score + pointScore owner, if owner = .empty then area else Function.update area loc owner)) ((0 : Int), area)
  return (if h.rules.taxRule = .all then score - 2 * whiteMinusBlackIndependentLifeRegionCount else score, area)

def setFinalScoreAndWinner (h : BoardHistory) (score : ℚ) : BoardHistory :=
  { h with
    finalWhiteMinusBlackScore := score
    winner := if score > 0 then .white else if score < 0 then .black else .empty }

/-- The button goes to the player to move if nobody has taken it. -/
def takeLeftButton (h : BoardHistory) : BoardHistory :=
  if h.hasButton then
    { h with
      hasButton := false
      whiteBonusScore := h.whiteBonusScore + (if h.presumedNextMovePla = .white then 1 / 2 else -1 / 2) }
  else h

def boardScore (h : BoardHistory) (board : Board) : Option (Int × (Loc → Color)) :=
  match h.rules.scoringRule with
  | .area => h.countAreaScoreWhiteMinusBlack board
  | .territory => h.countTerritoryAreaScoreWhiteMinusBlack board

/-- The end of the game with a score. -/
def scoreGame (h : BoardHistory) (boardScore : Int) : BoardHistory :=
  let h := h.takeLeftButton
  { h.setFinalScoreAndWinner (boardScore + h.whiteBonusScore + h.whiteHandicapBonusScore + h.rules.komi) with
    isScored := true
    isNoResult := false
    isResignation := false
    isGameFinished := true
    isPastNormalPhaseEnd := false }

def endAndScoreGameNow (h : BoardHistory) (board : Board) : Option BoardHistory := do
  let (boardScore, _) ← h.boardScore board
  return h.scoreGame boardScore

end Scores

section Stages

variable (h : BoardHistory) (board : Board) (moveLoc : Loc) (movePla : Player)

/-- Include at most the latest move, when the game or its phase has been ended. -/
def capValidTurns : BoardHistory :=
  { h with
    numApproxValidTurnsThisPhase := min h.numApproxValidTurnsThisPhase 1
    numConsecValidTurnsThisGame := min h.numConsecValidTurnsThisGame 1 }

/-- A move after the game was ended just clears its result. -/
def clearResult : BoardHistory :=
  { h with
    isGameFinished := false
    isPastNormalPhaseEnd := false
    winner := .empty
    finalWhiteMinusBlackScore := 0
    isScored := false
    isNoResult := false
    isResignation := false }

/-- The turn that results from the next move is the first one with ko hashes. -/
def clearKoHashHistory : BoardHistory :=
  { h with koHashHistory := [], firstTurnIdxWithKoHistory := h.moveHistory.length + 1 }

def takeButton : BoardHistory :=
  { h.clearKoHashHistory with
    hasButton := false
    whiteBonusScore := h.whiteBonusScore + (if movePla = .white then 1 / 2 else -1 / 2)
    consecutiveEndingPasses := 0
    hashesBeforeBlackPass := []
    hashesBeforeWhitePass := [] }

/-- A pass that takes no button, and whether it ends the phase because its player has passed in the
same situation before. -/
def countPass : Option (BoardHistory × Bool) :=
  let h := if h.phaseHasSpightlikeEndingAndPassHistoryClearing then h.clearKoHashHistory else h
  let koHashBeforeThisMove := getKoHash h.rules board movePla h.encorePhase h.koRecapBlockHash
  let h := { h with consecutiveEndingPasses := h.newConsecutiveEndingPassesAfterPass }
  let isSpightlikeEndingPass := h.wouldBeSpightlikeEndingPass movePla koHashBeforeThisMove
  match movePla with
  | .black => some ({ h with hashesBeforeBlackPass := h.hashesBeforeBlackPass ++ [koHashBeforeThisMove] }, isSpightlikeEndingPass)
  | .white => some ({ h with hashesBeforeWhitePass := h.hashesBeforeWhitePass ++ [koHashBeforeThisMove] }, isSpightlikeEndingPass)
  | .empty | .wall => none

def updatePasses : Option (BoardHistory × Bool) :=
  if moveLoc ≠ passLoc then some ({ h with consecutiveEndingPasses := 0 }, false)
  else if h.hasButton then do
    guard (h.encorePhase = 0 ∧ h.rules.hasButton)
    return (h.takeButton movePla, false)
  else h.countPass board movePla

def setKoRecapBlocked (loc : Loc) (b : Bool) : BoardHistory :=
  if h.koRecapBlocked loc ≠ b then
    { h with
      koRecapBlocked := Function.update h.koRecapBlocked loc b
      koRecapBlockHash := h.koRecapBlockHash ^^^ (KoMarkZobrist.koMarkHash loc .black ^^^ KoMarkZobrist.koMarkHash loc .white) }
  else h

/-- The block that a pass for ko lifts. -/
def passForKoLoc : Option Loc :=
  if h.encorePhase > 0 ∧ moveLoc ≠ passLoc then
    if board.colors moveLoc = getOpp movePla ∧ h.koRecapBlocked moveLoc then some moveLoc
    else
      let koCaptureLoc := board.getKoCaptureLoc moveLoc movePla
      if koCaptureLoc ≠ nullLoc ∧ h.koRecapBlocked koCaptureLoc ∧ board.colors koCaptureLoc = getOpp movePla then
        some koCaptureLoc
      else none
  else none

/-- A ko capture in the encore: the simple ko location is absorbed into the blocks. -/
def absorbKo (posHashBeforeMove : Hash128) : BoardHistory × Board :=
  if board.koLoc ≠ nullLoc then
    ({ h.setKoRecapBlocked moveLoc true with koCapturesInEncore := h.koCapturesInEncore ++ [⟨posHashBeforeMove, moveLoc, movePla⟩] },
      { board with koLoc := nullLoc })
  else (h, board)

def unmarkEmpty : BoardHistory :=
  board.locs.foldl (fun h loc =>
    if board.colors loc = .empty ∧ h.koRecapBlocked loc then h.setKoRecapBlocked loc false else h) h

/-- A pass for ko, which leaves the stones alone, or a regular move; and which of the two it was. -/
def playOrPassForKo : Option (BoardHistory × Board × Bool) :=
  match h.passForKoLoc board moveLoc movePla with
  | some blocked => some (h.setKoRecapBlocked blocked false, { board with koLoc := nullLoc }, true)
  | none => do
      let played ← board.playMoveAssumeLegal moveLoc movePla
      if h.encorePhase > 0 then
        let (h, board) := h.absorbKo played moveLoc movePla board.posHash
        return (h.unmarkEmpty board, board, false)
      else return (h, played, false)

def recordMove (preventEncore moveIsIllegal : Bool) : BoardHistory :=
  let currentRecentBoardIdx := (h.currentRecentBoardIdx + 1) % numRecentBoards
  { h with
    currentRecentBoardIdx
    recentBoards := Function.update h.recentBoards currentRecentBoardIdx board
    koHashHistory := h.koHashHistory ++ [getKoHash h.rules board (getOpp movePla) h.encorePhase h.koRecapBlockHash]
    moveHistory := h.moveHistory ++ [⟨moveLoc, movePla⟩]
    preventEncoreHistory := h.preventEncoreHistory ++ [preventEncore]
    numTurnsThisPhase := h.numTurnsThisPhase + 1
    numApproxValidTurnsThisPhase := h.numApproxValidTurnsThisPhase + 1
    numConsecValidTurnsThisGame := if moveIsIllegal then 0 else h.numConsecValidTurnsThisGame + 1
    presumedNextMovePla := getOpp movePla
    wasEverOccupiedOrPlayed :=
      if moveLoc ≠ passLoc then Function.update h.wasEverOccupiedOrPlayed moveLoc true else h.wasEverOccupiedOrPlayed }

/-- Whether the next player may not play at a point, because the position has been there before.
A point that was never played at is only looked at if playing there is a suicide. -/
def repeatsAt (nextPla : Player) (rootKoHashTable : Option KoHashTable) (loc : Loc) : Option Bool :=
  if board.colors loc ≠ .empty then some false
  else if !h.wasEverOccupiedOrPlayed loc && !board.isSuicide loc nextPla then some false
  else if board.isIllegalSuicide loc nextPla h.rules.multiStoneSuicideLegal || decide (loc = board.koLoc) then some false
  else do
    let posHashAfterMove ← board.getPosHashAfterMove loc nextPla
    h.koHashOccursInHistory (getKoHashAfterMoveNonEncore h.rules posHashAfterMove (getOpp nextPla)) rootKoHashTable

def banRepetitions (nextPla : Player) (rootKoHashTable : Option KoHashTable) : Option (Loc → Bool) :=
  board.locs.foldlM (fun superKoBanned loc => do
    let banned ← h.repeatsAt board nextPla rootKoHashTable loc
    return Function.update superKoBanned loc banned) h.superKoBanned

/-- In the encore a player captures each ko once in a given position. -/
def banKoCaptures (nextPla : Player) : Loc → Bool :=
  h.koCapturesInEncore.foldl (fun superKoBanned ekc =>
    if ekc.posHashBeforeMove = board.posHash ∧ ekc.movePla = nextPla then Function.update superKoBanned ekc.moveLoc true
    else superKoBanned) fun _ => false

def updateSuperKoBanned (nextPla : Player) (rootKoHashTable : Option KoHashTable) : Option BoardHistory :=
  if h.encorePhase = 0 ∧ h.rules.koRule ≠ .simple then do
    guard (h.koRecapBlockHash = 0)
    let superKoBanned ← h.banRepetitions board nextPla rootKoHashTable
    return { h with superKoBanned }
  else if h.encorePhase > 0 then some { h with superKoBanned := h.banKoCaptures board nextPla }
  else some h

/-- Territory scoring takes a point for every move of the main phase and the first encore. -/
def chill (wasPassForKo : Bool) : Option BoardHistory :=
  if h.rules.scoringRule = .territory ∧ h.encorePhase ≤ 1 ∧ moveLoc ≠ passLoc ∧ ¬ wasPassForKo then
    match movePla with
    | .black => some { h with whiteBonusScore := h.whiteBonusScore + 1 }
    | .white => some { h with whiteBonusScore := h.whiteBonusScore - 1 }
    | .empty | .wall => none
  else some h

def updateHandicapBonus : BoardHistory :=
  let h := if movePla = .white ∧ moveLoc ≠ passLoc then { h with whiteHasMoved := true } else h
  if h.assumeMultipleStartingBlackMovesAreHandicap ∧ ¬ h.whiteHasMoved ∧ movePla = .black ∧
      h.rules.whiteHandicapBonusRule ≠ .zero then
    { h with whiteHandicapBonusScore := h.computeWhiteHandicapBonus }
  else h

def enterEncore : BoardHistory :=
  { h with
    encorePhase := h.encorePhase + 1
    numTurnsThisPhase := 0
    numApproxValidTurnsThisPhase := 0
    secondEncoreStartColors := if h.encorePhase + 1 = 2 then board.colors else h.secondEncoreStartColors
    superKoBanned := fun _ => false
    consecutiveEndingPasses := 0
    hashesBeforeBlackPass := []
    hashesBeforeWhitePass := []
    koRecapBlocked := fun _ => false
    koRecapBlockHash := 0
    koCapturesInEncore := []
    koHashHistory := [getKoHash h.rules board (getOpp movePla) (h.encorePhase + 1) 0]
    firstTurnIdxWithKoHistory := h.moveHistory.length }

def endPhase (isSpightlikeEndingPass preventEncore : Bool) : Option BoardHistory :=
  if h.consecutiveEndingPasses ≥ 2 ∨ isSpightlikeEndingPass then
    match h.rules.scoringRule with
    | .area => do
        guard (h.encorePhase = 0)
        h.endAndScoreGameNow board
    | .territory =>
        if h.encorePhase ≥ 2 then h.endAndScoreGameNow board
        else if preventEncore then some { h.capValidTurns with isPastNormalPhaseEnd := true }
        else some (h.enterEncore board movePla)
  else some h

/-- A position that is there for the third time makes the game a no-result. -/
def breakLongCycles (rootKoHashTable : Option KoHashTable) : Option BoardHistory :=
  if moveLoc ≠ passLoc ∧ (h.encorePhase > 0 ∨ h.rules.koRule = .simple) then do
    let koHash ← h.koHashHistory.getLast?
    let occurrences ← h.numberOfKoHashOccurrencesInHistory koHash rootKoHashTable
    return if occurrences ≥ 3 then { h with isNoResult := true, isGameFinished := true } else h
  else some h

end Stages

def makeBoardMoveAssumeLegal (h : BoardHistory) (board : Board) (moveLoc : Loc) (movePla : Player)
    (rootKoHashTable : Option KoHashTable) (preventEncore : Bool) : Option (BoardHistory × Board) := do
  let h := if h.isGameFinished || h.isPastNormalPhaseEnd then h.capValidTurns else h
  let moveIsIllegal := !h.isLegal board moveLoc movePla
  let (h, isSpightlikeEndingPass) ← h.clearResult.updatePasses board moveLoc movePla
  let (h, board, wasPassForKo) ← h.playOrPassForKo board moveLoc movePla
  let h := h.recordMove board moveLoc movePla preventEncore moveIsIllegal
  let h ← h.updateSuperKoBanned board (getOpp movePla) rootKoHashTable
  let h ← h.chill moveLoc movePla wasPassForKo
  let h := h.updateHandicapBonus moveLoc movePla
  let h ← h.endPhase board movePla isSpightlikeEndingPass preventEncore
  let h ← h.breakLongCycles moveLoc rootKoHashTable
  return (h, board)

end BoardHistory
end KataGo.Game
