import KataGo.Game.Classifiers
import KataGo.Game.IndependentLife
import Mathlib.Data.Rat.Defs
import Mathlib.Algebra.Order.Ring.Rat

/-! The rules of `cpp/game/rules.h` and the history of `cpp/game/boardhistory.h`: its fields, its
scores and the queries that only read them. Scores are integers and half-integers in the
source's `float`, and rationals here. -/

namespace KataGo.Game
open KataGo.Lib

inductive KoRule where
  | simple
  | positional
  | situational
  | spight
  deriving DecidableEq, Repr

inductive ScoringRule where
  | area
  | territory
  deriving DecidableEq, Repr

inductive TaxRule where
  | none
  | seki
  | all
  deriving DecidableEq, Repr

inductive WhiteHandicapBonusRule where
  | zero
  | n
  | nMinusOne
  deriving DecidableEq, Repr

structure Rules where
  koRule : KoRule
  scoringRule : ScoringRule
  taxRule : TaxRule
  multiStoneSuicideLegal : Bool
  hasButton : Bool
  whiteHandicapBonusRule : WhiteHandicapBonusRule
  friendlyPassOk : Bool
  komi : ℚ
  deriving DecidableEq

def Rules.getTrompTaylorish : Rules where
  koRule := .positional
  scoringRule := .area
  taxRule := .none
  multiStoneSuicideLegal := true
  hasButton := false
  whiteHandicapBonusRule := .zero
  friendlyPassOk := false
  komi := 15 / 2

structure EncoreKoCapture where
  posHashBeforeMove : Hash128
  moveLoc : Loc
  movePla : Player
  deriving DecidableEq, Repr

/-- `NUM_RECENT_BOARDS` -/
def numRecentBoards : Nat := 6

structure BoardHistory where
  rules : Rules
  moveHistory : List Move
  preventEncoreHistory : List Bool
  koHashHistory : List Hash128
  firstTurnIdxWithKoHistory : Nat
  initialBoard : Board
  initialPla : Player
  initialEncorePhase : Nat
  initialTurnNumber : Int
  assumeMultipleStartingBlackMovesAreHandicap : Bool
  whiteHasMoved : Bool
  overrideNumHandicapStones : Int
  recentBoards : Nat → Board
  currentRecentBoardIdx : Nat
  presumedNextMovePla : Player
  wasEverOccupiedOrPlayed : Loc → Bool
  superKoBanned : Loc → Bool
  consecutiveEndingPasses : Nat
  hashesBeforeBlackPass : List Hash128
  hashesBeforeWhitePass : List Hash128
  encorePhase : Nat
  numTurnsThisPhase : Nat
  numApproxValidTurnsThisPhase : Nat
  numConsecValidTurnsThisGame : Nat
  koRecapBlocked : Loc → Bool
  koRecapBlockHash : Hash128
  koCapturesInEncore : List EncoreKoCapture
  secondEncoreStartColors : Loc → Color
  whiteBonusScore : ℚ
  whiteHandicapBonusScore : ℚ
  hasButton : Bool
  isPastNormalPhaseEnd : Bool
  isGameFinished : Bool
  winner : Player
  finalWhiteMinusBlackScore : ℚ
  isScored : Bool
  isNoResult : Bool
  isResignation : Bool

/-- `ZOBRIST_KO_MARK_HASH`, filled by `initHash` as the tables of the board are. -/
class KoMarkZobrist where
  koMarkHash : Loc → Color → Hash128

@[reducible] def KoMarkZobrist.blank : KoMarkZobrist := ⟨fun _ _ => 0⟩

variable [Zobrist] [KoMarkZobrist]

/-- The hash that tells whether a position is the same under the ko rule. -/
def getKoHash (rules : Rules) (board : Board) (pla : Player) (encorePhase : Nat) (koRecapBlockHash : Hash128) : Hash128 :=
  if rules.koRule = .situational ∨ rules.koRule = .simple ∨ encorePhase > 0 then
    board.posHash ^^^ Zobrist.playerHash pla ^^^ koRecapBlockHash
  else board.posHash ^^^ koRecapBlockHash

def getKoHashAfterMoveNonEncore (rules : Rules) (posHashAfterMove : Hash128) (pla : Player) : Hash128 :=
  if rules.koRule = .situational ∨ rules.koRule = .simple then posHashAfterMove ^^^ Zobrist.playerHash pla
  else posHashAfterMove

/-- `numHandicapStonesOnBoardHelper` -/
def numHandicapStonesOnBoardHelper (board : Board) (blackNonPassTurnsToStart : Nat) : Nat :=
  if board.locs.countP (fun loc => board.colors loc = .white) ≠ 0 then 0
  else
    let blackTurnAdvantage := board.locs.countP (fun loc => board.colors loc = .black) + blackNonPassTurnsToStart
    if blackTurnAdvantage ≤ 1 then 0 else blackTurnAdvantage

/-- The black moves at the start of a game, on top of `n` before. Two moves in a row that are not
Black's make it no handicap at all, and a single pass between the moves does not count. -/
def blackNonPassTurnsToStart (n : Nat) : List Move → Nat
  | [] => n
  | m :: rest =>
      if m.pla ≠ .black then
        if (rest.head?.any fun next => next.pla ≠ .black) then 0
        else if m.loc = passLoc then blackNonPassTurnsToStart n rest
        else n
      else blackNonPassTurnsToStart (if m.loc ≠ passLoc ∧ m.loc ≠ nullLoc then n + 1 else n) rest

namespace BoardHistory

section Queries

variable (h : BoardHistory)

def computeNumHandicapStones : Int :=
  if h.overrideNumHandicapStones ≥ 0 then h.overrideNumHandicapStones
  else numHandicapStonesOnBoardHelper h.initialBoard
    (if h.assumeMultipleStartingBlackMovesAreHandicap then blackNonPassTurnsToStart 0 h.moveHistory else 0)

def computeWhiteHandicapBonus : Int :=
  match h.rules.whiteHandicapBonusRule with
  | .zero => 0
  | .n => h.computeNumHandicapStones
  | .nMinusOne => if h.computeNumHandicapStones > 1 then h.computeNumHandicapStones - 1 else 0

def newConsecutiveEndingPassesAfterPass : Nat :=
  if h.encorePhase > 0 then h.consecutiveEndingPasses + 1
  else match h.rules.koRule with
    | .simple | .positional | .situational => h.consecutiveEndingPasses + 1
    | .spight => 0

def phaseHasSpightlikeEndingAndPassHistoryClearing : Bool :=
  decide (h.encorePhase > 0) || decide (h.rules.koRule = .simple) || decide (h.rules.koRule = .spight)

def wouldBeSpightlikeEndingPass (movePla : Player) (koHashBeforeMove : Hash128) : Bool :=
  h.phaseHasSpightlikeEndingAndPassHistoryClearing &&
    ((decide (movePla = .black) && h.hashesBeforeBlackPass.contains koHashBeforeMove) ||
      (decide (movePla = .white) && h.hashesBeforeWhitePass.contains koHashBeforeMove))

def passWouldEndPhase (board : Board) (movePla : Player) : Bool :=
  decide (h.newConsecutiveEndingPassesAfterPass ≥ 2) ||
    h.wouldBeSpightlikeEndingPass movePla (getKoHash h.rules board movePla h.encorePhase h.koRecapBlockHash)

def passWouldEndGame (board : Board) (movePla : Player) : Bool :=
  h.passWouldEndPhase board movePla &&
    (decide (h.rules.scoringRule = .area) || (decide (h.rules.scoringRule = .territory) && decide (h.encorePhase ≥ 2)))

def isPassForKo (board : Board) (moveLoc : Loc) (movePla : Player) : Bool :=
  if h.encorePhase > 0 ∧ moveLoc ≥ 0 ∧ moveLoc < maxArrSize ∧ moveLoc ≠ passLoc then
    (decide (board.colors moveLoc = getOpp movePla) && h.koRecapBlocked moveLoc && decide (board.getChainSize moveLoc = 1) &&
        decide (board.getNumLiberties moveLoc = 1)) ||
      (let koCaptureLoc := board.getKoCaptureLoc moveLoc movePla
      decide (koCaptureLoc ≠ nullLoc) && h.koRecapBlocked koCaptureLoc && decide (board.colors koCaptureLoc = getOpp movePla))
  else false

def isLegal (board : Board) (moveLoc : Loc) (movePla : Player) : Bool :=
  if movePla ≠ h.presumedNextMovePla then false
  else if h.isPassForKo board moveLoc movePla then true
  -- Simple ko is only checked during normal play.
  else if ¬ h.encorePhase > 0 ∧ board.isKoBanned moveLoc then false
  else board.isLegalIgnoringKo moveLoc movePla h.rules.multiStoneSuicideLegal && !h.superKoBanned moveLoc

end Queries

end BoardHistory
end KataGo.Game
