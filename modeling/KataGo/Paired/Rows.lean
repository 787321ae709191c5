import KataGo.Lib.JsonEq
import KataGo.Lib.Strings
import Mathlib.Data.Rat.Defs
import Mathlib.Algebra.Order.Ring.Rat

/-! The rows of `python/risk_score/paired_stats.py`: what it reads from the result of one game.
Arithmetic is exact, so that a finite float is a rational number. -/

namespace KataGo.Paired
open KataGo.Lib

inductive PyFloat where
  | finite (q : ℚ)
  | inf (negative : Bool)
  | nan
  deriving DecidableEq

instance : NumberEq PyFloat where
  same
    | .finite p, .finite q => p = q
    | .inf m, .inf n => m = n
    | _, _ => false
  sameInt
    | .finite q, n => q = n
    | _, _ => false

abbrev Value := Json PyFloat

/-- The fields of a row that is an object. -/
abbrev Row := List (String × Value)

/-- `_finite_number` -/
def finiteNumber : Value → Option ℚ
  | .int n => some n
  | .float (.finite q) => some q
  | _ => none

def isBlank (s : String) : Bool := strip s.toList = []

/-- `_nonempty_string` -/
def nonemptyString : Value → Option String
  | .str s => if isBlank s then none else some s
  | _ => none

/-- Whether a bot is missing: `None` or a blank string. -/
def missingBot : Value → Bool
  | .null => true
  | .str s => isBlank s
  | _ => false

def winnerNames : List String := ["B", "W", "draw"]

/-- `_winner_from_final_result` -/
def winnerFromFinalResult : Value → Option String
  | .str s =>
      if "B+".toList.isPrefixOf s.toList then some "B"
      else if "W+".toList.isPrefixOf s.toList then some "W"
      else if s ∈ ["0", "draw", "Draw"] then some "draw"
      else none
  | _ => none

/-- The `winner` field, where it names one. -/
def explicitWinner : Value → Option String
  | .str s => if s ∈ winnerNames then some s else none
  | _ => none

/-- `_row_winner`: the winner, and whether the two fields that name one differ. -/
def rowWinner (row : Row) : Option String × Bool :=
  let explicit := explicitWinner (Json.get row "winner")
  let fromResult := winnerFromFinalResult (Json.get row "finalResult")
  (explicit <|> fromResult, explicit.isSome && fromResult.isSome && explicit ≠ fromResult)

/-- `_flag`: its value, and whether it is a Boolean or not there. -/
def flag (row : Row) (name : String) : Bool × Bool :=
  match row.lookup name with
  | none => (false, true)
  | some (.bool b) => (b, true)
  | some _ => (false, false)

structure Issue where
  code : String
  detail : String
  rowIndex : Option Nat
  gameId : Option String
  pairId : Option String
  deriving DecidableEq, Repr

/-- What the validation keeps of a row. -/
structure Context where
  index : Nat
  row : Row
  gameId : Option String
  pairId : Option String
  positionId : Option String
  scheduleId : Option String
  seed : Option String
  candidateIsBlack : Bool
  candidateIsWhite : Bool
  candidateColor : Option String
  candidateBot : Value
  referenceBot : Value
  blackBot : Value
  whiteBot : Value
  outcome : Option ℚ
  candidateMargin : Option ℚ
  noResult : Bool
  resignation : Bool
  turnLimit : Bool

/-- The outcome for the candidate. -/
def outcomeOf (noResult turnLimit : Bool) (winner : Option String) (candidateIsBlack candidateIsWhite : Bool) : Option ℚ :=
  if noResult then some 0
  else if turnLimit then none
  else if winner = some "draw" then some 0
  else if (winner = some "B" ∨ winner = some "W") ∧ candidateIsBlack ≠ candidateIsWhite then
    some (if winner = some (if candidateIsBlack then "B" else "W") then 1 else -1)
  else none

def marginOf (numericScore : Option ℚ) (candidateIsBlack candidateIsWhite : Bool) : Option ℚ :=
  if candidateIsBlack ≠ candidateIsWhite then numericScore.map fun score => if candidateIsWhite then score else -score
  else none

def rowContext (candidateBot : Value) (index : Nat) (row : Row) : Context :=
  let blackBot := Json.get row "blackBot"
  let whiteBot := Json.get row "whiteBot"
  let candidateIsBlack := sameJson blackBot candidateBot
  let candidateIsWhite := sameJson whiteBot candidateBot
  let noResult := (flag row "noResult").1
  let turnLimit := (flag row "hitTurnLimit").1
  { index
    row
    gameId := nonemptyString (Json.get row "gameId")
    pairId := nonemptyString (Json.get row "pairId")
    positionId := nonemptyString (Json.get row "positionId")
    scheduleId := nonemptyString (Json.get row "scheduleId")
    seed := nonemptyString (Json.get row "seed")
    candidateIsBlack
    candidateIsWhite
    candidateColor := if candidateIsBlack then some "B" else if candidateIsWhite then some "W" else none
    candidateBot
    referenceBot := if candidateIsBlack then whiteBot else if candidateIsWhite then blackBot else .null
    blackBot
    whiteBot
    outcome := outcomeOf noResult turnLimit (rowWinner row).1 candidateIsBlack candidateIsWhite
    candidateMargin := marginOf (finiteNumber (Json.get row "finalWhiteMinusBlackScore")) candidateIsBlack candidateIsWhite
    noResult
    resignation := (flag row "resignation").1
    turnLimit }

end KataGo.Paired
