import KataGo.Game.Board
import KataGo.Lib.Numerals
import Mathlib.Algebra.Order.Field.Basic
import Mathlib.Algebra.Order.Floor.Ring

/-! The score distribution that `TrainingWriteBuffers::addRow` of `dataio/trainingwrite.cpp` writes into
a training row. Arithmetic is exact. -/

namespace KataGo.Selfplay

section

variable {K : Type} [Field K] [LinearOrder K] [FloorRing K]

/-- `round`: halves are rounded away from zero. -/
def round (x : K) : Int := if 0 ≤ x then ⌊x + 1 / 2⌋ else -⌊-x + 1 / 2⌋

def extraScoreDistrRadius : Nat := 60

def scoreDistrLen (posArea : Nat) : Nat := posArea * 2 + extraScoreDistrRadius * 2

def scoreDistrMid (posArea : Nat) : Nat := posArea + extraScoreDistrRadius

/-- The value of an eight-bit integer. -/
def int8 (v : Int) : Int := v.bmod (2 ^ 8)

/-- A write to an entry of the row, which fails outside the row. -/
def write (row : List Int) (i v : Int) : Option (List Int) :=
  if 0 ≤ i ∧ i < row.length then some (row.set i.toNat (int8 v)) else none

/-- The row for a score of the player to move. -/
def fillScoreDistr (posArea : Nat) (score : K) : Option (List Int) := do
  let row := List.replicate (scoreDistrLen posArea) 0
  let centerScore := round score
  let lowerIdx := centerScore + scoreDistrMid posArea - 1
  let upperIdx := centerScore + scoreDistrMid posArea
  if upperIdx ≤ 0 then write row 0 100
  else if lowerIdx ≥ scoreDistrLen posArea - 1 then write row (scoreDistrLen posArea - 1) 100
  else
    let lambda := score - (centerScore - 1 / 2)
    let upperProp := round (lambda * 100)
    let row ← write row lowerIdx (100 - upperProp)
    write row upperIdx upperProp

/-- The row without a score still sums to a hundred. -/
def dummyScoreDistr (posArea : Nat) : Option (List Int) := do
  let row := List.replicate (scoreDistrLen posArea) 0
  let row ← write row (scoreDistrMid posArea - 1) 50
  write row (scoreDistrMid posArea) 50

/-- The row that is written for the last score, which is White's. -/
def addScoreDistr (hasFinalOwnership isGameFinished isNoResult : Bool) (dataXLen dataYLen : Nat)
    (nextPlayer : Game.Player) (whiteScore : K) : Option (List Int) :=
  if !hasFinalOwnership || isGameFinished && isNoResult then dummyScoreDistr (dataXLen * dataYLen)
  else fillScoreDistr (dataXLen * dataYLen) (if nextPlayer = .white then whiteScore else -whiteScore)

end

end KataGo.Selfplay
