import KataGo.Lib.Loops
import KataGo.Python.Runs
import Mathlib.Data.Rat.Defs
import Mathlib.Algebra.Order.Ring.Rat

/-! The ladder search of `python/katago/game/board.py` and its caller `iterLadders` in
`python/katago/game/features.py`. The search keeps its own stack: a frame holds what the arrays
`moveLists`, `moveListCur` and `records` hold at one index, and the list of frames has the current
level at its head. -/

namespace KataGo.Python
open KataGo.Lib
open KataGo.Game (Color Player getOpp Loc)

namespace Board

section Queries

variable (b : Board)

/-- Each location is next to the other. -/
def isAdjacent (loc1 loc2 : Loc) : Bool := (b.adj loc2).contains loc1

def findLiberties (loc : Loc) (buf : List Loc) : Option (List Loc) := do
  let stones ← b.groupLocs loc
  return (stones.flatMap b.adj).foldl (fun buf lib => if b.board lib = .empty then pushNew buf lib else buf) buf

/-- The liberties of the opposing groups in atari around the group, each group read once: the list of their heads
is `chainHeadsChecked`. -/
def findLibertyGainingCaptures (loc : Loc) (buf : List Loc) : Option (List Loc) := do
  let opp := getOpp (b.board loc)
  let stones ← b.groupLocs loc
  let (buf, _) ← (stones.flatMap b.adj).foldlM
    (visitOnce (fun a => b.board a = opp ∧ b.libertyCount a = 1) b.groupHead b.findLiberties) (buf, [])
  return buf

def hasLibertyGainingCaptures (loc : Loc) : Option Bool := do
  let stones ← b.groupLocs loc
  return (stones.flatMap b.adj).any fun a => b.board a = getOpp (b.board loc) ∧ b.libertyCount a = 1

def wouldBeKoCapture (loc : Loc) (pla : Player) : Bool :=
  let opp := getOpp pla
  if b.board loc ≠ .empty then false
  else if (b.adj loc).any fun a => b.board a ≠ .wall ∧ b.board a ≠ opp then false
  else match (b.adj loc).filter fun a => b.board a = opp ∧ b.libertyCount a = 1 with
    | [oppCapturableLoc] => decide (b.stoneCount oppCapturableLoc = 1)
    | _ => false

/-- What the group of `a` would have for liberties, added to those found so far. -/
def connectGroup (loc : Loc) (wouldBeEmpty : Loc → Bool) (a : Loc) (libs : List Loc) : Option (List Loc) := do
  let stones ← b.groupLocs a
  return (stones.flatMap b.adj).foldl
    (fun libs possibleLib => if possibleLib ≠ loc ∧ wouldBeEmpty possibleLib then pushNew libs possibleLib else libs) libs

/-- The source returns `maxLibs` as soon as it has found that many. -/
def getLibertiesAfterPlay (pla : Player) (loc : Loc) (maxLibs : Nat) : Option Nat :=
  let opp := getOpp pla
  let captured := (b.adj loc).filter fun a => b.board a = opp ∧ b.numLiberties a = 1
  let libs := (b.adj loc).filter fun a => b.board a = .empty ∨ b.board a = opp ∧ b.numLiberties a = 1
  let capturedGroupHeads := captured.map b.groupHead
  let wouldBeEmpty := fun possibleLib =>
    decide (b.board possibleLib = .empty) ||
      (decide (b.board possibleLib = opp) && capturedGroupHeads.contains (b.groupHead possibleLib))
  if libs.length ≥ maxLibs then some maxLibs
  else do
    let (libs, _) ← (b.adj loc).foldlM
      (visitOnce (fun a => b.board a = pla) b.groupHead (b.connectGroup loc wouldBeEmpty)) (libs, [])
    return min libs.length maxLibs

def countHeuristicConnectionLiberties (loc : Loc) (pla : Player) : ℚ :=
  ((b.adj loc).map fun a => if b.board a = pla then max 0 ((b.libertyCount a : ℚ) - 3 / 2) else 0).sum

end Queries

/-- One level of the search: its moves, the index of the current one (`none` for `-1`, before the
list is generated) and the record of the move played. -/
structure Frame where
  moves : List Loc
  cur : Option Nat
  record : Option MoveRecord

structure Search where
  board : Board
  stack : List Frame
  returnValue : Bool
  returnedFromDeeper : Bool

/-- The defender is to move at level `stackIdx`. -/
def isDefender (defenderFirst : Bool) (stackIdx : Nat) : Bool :=
  (defenderFirst && stackIdx % 2 == 0) || (!defenderFirst && stackIdx % 2 == 1)

section Search

variable (loc : Loc) (pla : Player) (defenderFirst : Bool)

/-- Both liberties are mouths of a ko, and no capture helps. -/
def doubleKoDeath (b : Board) (move0 move1 : Loc) : Option Bool :=
  let opp := getOpp pla
  if b.countImmediateLiberties move0 = 0 ∧ b.countImmediateLiberties move1 = 0 ∧
      b.wouldBeKoCapture move0 opp ∧ b.wouldBeKoCapture move1 opp then do
    let libs0 ← b.getLibertiesAfterPlay pla move0 3
    let libs1 ← b.getLibertiesAfterPlay pla move1 3
    if libs0 ≤ 2 ∧ libs1 ≤ 2 then b.hasLibertyGainingCaptures loc else some false
  else some false

/-- The attacker's moves at the two liberties, or the value of the level. -/
def attackerMoves (b : Board) (move0 move1 : Loc) : Option (Bool ⊕ List Loc) := do
  let libs0 := b.countImmediateLiberties move0
  let libs1 := b.countImmediateLiberties move1
  if ← doubleKoDeath loc pla b move0 move1 then return .inl true
  else if !b.isAdjacent move0 move1 ∧ libs0 ≥ 3 ∧ libs1 ≥ 3 then return .inl false
  else if !b.isAdjacent move0 move1 ∧ libs0 ≥ 3 then return .inr [move0]
  else if !b.isAdjacent move0 move1 ∧ libs1 ≥ 3 then return .inr [move1]
  else
    let libs0 := (libs0 : ℚ) + b.countHeuristicConnectionLiberties move0 pla
    let libs1 := (libs1 : ℚ) + b.countHeuristicConnectionLiberties move1 pla
    return .inr (if libs1 > libs0 then [move1, move0] else [move0, move1])

/-- Entering a level: its value where that is settled at once, else its moves. -/
def enterLevel (isDefender : Bool) (b : Board) : Option (Bool ⊕ List Loc) :=
  let libs := b.libertyCount loc
  if !isDefender ∧ libs ≤ 1 then some (.inl true)
  else if !isDefender ∧ libs ≥ 3 then some (.inl false)
  else if isDefender ∧ libs ≥ 2 then some (.inl false)
  else if isDefender ∧ b.simpleKoPoint ≠ none then some (.inl false)
  else if isDefender then do
    let moves ← b.findLibertyGainingCaptures loc []
    let moves ← b.findLiberties loc moves
    return .inr moves
  else do
    match ← b.findLiberties loc [] with
    | [move0, move1] => attackerMoves loc pla b move0 move1
    | _ => none -- the assertion on the number of moves

variable [ZobristStone]

/-- Try the move at index `cur`. The arrays end at `x_size * y_size * 2`. -/
def tryMove (s : Search) (frame : Frame) (rest : List Frame) (cur : Nat) : Option Search :=
  let isDefender := isDefender defenderFirst rest.length
  match frame.moves[cur]? with
  | none => some { s with stack := rest, returnValue := isDefender, returnedFromDeeper := true }
  | some move =>
    let p := if isDefender then pla else getOpp pla
    if !s.board.wouldBeLegal p move then
      some { s with
        stack := { frame with cur := some cur } :: rest
        returnValue := isDefender
        returnedFromDeeper := false }
    else do
      let (b, record) ← s.board.playRecordedUnsafe p move
      guard (rest.length + 1 < s.board.xSize * s.board.ySize * 2)
      return { s with
        board := b
        stack := ⟨[], none, none⟩ :: { frame with cur := some cur, record := some record } :: rest }

/-- Undo the move made, when a deeper level returned. -/
def undoDeeper (s : Search) (frame : Frame) : Option Board :=
  if s.returnedFromDeeper then frame.record >>= s.board.undo else some s.board

/-- One round of the loop, on a stack that is not empty. -/
def searchStep (s : Search) (frame : Frame) (rest : List Frame) : Option Search :=
  let isDefender := isDefender defenderFirst rest.length
  match frame.cur with
  | none => do
      match ← enterLevel loc pla isDefender s.board with
      | .inl value => return { s with stack := rest, returnValue := value, returnedFromDeeper := true }
      | .inr moves => tryMove pla defenderFirst s { frame with moves } rest 0
  | some cur => do
      guard (cur < frame.moves.length)
      let b ← undoDeeper s frame
      if isDefender ∧ !s.returnValue ∨ !isDefender ∧ s.returnValue then
        return { s with board := b, stack := rest, returnedFromDeeper := true }
      else tryMove pla defenderFirst { s with board := b } frame rest (cur + 1)

/-- At most `rounds` rounds. -/
def searchLoop : Nat → Search → Option Search
  | rounds, s =>
    match s.stack with
    | [] => some s
    | frame :: rest =>
      match rounds with
      | 0 => none
      | rounds + 1 => searchStep loc pla defenderFirst s frame rest >>= searchLoop rounds

end Search

variable [ZobristStone]

/-- The board as the search leaves it, and the answer. `none` when `rounds` rounds are too few, or the
search raises. -/
def searchIsLadderCaptured (b : Board) (loc : Loc) (defenderFirst : Bool) (rounds : Nat) : Option (Board × Bool) :=
  if !b.isOnBoard loc then some (b, false)
  else if b.board loc ≠ .black ∧ b.board loc ≠ .white then some (b, false)
  else if b.libertyCount loc > 2 ∨ defenderFirst ∧ b.libertyCount loc > 1 then some (b, false)
  else do
    let savedSimpleKoPoint := b.simpleKoPoint
    let start := if defenderFirst then { b with simpleKoPoint := none } else b
    let s ← searchLoop loc (b.board loc) defenderFirst rounds ⟨start, [⟨[], none, none⟩], false, false⟩
    return ({ s.board with simpleKoPoint := savedSimpleKoPoint }, s.returnValue)

/-- Whether the attacker's move at one liberty works. -/
def tryAttackerFirst (b : Board) (loc : Loc) (opp : Player) (move : Loc) (rounds : Nat) : Option (Board × Bool) :=
  if b.wouldBeLegal opp move then do
    let (b, record) ← b.playRecordedUnsafe opp move
    let (b, works) ← b.searchIsLadderCaptured loc true rounds
    let b ← b.undo record
    return (b, works)
  else some (b, false)

def searchIsLadderCapturedAttackerFirst2Libs (b : Board) (loc : Loc) (rounds : Nat) : Option (Board × List Loc) :=
  if !b.isOnBoard loc then some (b, [])
  else if b.board loc ≠ .black ∧ b.board loc ≠ .white then some (b, [])
  else if b.libertyCount loc ≠ 2 then some (b, [])
  else do
    let opp := getOpp (b.board loc)
    match ← b.findLiberties loc [] with
    | [move0, move1] => do
        let (b, move0Works) ← b.tryAttackerFirst loc opp move0 rounds
        let (b, move1Works) ← b.tryAttackerFirst loc opp move1 rounds
        return (b, (if move0Works then [move0] else []) ++ if move1Works then [move1] else [])
    | _ => none

end Board
end KataGo.Python
