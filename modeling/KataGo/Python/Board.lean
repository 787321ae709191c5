import KataGo.Game.Grid
import KataGo.Lib.DoubleLinks

/-! The board of `python/katago/game/board.py`, which plays the games that the network is
trained on. The NumPy arrays are functions of the location; an index that an array does
not have reads as a wall. None of the loops around a group writes a link that it has yet
to follow, so each of them first reads off the group and then folds its body over it. A
loop that does not end within `arrsize` rounds gives `none`. -/

namespace KataGo.Python
open KataGo.Lib CircularList Flood
open KataGo.Game (Color Player getOpp Loc adjs boardLocs)

/-- `ZOBRIST_STONE`, which the class body fills from a seeded generator. -/
class ZobristStone where
  key : Color → Loc → BitVec 64

def passLoc : Loc := 0

structure Board where
  xSize : Nat
  ySize : Nat
  pla : Player
  board : Loc → Color
  groupHead : Loc → Loc
  groupStoneCount : Loc → Int
  groupLibertyCount : Loc → Int
  groupNext : Loc → Loc
  groupPrev : Loc → Loc
  zobrist : BitVec 64
  simpleKoPoint : Option Loc
  numCapturesMade : Player → Int
  numNonPassMovesMade : Player → Int

/-- What `playRecordedUnsafe` returns. -/
structure MoveRecord where
  pla : Player
  loc : Loc
  oldSimpleKoPoint : Option Loc
  capDirs : List Nat
  selfCap : Bool
  oldNumCapturesMade : Player → Int
  oldNumNonPassMovesMade : Player → Int

/-- The `size` argument of the constructor: an `int`, or a pair of them. -/
inductive Size where
  | square (size : Int)
  | rectangle (xSize ySize : Int)
  deriving DecidableEq

def Size.xSize : Size → Int
  | .square size => size
  | .rectangle xSize _ => xSize

def Size.ySize : Size → Int
  | .square size => size
  | .rectangle _ ySize => ySize

/-- `str(size)`. -/
def Size.str : Size → String
  | .square size => toString size
  | .rectangle xSize ySize => "(" ++ toString xSize ++ ", " ++ toString ySize ++ ")"

def arrSize (xSize ySize : Nat) : Nat := (xSize + 1) * (ySize + 2) + 1

/-- `self.loc(x,y)`, where a coordinate may be just off the board. -/
def locOf (xSize : Nat) (x y : Int) : Loc := (x + 1) + (xSize + 1) * (y + 1)

/-- `range(-1, n+1)`. -/
def border (n : Nat) : List Int := (List.range (n + 2)).map fun i : Nat => (i : Int) - 1

/-- The locations that the constructor makes walls. -/
def wallLocs (xSize ySize : Nat) : List Loc :=
  (border xSize).flatMap (fun i => [locOf xSize i (-1), locOf xSize i ySize]) ++
    (border ySize).flatMap fun i => [locOf xSize (-1) i, locOf xSize xSize i]

/-- The array of colours, all empty before the walls are written. -/
def initBoard (xSize ySize : Nat) : Loc → Color :=
  (wallLocs xSize ySize).foldl (fun board p => Function.update board p .wall)
    fun p => if 0 ≤ p ∧ p < arrSize xSize ySize then .empty else .wall

/-- Zeros, and `-1` at index `0`. -/
def initLinks : Loc → Loc := Function.update (fun _ => 0) 0 (-1)

def emptyBoard (xSize ySize : Nat) : Board where
  xSize := xSize
  ySize := ySize
  pla := .black
  board := initBoard xSize ySize
  groupHead := initLinks
  groupStoneCount := fun _ => 0
  groupLibertyCount := fun _ => 0
  groupNext := initLinks
  groupPrev := initLinks
  zobrist := 0
  simpleKoPoint := none
  numCapturesMade := fun _ => 0
  numNonPassMovesMade := fun _ => 0

/-- `Board(size)`, or the text of its `ValueError`. -/
def init (size : Size) : Except String Board :=
  if size.xSize < 2 ∨ size.xSize > 50 then .error ("Invalid board size: " ++ size.str)
  else if size.ySize < 2 ∨ size.ySize > 50 then .error ("Invalid board size: " ++ size.str)
  else .ok (emptyBoard size.xSize.toNat size.ySize.toNat)

namespace Board

def arrsize (b : Board) : Nat := arrSize b.xSize b.ySize

def adj (b : Board) (loc : Loc) : List Loc := adjs b.xSize loc

def locs (b : Board) : List Loc := boardLocs b.xSize b.ySize

/-- `self.group_liberty_count[self.group_head[loc]]`. -/
def libertyCount (b : Board) (loc : Loc) : Int := b.groupLibertyCount (b.groupHead loc)

/-- `self.group_stone_count[self.group_head[loc]]`. -/
def stoneCount (b : Board) (loc : Loc) : Int := b.groupStoneCount (b.groupHead loc)

def posZobrist (b : Board) : BitVec 64 := b.zobrist

def numLiberties (b : Board) (loc : Loc) : Int :=
  if b.board loc = .empty ∨ b.board loc = .wall then 0 else b.libertyCount loc

def isOnBoard (b : Board) (loc : Loc) : Bool := 0 ≤ loc ∧ loc < b.arrsize ∧ b.board loc ≠ .wall

def wouldBeSuicide (b : Board) (pla : Player) (loc : Loc) : Bool :=
  -- If empty or capture, then not suicide.
  if (b.adj loc).any fun a => b.board a = .empty ∨ b.board a = getOpp pla ∧ b.libertyCount a = 1 then false
  -- If it connects to an own stone with enough liberties, then not suicide.
  else if (b.adj loc).any fun a => b.board a = pla ∧ b.libertyCount a > 1 then false
  else true

def wouldBeSingleStoneSuicide (b : Board) (pla : Player) (loc : Loc) : Bool :=
  if (b.adj loc).any fun a => b.board a = .empty ∨ b.board a = getOpp pla ∧ b.libertyCount a = 1 then false
  -- If it connects to an own stone, then not single stone suicide.
  else if (b.adj loc).any fun a => b.board a = pla then false
  else true

def wouldBeLegal (b : Board) (pla : Player) (loc : Loc) : Bool :=
  if pla ≠ .black ∧ pla ≠ .white then false
  else if loc = passLoc then true
  else if !b.isOnBoard loc then false
  else if b.board loc ≠ .empty then false
  else if b.wouldBeSingleStoneSuicide pla loc then false
  else if some loc = b.simpleKoPoint then false
  else true

def countImmediateLiberties (b : Board) (loc : Loc) : Int :=
  ((b.adj loc).countP fun a => b.board a = .empty)

def isGroupAdjacent (b : Board) (head loc : Loc) : Bool := (b.adj loc).any fun a => b.groupHead a = head

/-- The stones of the group of `loc`, read once around. -/
def groupLocs (b : Board) (loc : Loc) : Option (List Loc) := walk b.groupNext b.arrsize loc

def addLiberties (b : Board) (head : Loc) (delta : Int) : Board :=
  { b with groupLibertyCount := Function.update b.groupLibertyCount head (b.groupLibertyCount head + delta) }

/-- Apply `delta` to the groups of the neighbours that `mine` selects. A neighbour is passed
over if an earlier one, selected or not, has the same head. -/
def changeLibertiesFrom (mine : Color → Bool) (delta : Int) (earlier : List Loc) : List Loc → Board → Board
  | [], b => b
  | a :: rest, b =>
      changeLibertiesFrom mine delta (earlier ++ [a]) rest
        (if mine (b.board a) ∧ earlier.all (fun e => b.groupHead a ≠ b.groupHead e) then
          b.addLiberties (b.groupHead a) delta
        else b)

def changeLiberties (b : Board) (mine : Color → Bool) (loc : Loc) (delta : Int) : Board :=
  changeLibertiesFrom mine delta [] (b.adj loc) b

def changeSurroundingLiberties (b : Board) (loc : Loc) (pla : Player) (delta : Int) : Board :=
  b.changeLiberties (· = pla) loc delta

/-- Assign the new head to a stone of the child group and count the liberties it adds. -/
def mergeStone (phead : Loc) (s : Board × Int) (loc : Loc) : Board × Int :=
  ({ s.1 with groupHead := Function.update s.1.groupHead loc phead },
    s.2 + ((s.1.adj loc).countP fun a => s.1.board a = .empty ∧ ¬ s.1.isGroupAdjacent phead a))

/-- Take the stones of `chead`'s group over into `phead`'s. -/
def mergeStones (b : Board) (phead chead : Loc) (stones : List Loc) : Board :=
  let newStoneCount := b.groupStoneCount phead + b.groupStoneCount chead
  let (b, newLiberties) := stones.foldl (mergeStone phead) (b, b.groupLibertyCount phead)
  let plast := b.groupPrev phead
  let clast := b.groupPrev chead
  { b with
    groupStoneCount := Function.update (Function.update b.groupStoneCount chead 0) phead newStoneCount
    groupLibertyCount := Function.update (Function.update b.groupLibertyCount chead 0) phead newLiberties
    groupNext := Function.update (Function.update b.groupNext clast phead) plast chead
    groupPrev := Function.update (Function.update b.groupPrev chead plast) phead clast }

def mergeUnsafe (b : Board) (loc0 loc1 : Loc) : Option Board :=
  let parent := if b.stoneCount loc0 ≥ b.stoneCount loc1 then loc0 else loc1
  let child := if b.stoneCount loc0 ≥ b.stoneCount loc1 then loc1 else loc0
  if b.groupHead parent = b.groupHead child then some b
  else do
    let stones ← b.groupLocs child
    return b.mergeStones (b.groupHead parent) (b.groupHead child) stones

variable [ZobristStone]

/-- Delete one stone of a group. The key taken out of the hash is that of `opp`, the
opponent of the group. -/
def removeStone (opp : Player) (b : Board) (loc : Loc) : Board :=
  let b := b.changeLiberties (· = opp) loc 1
  { b with
    board := Function.update b.board loc .empty
    zobrist := b.zobrist ^^^ ZobristStone.key opp loc
    groupHead := Function.update b.groupHead loc 0
    groupNext := Function.update b.groupNext loc 0
    groupPrev := Function.update b.groupPrev loc 0 }

def removeUnsafe (b : Board) (group : Loc) : Option Board := do
  let head := b.groupHead group
  let opp := getOpp (b.board group)
  let stones ← b.groupLocs group
  let b := stones.foldl (removeStone opp) b
  return { b with
    groupStoneCount := Function.update b.groupStoneCount head 0
    groupLibertyCount := Function.update b.groupLibertyCount head 0 }

/-- Put the stone down and make it a group. -/
def placeStone (b : Board) (pla : Player) (loc : Loc) : Board :=
  let b := { b with
    board := Function.update b.board loc pla
    zobrist := b.zobrist ^^^ ZobristStone.key pla loc }
  { b with
    groupHead := Function.update b.groupHead loc loc
    groupStoneCount := Function.update b.groupStoneCount loc 1
    groupLibertyCount := Function.update b.groupLibertyCount loc (b.countImmediateLiberties loc)
    groupNext := Function.update b.groupNext loc loc
    groupPrev := Function.update b.groupPrev loc loc }

/-- The variables of `add_unsafe` while captures are resolved. -/
structure CaptureState where
  board : Board
  oppStonesCaptured : Int
  caploc : Loc

def captureDir (opp : Player) (s : CaptureState) (a : Loc) : Option CaptureState :=
  if s.board.board a = opp ∧ s.board.libertyCount a = 0 then do
    let b ← s.board.removeUnsafe a
    return { board := b, oppStonesCaptured := s.oppStonesCaptured + s.board.stoneCount a, caploc := a }
  else some s

/-- The stone at `loc` with the groups around it merged, before any capture. -/
def joinStone (b : Board) (pla : Player) (loc : Loc) : Option Board :=
  let b := b.placeStone pla loc
  let b := b.changeLiberties (fun c => c = .black ∨ c = .white) loc (-1)
  (b.adj loc).foldlM (fun b a => if b.board a = pla then b.mergeUnsafe loc a else some b) b

/-- The board after a possible suicide, and the number of stones it takes. -/
def resolveSuicide (b : Board) (loc : Loc) : Option (Board × Int) :=
  if b.libertyCount loc = 0 then do
    let b' ← b.removeUnsafe loc
    return (b', b.stoneCount loc)
  else some (b, 0)

def addUnsafe (b : Board) (pla : Player) (loc : Loc) : Option Board := do
  let opp := getOpp pla
  let b ← b.joinStone pla loc
  let s ← (b.adj loc).foldlM (captureDir opp) ⟨b, 0, 0⟩
  let (b, plaStonesCaptured) ← s.board.resolveSuicide loc
  let made := Function.update b.numCapturesMade pla (b.numCapturesMade pla + plaStonesCaptured)
  return { b with
    numCapturesMade := Function.update made opp (made opp + s.oppStonesCaptured)
    numNonPassMovesMade := Function.update b.numNonPassMovesMade pla (b.numNonPassMovesMade pla + 1)
    simpleKoPoint :=
      if s.oppStonesCaptured = 1 ∧ b.stoneCount loc = 1 ∧ b.libertyCount loc = 1 then some s.caploc else none }

/-- Remove the whole group and add its other stones back one by one. -/
def removeSingleStoneUnsafe (b : Board) (rloc : Loc) : Option Board := do
  let pla := b.board rloc
  let stones ← b.groupLocs rloc
  let b ← b.removeUnsafe rloc
  stones.foldlM (fun b loc => if loc ≠ rloc then b.addUnsafe pla loc else some b) b

/-- The board, or the text of the `IllegalMoveError`. -/
def setStone (b : Board) (pla : Color) (loc : Loc) : Option (Except String Board) :=
  if pla ≠ .empty ∧ pla ≠ .black ∧ pla ≠ .white then some (.error "Invalid pla for board.set")
  else if !b.isOnBoard loc then some (.error "Invalid loc for board.set")
  else do
    let b ←
      if b.board loc = pla then some b
      else if b.board loc = .empty then b.addUnsafe pla loc
      else if pla = .empty then b.removeSingleStoneUnsafe loc
      else do
        let b ← b.removeSingleStoneUnsafe loc
        b.addUnsafe pla loc
    return .ok { b with simpleKoPoint := none }

def playUnsafe (b : Board) (pla : Player) (loc : Loc) : Option Board :=
  if loc = passLoc then some { b with simpleKoPoint := none, pla := getOpp pla }
  else do
    let b ← b.addUnsafe pla loc
    return { b with pla := getOpp pla }

def play (b : Board) (pla : Player) (loc : Loc) : Option (Except String Board) :=
  if pla ≠ .black ∧ pla ≠ .white then some (.error "Invalid pla for board.play")
  else if loc ≠ passLoc ∧ !b.isOnBoard loc then some (.error "Invalid loc for board.set")
  else if loc ≠ passLoc ∧ b.board loc ≠ .empty then some (.error "Location is nonempty")
  else if loc ≠ passLoc ∧ b.wouldBeSingleStoneSuicide pla loc then
    some (.error "Move would be illegal single stone suicide")
  else if loc ≠ passLoc ∧ some loc = b.simpleKoPoint then
    some (.error "Move would be illegal simple ko recapture")
  else do
    let b ← b.playUnsafe pla loc
    return .ok b

/-- The directions in which a move would capture. -/
def captureDirs (b : Board) (pla : Player) (loc : Loc) : List Nat :=
  ((b.adj loc).zipIdx.filter fun dir => b.board dir.1 = getOpp pla ∧ b.libertyCount dir.1 = 1).map Prod.snd

def playRecordedUnsafe (b : Board) (pla : Player) (loc : Loc) : Option (Board × MoveRecord) := do
  let b' ← b.playUnsafe pla loc
  return (b', {
    pla, loc
    oldSimpleKoPoint := b.simpleKoPoint
    capDirs := b.captureDirs pla loc
    selfCap := b'.board loc = .empty
    oldNumCapturesMade := b.numCapturesMade
    oldNumNonPassMovesMade := b.numNonPassMovesMade })

/-- Fill one empty point of a region and link it in front of the list built so far. -/
def floodFillVisit (head : Loc) (pla : Player) (s : Board × Loc) (loc : Loc) : Board × Loc :=
  let b := s.1
  let b := { b with
    board := Function.update b.board loc pla
    zobrist := b.zobrist ^^^ ZobristStone.key pla loc
    groupHead := Function.update b.groupHead loc head
    groupStoneCount := Function.update b.groupStoneCount head (b.groupStoneCount head + 1)
    groupNext := Function.update b.groupNext loc s.2
    groupPrev := Function.update b.groupPrev s.2 loc }
  (b.changeSurroundingLiberties loc (getOpp pla) (-1), loc)

def floodFillStonesHelper (b : Board) (head tailTarget loc : Loc) (pla : Player) : Option (Board × Loc) :=
  flood b.adj (fun s a => decide (s.1.board a = .empty)) (floodFillVisit head pla) b.arrsize (b, tailTarget) loc

/-- `group_liberty_count[head] = 0` and `group_stone_count[head] = 0`. -/
def zeroCounts (b : Board) (head : Loc) : Board :=
  { b with
    groupLibertyCount := Function.update b.groupLibertyCount head 0
    groupStoneCount := Function.update b.groupStoneCount head 0 }

/-- Make the head point to the front of its list. -/
def closeRing (b : Board) (head front : Loc) : Board :=
  { b with
    groupNext := Function.update b.groupNext head front
    groupPrev := Function.update b.groupPrev front head }

def floodFillStones (b : Board) (pla : Player) (loc : Loc) : Option Board := do
  let (b, front) ← (b.zeroCounts loc).floodFillStonesHelper loc loc loc pla
  return b.closeRing loc front

omit [ZobristStone] in
/-- Take one stone into the group of `head`, counting the liberties it adds. -/
def rebuildVisit (head : Loc) (s : Board × Loc) (loc : Loc) : Board × Loc :=
  let b := s.1
  ({ b with
    groupLibertyCount := Function.update b.groupLibertyCount head (b.groupLibertyCount head +
      ((b.adj loc).countP fun a => b.board a = .empty ∧ ¬ b.isGroupAdjacent head a))
    groupHead := Function.update b.groupHead loc head
    groupStoneCount := Function.update b.groupStoneCount head (b.groupStoneCount head + 1)
    groupNext := Function.update b.groupNext loc s.2
    groupPrev := Function.update b.groupPrev s.2 loc }, loc)

omit [ZobristStone] in
def rebuildChainHelper (b : Board) (head tailTarget loc : Loc) (pla : Player) : Option (Board × Loc) :=
  flood b.adj (fun s a => decide (s.1.board a = pla ∧ s.1.groupHead a ≠ head)) (rebuildVisit head) b.arrsize
    (b, tailTarget) loc

omit [ZobristStone] in
def rebuildChain (b : Board) (pla : Player) (loc : Loc) : Option Board := do
  let (b, front) ← (b.zeroCounts loc).rebuildChainHelper loc loc loc pla
  return b.closeRing loc front

omit [ZobristStone] in
/-- Point the heads of these stones at nothing. -/
def clearHeads (b : Board) (stones : List Loc) : Board :=
  { b with groupHead := stones.foldl (fun heads cur => Function.update heads cur passLoc) b.groupHead }

omit [ZobristStone] in
/-- The chain of the deleted stone is recomputed from scratch. -/
def undoRebuild (b : Board) (pla : Player) (loc : Loc) : Option Board := do
  let stones ← b.groupLocs loc
  (b.adj loc).foldlM
    (fun b a => if b.board a = pla ∧ b.groupHead a = passLoc then b.rebuildChain pla a else some b)
    (b.clearHeads stones)

/-- Re-fill the stones in all captured directions. -/
def undoCaptures (b : Board) (opp : Player) (loc : Loc) (capDirs : List Nat) : Option Board :=
  capDirs.foldlM
    (fun b capdir =>
      let a := (b.adj loc).getD capdir 0
      if b.board a = .empty then b.floodFillStones opp a else some b) b

/-- Delete the stone that was played at `loc`, with all stones of the move back on the board. -/
def deleteStone (b : Board) (pla : Player) (loc : Loc) : Option Board := do
  let b := { b with
    zobrist := b.zobrist ^^^ ZobristStone.key pla loc
    board := Function.update b.board loc .empty }
  let head := b.groupHead loc
  let stoneCount := b.groupStoneCount head
  let b := (b.zeroCounts head).changeSurroundingLiberties loc (getOpp pla) 1
  -- If this was not a single stone, the chain has to be recomputed.
  let b ← if stoneCount > 1 then b.undoRebuild pla loc else some b
  return { b with
    groupHead := Function.update b.groupHead loc 0
    groupNext := Function.update b.groupNext loc 0
    groupPrev := Function.update b.groupPrev loc 0 }

def undo (b : Board) (record : MoveRecord) : Option Board :=
  let b := { b with
    simpleKoPoint := record.oldSimpleKoPoint
    pla := record.pla
    numCapturesMade := record.oldNumCapturesMade
    numNonPassMovesMade := record.oldNumNonPassMovesMade }
  if record.loc = passLoc then some b
  else do
    let b ← b.undoCaptures (getOpp record.pla) record.loc record.capDirs
    let b ← if record.selfCap then b.floodFillStones record.pla record.loc else some b
    b.deleteStone record.pla record.loc

end Board
end KataGo.Python
