import KataGo.Game.Board

/-! The operations of `cpp/game/board.cpp` that change a board. None of the loops over a
circular list writes `nextInChain`, so each of them first reads off the list and then
folds its body over it. An `assert` of the source is a guard here. -/

namespace KataGo.Game
open KataGo.Lib CircularList Flood

variable [Zobrist]

namespace Board

def addLiberties (b : Board) (head : Loc) (delta : Int) : Board :=
  { b with chainData := Function.update b.chainData head ((b.chainData head).bump delta) }

def addLocs (b : Board) (head : Loc) (delta : Int) : Board :=
  let data := b.chainData head
  { b with chainData := Function.update b.chainData head { data with numLocs := data.numLocs + delta } }

def setColor (b : Board) (loc : Loc) (color : Color) : Board :=
  { b with colors := Function.update b.colors loc color }

def xorHash (b : Board) (loc : Loc) (color : Color) : Board :=
  { b with posHash := b.posHash ^^^ Zobrist.boardHash loc color }

/-- `chain` is read once around, starting at `loc`. -/
def chainLocs (b : Board) (loc : Loc) : Option (List Loc) := walk b.nextInChain maxArrSize loc

/-- Apply `delta` to the next neighbour's chain unless an earlier neighbour belongs to it. -/
def changeLibertiesFrom (pla : Player) (delta : Int) (earlier : List Loc) : List Loc → Board → Board
  | [], b => b
  | a :: rest, b =>
      changeLibertiesFrom pla delta (earlier ++ [a]) rest
        (if b.colors a = pla ∧ ¬ earlier.any (fun e => b.colors e = pla ∧ b.chainHead e = b.chainHead a) then
          b.addLiberties (b.chainHead a) delta
        else b)

def changeSurroundingLiberties (b : Board) (loc : Loc) (pla : Player) (delta : Int) : Board :=
  changeLibertiesFrom pla delta [] (b.adj loc) b

/-- One stone of the smaller chain joins `head1`; the empty points it alone touches are counted. -/
def mergeStone (head1 : Loc) (s : Board × Int) (loc : Loc) : Board × Int :=
  ({ s.1 with chainHead := Function.update s.1.chainHead loc head1 },
    s.2 + ((s.1.adj loc).countP fun a => s.1.colors a = .empty ∧ ¬ s.1.isLibertyOf a head1))

/-- Make the stones of `head2`'s chain members of `head1`'s chain and link the two lists up as
`head1 -> head2 -> ... -> last -> next1 -> ... -> head1`. -/
def mergeStones (b : Board) (head1 head2 : Loc) (stones : List Loc) (last : Loc) : Board :=
  let s := stones.foldl (mergeStone head1) (b.addLocs head1 (b.chainData head2).numLocs, 0)
  let b := s.1.addLiberties head1 s.2
  { b with
    nextInChain := Function.update (Function.update b.nextInChain last (b.nextInChain head1)) head1 head2 }

def mergeInto (b : Board) (head1 head2 : Loc) : Option Board := do
  let stones ← b.chainLocs head2
  let last ← stones.getLast?
  return b.mergeStones head1 head2 stones last

def mergeChains (b : Board) (loc1 loc2 : Loc) : Option Board := do
  let head1 := b.chainHead loc1
  let head2 := b.chainHead loc2
  guard (head1 ≠ head2)
  guard ((b.chainData head1).owner = (b.chainData head2).owner)
  if (b.chainData head1).numLocs < (b.chainData head2).numLocs then b.mergeInto head2 head1
  else b.mergeInto head1 head2

def removeStone (opp : Player) (b : Board) (cur : Loc) : Board :=
  ((b.xorHash cur (b.colors cur)).setColor cur .empty).changeSurroundingLiberties cur opp 1

/-- Returns the board and the number of stones removed. -/
def removeChain (b : Board) (loc : Loc) : Option (Board × Int) := do
  let stones ← b.chainLocs loc
  return (stones.foldl (removeStone (getOpp (b.colors loc))) b, stones.length)

/-- Add the new stone as an independent group. -/
def placeStone (b : Board) (loc : Loc) (pla : Player) : Board :=
  let b := (b.setColor loc pla).xorHash loc pla
  { b with
    chainData := Function.update b.chainData loc ⟨pla, 1, b.getNumImmediateLiberties loc⟩
    chainHead := Function.update b.chainHead loc loc
    nextInChain := Function.update b.nextInChain loc loc }

structure PlayState where
  board : Board
  numCaptured : Int
  possibleKoLoc : Loc
  oppHeadsSeen : List Loc

/-- One direction of the loop of `playMoveAssumeLegal`: merge with a friendly chain, or
take a liberty from an opposing one and capture it if that was its last. -/
def playDir (loc : Loc) (pla : Player) (s : PlayState) (a : Loc) : Option PlayState :=
  let b := s.board
  if b.colors a = pla then
    if b.chainHead a = b.chainHead loc then some s
    else do
      let b ← (b.addLiberties (b.chainHead a) (-1)).mergeChains a loc
      return { s with board := b }
  else if b.colors a = getOpp pla then
    let oppHead := b.chainHead a
    if oppHead ∈ s.oppHeadsSeen then some s
    else
      let b := b.addLiberties oppHead (-1)
      let oppHeadsSeen := s.oppHeadsSeen ++ [oppHead]
      if b.getNumLiberties a = 0 then do
        let (b, removed) ← b.removeChain a
        return { board := b, numCaptured := s.numCaptured + removed, possibleKoLoc := a, oppHeadsSeen }
      else some { s with board := b, oppHeadsSeen }
  else some s

def addCaptures (b : Board) (color : Color) (n : Int) : Board :=
  if color = .black then { b with numBlackCaptures := b.numBlackCaptures + n }
  else { b with numWhiteCaptures := b.numWhiteCaptures + n }

def playMoveAssumeLegal (b : Board) (loc : Loc) (pla : Player) : Option Board :=
  if loc = passLoc then some { b with koLoc := nullLoc }
  else do
    let s ← (b.adj loc).foldlM (playDir loc pla) ⟨b.placeStone loc pla, 0, nullLoc, []⟩
    let b := s.board
    let b := { b with koLoc :=
      if s.numCaptured = 1 ∧ b.getChainSize loc = 1 ∧ b.getNumLiberties loc = 1 then s.possibleKoLoc
      else nullLoc }
    let b := b.addCaptures (if pla = .black then .white else .black) s.numCaptured
    if b.getNumLiberties loc = 0 then do
      let numSuicided := b.getChainSize loc
      let (b, _) ← b.removeChain loc
      return b.addCaptures (if pla = .black then .black else .white) numSuicided
    else some b

def playMove (b : Board) (loc : Loc) (pla : Player) (isMultiStoneSuicideLegal : Bool) :
    Option (Board × Bool) :=
  if b.isLegal loc pla isMultiStoneSuicideLegal then do
    let b ← b.playMoveAssumeLegal loc pla
    return (b, true)
  else some (b, false)

/-- Which of the four directions capture, as bits, or `0x10` for a suicide. -/
def captureDirs (b : Board) (loc : Loc) (pla : Player) : BitVec 8 :=
  let dirs := (b.adj loc).zipIdx.foldl (fun dirs (a, i) =>
    if b.colors a = getOpp pla ∧ b.getNumLiberties a = 1 then dirs ||| (1#8 <<< i) else dirs) 0#8
  if dirs = 0#8 ∧ b.isSuicide loc pla then 0x10#8 else dirs

def playMoveRecorded (b : Board) (loc : Loc) (pla : Player) : Option (Board × MoveRecord) := do
  let record : MoveRecord :=
    { pla, loc, koLoc := b.koLoc, capDirs := if loc = passLoc then 0#8 else b.captureDirs loc pla }
  let b ← b.playMoveAssumeLegal loc pla
  return (b, record)

def removeSingleStone (b : Board) (loc : Loc) : Option Board := do
  let pla := b.colors loc
  let stones ← b.chainLocs loc
  guard ((stones.length : Int) = b.getChainSize loc)
  let (b, _) ← b.removeChain loc
  stones.foldlM (fun b cur => if cur ≠ loc then b.playMoveAssumeLegal cur pla else some b) b

/-- Fill one empty point of a region and link it in front of the list built so far. -/
def addVisit (head : Loc) (pla : Player) (s : Board × Loc) (loc : Loc) : Board × Loc :=
  let b := (s.1.setColor loc pla).xorHash loc pla
  let b := { b with chainHead := Function.update b.chainHead loc head }
  let b := b.addLocs head 1
  let b := { b with nextInChain := Function.update b.nextInChain loc s.2 }
  (b.changeSurroundingLiberties loc (getOpp pla) (-1), loc)

def addChainHelper (b : Board) (head tailTarget loc : Loc) (pla : Player) : Option (Board × Loc) :=
  flood b.adj (fun s a => decide (s.1.colors a = .empty)) (addVisit head pla) maxArrSize (b, tailTarget) loc

def addChain (b : Board) (loc : Loc) (pla : Player) : Option Board := do
  let b := { b with chainData := Function.update b.chainData loc ⟨pla, 0, 0⟩ }
  let (b, front) ← b.addChainHelper loc loc loc pla
  return { b with nextInChain := Function.update b.nextInChain loc front }

/-- Take one stone into the chain of `head`, counting the liberties it adds. -/
def rebuildVisit (head : Loc) (s : Board × Loc) (loc : Loc) : Board × Loc :=
  let b := s.1
  let b := b.addLiberties head ((b.adj loc).countP fun a => b.colors a = .empty ∧ ¬ b.isLibertyOf a head)
  let b := { b with chainHead := Function.update b.chainHead loc head }
  let b := b.addLocs head 1
  ({ b with nextInChain := Function.update b.nextInChain loc s.2 }, loc)

def rebuildChainHelper (b : Board) (head tailTarget loc : Loc) (pla : Player) : Option (Board × Loc) :=
  flood b.adj (fun s a => decide (s.1.colors a = pla ∧ s.1.chainHead a ≠ head)) (rebuildVisit head)
    maxArrSize (b, tailTarget) loc

def rebuildChain (b : Board) (loc : Loc) (pla : Player) : Option Board := do
  let b := { b with chainData := Function.update b.chainData loc ⟨pla, 0, 0⟩ }
  let (b, front) ← b.rebuildChainHelper loc loc loc pla
  return { b with nextInChain := Function.update b.nextInChain loc front }

/-- Point the heads of all these stones at `head`. -/
def setHeads (b : Board) (stones : List Loc) (head : Loc) : Board :=
  { b with chainHead := stones.foldl (fun heads cur => Function.update heads cur head) b.chainHead }

/-- The undone stone was the head: move the head on to the next stone of the chain. -/
def moveHead (b : Board) (loc : Loc) : Option (Board × Loc) := do
  let head := b.chainHead loc
  if head = loc then
    let newHead := b.nextInChain loc
    let stones ← b.chainLocs loc
    let b := b.setHeads stones newHead
    return ({ b with chainData := Function.update b.chainData newHead (b.chainData head) }, newHead)
  else return (b, head)

/-- The undone stone had at most one neighbour in its chain: take it out of the circular
list and fix up the counts. -/
def undoDetach (b : Board) (loc : Loc) : Option Board := do
  let (b, head) ← b.moveHead loc
  let cur ← findPrev b.nextInChain loc maxArrSize head
  let b := { b with nextInChain := Function.update b.nextInChain cur (b.nextInChain loc) }
  let libertyDelta : Int :=
    1 - ((b.adj loc).countP fun a => b.colors a = .empty ∧ ¬ b.isLibertyOf a head)
  return (b.addLiberties head libertyDelta).addLocs head (-1)

/-- The undone stone may have joined several groups: rebuild each of them. -/
def undoRebuild (b : Board) (loc : Loc) (pla : Player) : Option Board := do
  let stones ← b.chainLocs loc
  (b.adj loc).foldlM
    (fun b a => if b.colors a = pla ∧ b.chainHead a = nullLoc then b.rebuildChain a pla else some b)
    (b.setHeads stones nullLoc)

def undoCaptured (record : MoveRecord) (b : Board) (dir : Loc × Nat) : Option Board :=
  if record.capDirs.getLsbD dir.2 ∧ b.colors dir.1 = .empty then do
    let b ← b.addChain dir.1 (getOpp record.pla)
    return b.addCaptures (if record.pla = .black then .white else .black) (-b.getChainSize dir.1)
  else some b

def undoSuicide (record : MoveRecord) (b : Board) : Option Board :=
  if record.capDirs = 0x10#8 then do
    guard (b.colors record.loc = .empty)
    let b ← b.addChain record.loc record.pla
    return b.addCaptures (if record.pla = .black then .black else .white) (-b.getChainSize record.loc)
  else some b

def undo (b : Board) (record : MoveRecord) : Option Board :=
  let b := { b with koLoc := record.koLoc }
  let loc := record.loc
  if loc = passLoc then some b
  else do
    let b ← (b.adj loc).zipIdx.foldlM (undoCaptured record) b
    let b ← undoSuicide record b
    let b := (b.xorHash loc (b.colors loc)).setColor loc .empty
    let b := b.changeSurroundingLiberties loc (getOpp record.pla) 1
    if b.getChainSize loc > 1 then
      if ((b.adj loc).countP fun a => b.colors a = record.pla) ≤ 1 then b.undoDetach loc
      else b.undoRebuild loc record.pla
    else some b

end Board
end KataGo.Game
