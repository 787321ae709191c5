import KataGo.Game.Mutators

/-! Position set-up: the `setStone` family of `cpp/game/board.cpp`. Each operation
returns the board with the source's return value. -/

namespace KataGo.Game

variable [Zobrist]

namespace Board

/-- The two range checks every `setStone` function starts with. -/
def settable (b : Board) (loc : Loc) (color : Color) : Bool :=
  !(decide (loc < 0) || decide (loc ≥ maxArrSize) || decide (b.colors loc = .wall)) &&
    !(decide (color ≠ .black) && decide (color ≠ .white) && decide (color ≠ .empty))

/-- The four cases of `setStone`, once its checks have passed. -/
def replaceStone (b : Board) (loc : Loc) (color : Color) : Option Board :=
  if b.colors loc = color then some b
  else if b.colors loc = .empty then
    if b.isIllegalSuicide loc color true then some b else b.playMoveAssumeLegal loc color
  else if color = .empty then b.removeSingleStone loc
  else do
    let b ← b.removeSingleStone loc
    if b.isSuicide loc color then some b else b.playMoveAssumeLegal loc color

def setStone (b : Board) (loc : Loc) (color : Color) : Option (Board × Bool) :=
  if !b.settable loc color then some (b, false)
  else do
    let b ← b.replaceStone loc color
    return ({ b with koLoc := nullLoc }, true)

def setStoneFailIfNoLibs (b : Board) (loc : Loc) (color : Color) : Option (Board × Bool) :=
  if !b.settable loc color then some (b, false)
  else if b.colors loc = color then some ({ b with koLoc := nullLoc }, true)
  else if b.colors loc = .empty then
    if b.isSuicide loc color || b.wouldBeCapture loc color then some (b, false)
    else do
      let b ← b.playMoveAssumeLegal loc color
      return ({ b with koLoc := nullLoc }, true)
  else if color = .empty then do
    let b ← b.removeSingleStone loc
    return ({ b with koLoc := nullLoc }, true)
  else do
    let oldKoLoc := b.koLoc
    guard (b.colors loc = getOpp color)
    let b ← b.removeSingleStone loc
    if b.isSuicide loc color || b.wouldBeCapture loc color then do
      let b ← b.playMoveAssumeLegal loc (getOpp color)
      return ({ b with koLoc := oldKoLoc }, false)
    else do
      let b ← b.playMoveAssumeLegal loc color
      return ({ b with koLoc := nullLoc }, true)

/-- A loop that stops with `false` at the first placement that fails. -/
def setEach (color : Move → Color) : List Move → Board → Option (Board × Bool)
  | [], b => some (b, true)
  | placement :: rest, b => do
      let (b, suc) ← b.setStoneFailIfNoLibs placement.loc (color placement)
      if suc then setEach color rest b else some (b, false)

def setStonesFailIfNoLibs (b : Board) (placements : List Move) : Option (Board × Bool) :=
  if ¬ (placements.map Move.loc).Nodup then some (b, false)
  else do
    let (b, suc) ← setEach (fun _ => .empty) placements b
    if suc then setEach Move.pla placements b else some (b, false)

/-- The first loop of `regenChainsFromColors`: the hash from scratch, and no heads. -/
def clearChains (b : Board) : Board :=
  b.locs.foldl (fun b loc =>
    if (b.colors loc).IsStone then
      { b.xorHash loc (b.colors loc) with chainHead := Function.update b.chainHead loc nullLoc }
    else b) { b with posHash := Zobrist.sizeXHash b.xSize ^^^ Zobrist.sizeYHash b.ySize }

def regenChainsFromColors (b : Board) : Option Board :=
  b.locs.foldlM (fun b loc =>
    if (b.colors loc).IsStone ∧ b.chainHead loc = nullLoc then b.rebuildChain loc (b.colors loc) else some b)
    b.clearChains

def overlay (b : Board) (placement : Move) : Board :=
  if b.settable placement.loc placement.pla then b.setColor placement.loc placement.pla else b

/-- Empty every point whose chain has no liberties, and count them. -/
def removeZeroLiberty (b : Board) : Board × Int :=
  b.locs.foldl (fun (b, numRemoved) loc =>
    if (b.colors loc).IsStone ∧ b.getNumLiberties loc = 0 then (b.setColor loc .empty, numRemoved + 1)
    else (b, numRemoved)) (b, 0)

def setStonesTolerant (b : Board) (placements : List Move) : Option (Board × Int) := do
  let b ← (placements.foldl overlay b).regenChainsFromColors
  let (b, numRemoved) := b.removeZeroLiberty
  let b ← if numRemoved > 0 then b.regenChainsFromColors else some b
  return ({ b with koLoc := nullLoc }, numRemoved)

end Board
end KataGo.Game
