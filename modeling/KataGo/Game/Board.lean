import Mathlib.Logic.Function.Basic
import Mathlib.Data.BitVec
import KataGo.Lib.CircularList
import KataGo.Lib.Flood

/-! The board of `cpp/game/board.h`: its constants, its arrays and the queries that
only read them. Locations are integers, as the source's `short` is signed, and an array
indexed by location is a function. Every loop over a circular list or a flood fill is
given `maxArrSize` rounds, and a run that needs more returns `none`. -/

namespace KataGo.Game
open KataGo.Lib CircularList

inductive Color where
  | empty
  | black
  | white
  | wall
  deriving DecidableEq, Repr

/-- The source's `Player` and `Color` are both `int8_t` with the same two player values. -/
abbrev Player := Color

/-- The source writes this as `c ^ 3`. -/
def getOpp : Color → Color
  | .empty => .wall
  | .black => .white
  | .white => .black
  | .wall => .empty

def Color.IsStone (c : Color) : Prop := c = .black ∨ c = .white

instance (c : Color) : Decidable c.IsStone := inferInstanceAs (Decidable (_ ∨ _))

abbrev Loc := Int

/-- `COMPILE_MAX_BOARD_LEN`, at its default. -/
def maxLen : Nat := 19
def maxPlaySize : Nat := maxLen * maxLen
def maxArrSize : Nat := (maxLen + 1) * (maxLen + 2) + 1

def nullLoc : Int := 0
def passLoc : Int := 1

structure Hash128 where
  hash0 : BitVec 64
  hash1 : BitVec 64
  deriving DecidableEq, Repr

instance : Zero Hash128 := ⟨⟨0, 0⟩⟩
instance : XorOp Hash128 := ⟨fun a b => ⟨a.hash0 ^^^ b.hash0, a.hash1 ^^^ b.hash1⟩⟩

/-- The tables that `initHash` fills from a seeded generator. -/
class Zobrist where
  sizeXHash : Nat → Hash128
  sizeYHash : Nat → Hash128
  boardHash : Loc → Color → Hash128
  playerHash : Color → Hash128

/-- Tables that identify no stones at all. -/
@[reducible] def Zobrist.blank : Zobrist := ⟨fun _ => 0, fun _ => 0, fun _ _ => 0, fun _ => 0⟩

namespace Location

def getLoc (x y : Nat) (xSize : Nat) : Int := (x + 1) + (y + 1) * (xSize + 1)

def getAdjacentOffsets (xSize : Nat) : List Int := [-(xSize + 1), -1, 1, xSize + 1]

end Location

/-- The four neighbours of a location, in the order of `FOREACHADJ`. -/
def adjs (xSize : Nat) (loc : Int) : List Int := (Location.getAdjacentOffsets xSize).map (loc + ·)

/-- The locations of a board in the order of the source's `for y ... for x` loops. -/
def boardLocs (xSize ySize : Nat) : List Int :=
  (List.range ySize).flatMap fun y => (List.range xSize).map fun x => Location.getLoc x y xSize

structure ChainData where
  owner : Player
  numLocs : Int
  numLiberties : Int
  deriving DecidableEq, Repr

@[ext]
structure Board where
  xSize : Nat
  ySize : Nat
  colors : Loc → Color
  chainData : Loc → ChainData
  chainHead : Loc → Loc
  nextInChain : Loc → Loc
  koLoc : Loc
  posHash : Hash128
  numBlackCaptures : Int
  numWhiteCaptures : Int

/-- `num_liberties += delta`. -/
def ChainData.bump (d : ChainData) (delta : Int) : ChainData :=
  { d with numLiberties := d.numLiberties + delta }

structure Move where
  loc : Loc
  pla : Player
  deriving DecidableEq, Repr

structure MoveRecord where
  pla : Player
  loc : Loc
  koLoc : Loc
  capDirs : BitVec 8
  deriving DecidableEq, Repr

variable [Zobrist]

/-- The constructor `Board(x,y)`. The chain arrays start uninitialised. -/
def init (xS yS : Nat) : Option Board :=
  if maxLen < xS ∨ maxLen < yS then none
  else some {
    xSize := xS
    ySize := yS
    colors := (boardLocs xS yS).foldl (fun colors loc => Function.update colors loc .empty) (fun _ => .wall)
    chainData := fun _ => ⟨.empty, 0, 0⟩
    chainHead := fun _ => nullLoc
    nextInChain := fun _ => nullLoc
    koLoc := nullLoc
    posHash := Zobrist.sizeXHash xS ^^^ Zobrist.sizeYHash yS
    numBlackCaptures := 0
    numWhiteCaptures := 0 }

namespace Board

def adj (b : Board) (loc : Loc) : List Loc := adjs b.xSize loc

def locs (b : Board) : List Loc := boardLocs b.xSize b.ySize

def getChainSize (b : Board) (loc : Loc) : Int := (b.chainData (b.chainHead loc)).numLocs

def getNumLiberties (b : Board) (loc : Loc) : Int := (b.chainData (b.chainHead loc)).numLiberties

def getNumImmediateLiberties (b : Board) (loc : Loc) : Int :=
  ((b.adj loc).countP fun a => b.colors a = .empty)

/-- `loc` is empty and next to a stone of the chain with this head. Assumes `loc` is empty. -/
def isLibertyOf (b : Board) (loc head : Loc) : Bool :=
  (b.adj loc).any fun a => b.colors a = b.colors head ∧ b.chainHead a = head

def isSuicide (b : Board) (loc : Loc) (pla : Player) : Bool :=
  if loc = passLoc then false
  else !(b.adj loc).any fun a =>
    if b.colors a = .empty then true
    else if b.colors a = pla then decide (b.getNumLiberties a > 1)
    else if b.colors a = getOpp pla then decide (b.getNumLiberties a = 1)
    else false

def isIllegalSuicide (b : Board) (loc : Loc) (pla : Player) (isMultiStoneSuicideLegal : Bool) : Bool :=
  !(b.adj loc).any fun a =>
    if b.colors a = .empty then true
    else if b.colors a = pla then isMultiStoneSuicideLegal || decide (b.getNumLiberties a > 1)
    else if b.colors a = getOpp pla then decide (b.getNumLiberties a = 1)
    else false

def isKoBanned (b : Board) (loc : Loc) : Bool := loc = b.koLoc

def isOnBoard (b : Board) (loc : Loc) : Bool :=
  0 ≤ loc ∧ loc < maxArrSize ∧ b.colors loc ≠ .wall

def isLegalIgnoringKo (b : Board) (loc : Loc) (pla : Player) (isMultiStoneSuicideLegal : Bool) : Bool :=
  if pla ≠ .black ∧ pla ≠ .white then false
  else loc = passLoc || (decide (0 ≤ loc) && decide (loc < maxArrSize) && decide (b.colors loc = .empty) &&
    !b.isIllegalSuicide loc pla isMultiStoneSuicideLegal)

def isLegal (b : Board) (loc : Loc) (pla : Player) (isMultiStoneSuicideLegal : Bool) : Bool :=
  if pla ≠ .black ∧ pla ≠ .white then false
  else loc = passLoc || (decide (0 ≤ loc) && decide (loc < maxArrSize) && decide (b.colors loc = .empty) &&
    !b.isKoBanned loc && !b.isIllegalSuicide loc pla isMultiStoneSuicideLegal)

def wouldBeCapture (b : Board) (loc : Loc) (pla : Player) : Bool :=
  if b.colors loc ≠ .empty then false
  else (b.adj loc).any fun a => b.colors a = getOpp pla ∧ b.getNumLiberties a = 1

end Board
end KataGo.Game
