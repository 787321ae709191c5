import KataGo.Game.Mutators
import KataGo.Lib.Search

/-! Area scoring: the part of `cpp/game/board.cpp` that finds the stones of a player that
cannot be captured and the territory around them. The source keeps the lists of all
regions in one array with a start and a length for each; here every region has its own. -/

namespace KataGo.Game
open KataGo.Lib CircularList

/-- A maximal set of connected points without stones of the player. -/
structure Region where
  head : Loc
  vitalForPlaHeads : List Loc
  numInternalSpacesMax2 : Nat
  containsOpp : Bool

/-- The arrays that all regions share, and the regions found so far. -/
structure RegionScan where
  regionIdxByLoc : Loc → Option Nat
  nextEmptyOrOpp : Loc → Loc
  regions : List Region
  atLeastOnePla : Bool

/-- What the search through one region collects. -/
structure RegionBuild where
  nextEmptyOrOpp : Loc → Loc
  tailTarget : Loc
  region : Region

/-- The variables of the elimination of chains. Whether a chain has been killed is kept by its
head instead of by the index of the head in the list of all heads. -/
structure Elimination where
  bordersNonPassAlivePlaByHead : Loc → Bool
  vitalCountByPlaHead : Loc → Int
  plaHasBeenKilled : Loc → Bool
  killedAnything : Bool

namespace Board

def isAdjacentToPla (b : Board) (loc : Loc) (pla : Player) : Bool := (b.adj loc).any fun a => b.colors a = pla

def isAdjacentToPlaHead (b : Board) (pla : Player) (loc plaHead : Loc) : Bool :=
  (b.adj loc).any fun a => b.colors a = pla ∧ b.chainHead a = plaHead

/-- Not a stone of the player, and not a wall. -/
def isEmptyOrOpp (b : Board) (pla : Player) (loc : Loc) : Bool :=
  b.colors loc = .empty ∨ b.colors loc = getOpp pla

section Regions

variable (b : Board) (pla : Player) (isMultiStoneSuicideLegal : Bool)

/-- Drop the chains that the region turns out not to be vital for. Without suicide only the empty
points count. -/
def filterVital (loc : Loc) (heads : List Loc) : List Loc :=
  if heads ≠ [] ∧ (isMultiStoneSuicideLegal ∨ b.colors loc = .empty) then
    heads.filter fun plaHead => b.isAdjacentToPlaHead pla loc plaHead
  else heads

/-- What a point adds to the record of its region. -/
def addToRegion (region : Region) (loc : Loc) : Region where
  head := region.head
  vitalForPlaHeads := b.filterVital pla isMultiStoneSuicideLegal loc region.vitalForPlaHeads
  numInternalSpacesMax2 :=
    if region.numInternalSpacesMax2 < 2 ∧ ¬ b.isAdjacentToPla loc pla then region.numInternalSpacesMax2 + 1
    else region.numInternalSpacesMax2
  containsOpp := if b.colors loc = getOpp pla then true else region.containsOpp

/-- One round of the search, on the point that was popped off the queue. -/
def visitRegion (s : RegionBuild) (loc : Loc) : RegionBuild where
  nextEmptyOrOpp := Function.update s.nextEmptyOrOpp loc s.tailTarget
  tailTarget := loc
  region := b.addToRegion pla isMultiStoneSuicideLegal s.region loc

/-- The heads of the chains next to a point, each once. -/
def adjacentPlaHeads (loc : Loc) : List Loc :=
  (b.adj loc).foldl (fun heads adj =>
    if b.colors adj = pla ∧ b.chainHead adj ∉ heads then heads ++ [b.chainHead adj] else heads) []

/-- Search the region of an empty point, and close the circular list of its points. -/
def buildRegion (scan : RegionScan) (loc : Loc) : Option RegionScan := do
  let regionIdx := scan.regions.length
  let s ← Search.search b.adj (b.isEmptyOrOpp pla) regionIdx (b.visitRegion pla isMultiStoneSuicideLegal)
    (maxArrSize + 1) scan.regionIdxByLoc ⟨scan.nextEmptyOrOpp, loc, ⟨loc, b.adjacentPlaHeads pla loc, 0, false⟩⟩ loc
  return { scan with
    regionIdxByLoc := s.labels
    nextEmptyOrOpp := Function.update s.found.nextEmptyOrOpp loc s.found.tailTarget
    regions := scan.regions ++ [s.found.region] }

def scanLoc (scan : RegionScan) (loc : Loc) : Option RegionScan :=
  if scan.regionIdxByLoc loc ≠ none then some scan
  else if b.colors loc ≠ .empty then
    some { scan with atLeastOnePla := scan.atLeastOnePla || decide (b.colors loc = pla) }
  else b.buildRegion pla isMultiStoneSuicideLegal scan loc

def findRegions : Option RegionScan :=
  b.locs.foldlM (b.scanLoc pla isMultiStoneSuicideLegal) ⟨fun _ => none, fun _ => nullLoc, [], false⟩

end Regions

/-- All locations of the arrays, in order. -/
def arrayLocs : List Loc := (List.range maxArrSize).map Int.ofNat

def allPlaHeads (b : Board) (pla : Player) : List Loc :=
  arrayLocs.filter fun loc => b.colors loc = pla ∧ b.chainHead loc = loc

section Elimination

variable (b : Board) (pla : Player) (scan : RegionScan)

/-- The head of the region of a location. -/
def regionHeadOf (regionIdx : Nat) : Loc := (scan.regions[regionIdx]?.map Region.head).getD nullLoc

def vitalHeadsOf (regionIdx : Nat) : List Loc := (scan.regions[regionIdx]?.map Region.vitalForPlaHeads).getD []

def addVital (delta : Int) (counts : Loc → Int) (heads : List Loc) : Loc → Int :=
  heads.foldl (fun counts plaHead => Function.update counts plaHead (counts plaHead + delta)) counts

/-- A neighbour of a killed chain: its region is not vital any more. -/
def spoilRegion (s : Elimination) (adj : Loc) : Elimination :=
  match scan.regionIdxByLoc adj with
  | none => s
  | some regionIdx =>
      if ¬ s.bordersNonPassAlivePlaByHead (regionHeadOf scan regionIdx) ∧ b.isEmptyOrOpp pla adj then
        { s with
          bordersNonPassAlivePlaByHead :=
            Function.update s.bordersNonPassAlivePlaByHead (regionHeadOf scan regionIdx) true
          vitalCountByPlaHead := addVital (-1) s.vitalCountByPlaHead (vitalHeadsOf scan regionIdx) }
      else s

/-- Kill a chain that has less than two vital regions, unless it has been killed. -/
def killHead (s : Elimination) (plaHead : Loc) : Option Elimination :=
  if s.plaHasBeenKilled plaHead then some s
  else if s.vitalCountByPlaHead plaHead < 2 then do
    let chain ← b.chainLocs plaHead
    return (chain.flatMap b.adj).foldl (b.spoilRegion pla scan)
      { s with plaHasBeenKilled := Function.update s.plaHasBeenKilled plaHead true, killedAnything := true }
  else some s

/-- One walk over all heads for each round, until nothing is killed. -/
def eliminate : Nat → Elimination → Option Elimination
  | 0, _ => none
  | fuel + 1, s => do
      let s ← (b.allPlaHeads pla).foldlM (b.killHead pla scan) { s with killedAnything := false }
      if s.killedAnything then eliminate fuel s else some s

/-- Before the first round every region counts for the chains that it is vital for. -/
def startElimination : Elimination where
  bordersNonPassAlivePlaByHead := fun _ => false
  vitalCountByPlaHead :=
    scan.regions.foldl (fun counts region => addVital 1 counts region.vitalForPlaHeads) fun _ => 0
  plaHasBeenKilled := fun _ => false
  killedAnything := false

end Elimination

section Marking

variable (b : Board) (pla : Player)

def markAlive (s : Elimination) (result : Loc → Color) (plaHead : Loc) : Option (Loc → Color) :=
  if s.plaHasBeenKilled plaHead then some result
  else do
    let chain ← b.chainLocs plaHead
    return chain.foldl (fun result cur => Function.update result cur pla) result

/-- Territory that is safe is marked whatever the opponent has marked, other territory only where
nothing is marked. -/
def markRegion (safeBigTerritories unsafeBigTerritories : Bool) (scan : RegionScan) (s : Elimination)
    (result : Loc → Color) (region : Region) : Option (Loc → Color) :=
  let bordersAlive := !s.bordersNonPassAlivePlaByHead region.head && scan.atLeastOnePla
  let shouldMark := (decide (region.numInternalSpacesMax2 ≤ 1) && bordersAlive) ||
    (safeBigTerritories && !region.containsOpp && bordersAlive)
  let shouldMarkIfEmpty := unsafeBigTerritories && !region.containsOpp && scan.atLeastOnePla
  if shouldMark then do
    let points ← walk scan.nextEmptyOrOpp maxArrSize region.head
    return points.foldl (fun result cur => Function.update result cur pla) result
  else if shouldMarkIfEmpty then do
    let points ← walk scan.nextEmptyOrOpp maxArrSize region.head
    return points.foldl (fun result cur =>
      if result cur = .empty then Function.update result cur pla else result) result
  else some result

def calculateAreaForPla (safeBigTerritories unsafeBigTerritories isMultiStoneSuicideLegal : Bool)
    (result : Loc → Color) : Option (Loc → Color) := do
  let scan ← b.findRegions pla isMultiStoneSuicideLegal
  let s ← b.eliminate pla scan maxArrSize (startElimination scan)
  let result ← (b.allPlaHeads pla).foldlM (b.markAlive pla s) result
  scan.regions.foldlM (markRegion pla safeBigTerritories unsafeBigTerritories scan s) result

end Marking

/-- Stones are marked with their own colour where nothing else is marked. -/
def markNonPassAliveStones (b : Board) (result : Loc → Color) : Loc → Color :=
  b.locs.foldl (fun result loc =>
    if result loc = .empty then Function.update result loc (b.colors loc) else result) result

/-- The two players one after the other, on an empty result. -/
def calculateAreaInOrder (b : Board) (first second : Player)
    (nonPassAliveStones safeBigTerritories unsafeBigTerritories isMultiStoneSuicideLegal : Bool) :
    Option (Loc → Color) := do
  let result ← b.calculateAreaForPla first safeBigTerritories unsafeBigTerritories isMultiStoneSuicideLegal
    fun _ => .empty
  let result ← b.calculateAreaForPla second safeBigTerritories unsafeBigTerritories isMultiStoneSuicideLegal result
  if nonPassAliveStones then return b.markNonPassAliveStones result else return result

def calculateArea (b : Board)
    (nonPassAliveStones safeBigTerritories unsafeBigTerritories isMultiStoneSuicideLegal : Bool) :
    Option (Loc → Color) :=
  b.calculateAreaInOrder .black .white nonPassAliveStones safeBigTerritories unsafeBigTerritories
    isMultiStoneSuicideLegal

end Board
end KataGo.Game
