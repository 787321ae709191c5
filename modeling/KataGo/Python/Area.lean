import KataGo.Game.Area
import KataGo.Lib.DepthFirst
import KataGo.Python.Board

/-! Area scoring in `python/katago/game/board.py`. A region is recorded as on the C++ side; the search through
it is a recursion here, with `arrsize` rounds for its depth. `list(set(...))` leaves the order of the heads open,
which nothing depends on. -/

namespace KataGo.Python
open KataGo.Lib CircularList
open KataGo.Game (Color Player getOpp Loc Region RegionBuild)

/-- The arrays that all regions share, and the regions found so far. No head is `PASS_LOC`, which stands
for `none` in `regionHeadByLoc`. -/
structure RegionScan where
  regionHeadByLoc : Loc → Option Loc
  nextEmptyOrOpp : Loc → Loc
  regions : List Region
  atLeastOnePla : Bool

/-- Whether a group has been killed is kept by its head instead of by its index. -/
structure Elimination where
  bordersNonPassAlivePlaByHead : Loc → Bool
  plaHasBeenKilled : Loc → Bool
  killedAnything : Bool

namespace Board

section Regions

variable (b : Board) (pla : Player) (isMultiStoneSuicideLegal : Bool)

def isAdjacentToPlaHead (loc plaHead : Loc) : Bool := (b.adj loc).any fun a => b.board a = pla ∧ b.groupHead a = plaHead

def isEmptyOrOpp (loc : Loc) : Bool := b.board loc = .empty ∨ b.board loc = getOpp pla

/-- What a point adds to the record of its region. -/
def addToRegion (region : Region) (loc : Loc) : Region where
  head := region.head
  vitalForPlaHeads :=
    if isMultiStoneSuicideLegal ∨ b.board loc = .empty then
      region.vitalForPlaHeads.filter fun plaHead => b.isAdjacentToPlaHead pla loc plaHead
    else region.vitalForPlaHeads
  numInternalSpacesMax2 :=
    if region.numInternalSpacesMax2 < 2 then
      if (b.adj loc).any fun a => b.board a = pla then region.numInternalSpacesMax2 else region.numInternalSpacesMax2 + 1
    else region.numInternalSpacesMax2
  containsOpp := if b.board loc = getOpp pla then true else region.containsOpp

/-- What a call of `buildRegion` does at a location before it recurses. -/
def visitRegion (s : RegionBuild) (loc : Loc) : RegionBuild where
  nextEmptyOrOpp := Function.update s.nextEmptyOrOpp loc s.tailTarget
  tailTarget := loc
  region := b.addToRegion pla isMultiStoneSuicideLegal s.region loc

/-- The heads of the groups next to a point, each once. -/
def adjacentPlaHeads (loc : Loc) : List Loc :=
  (b.adj loc).foldl (fun heads adj =>
    if b.board adj = pla ∧ b.groupHead adj ∉ heads then heads ++ [b.groupHead adj] else heads) []

/-- Trace the region of an empty point, and close the circular list of its points. -/
def buildRegion (scan : RegionScan) (loc : Loc) : Option RegionScan := do
  let s ← DepthFirst.trace b.adj (b.isEmptyOrOpp pla) loc (b.visitRegion pla isMultiStoneSuicideLegal) (b.arrsize + 1)
    ⟨scan.regionHeadByLoc, ⟨scan.nextEmptyOrOpp, loc, ⟨loc, b.adjacentPlaHeads pla loc, 0, false⟩⟩⟩ loc
  return { scan with
    regionHeadByLoc := s.labels
    nextEmptyOrOpp := Function.update s.found.nextEmptyOrOpp loc s.found.tailTarget
    regions := scan.regions ++ [s.found.region] }

def scanLoc (scan : RegionScan) (loc : Loc) : Option RegionScan :=
  if scan.regionHeadByLoc loc ≠ none then some scan
  else if b.board loc ≠ .empty then
    some { scan with atLeastOnePla := scan.atLeastOnePla || decide (b.board loc = pla) }
  else b.buildRegion pla isMultiStoneSuicideLegal scan loc

def findRegions : Option RegionScan :=
  b.locs.foldlM (b.scanLoc pla isMultiStoneSuicideLegal) ⟨fun _ => none, fun _ => passLoc, [], false⟩

end Regions

def allPlaHeads (b : Board) (pla : Player) : List Loc := ((b.locs.filter fun loc => b.board loc = pla).map b.groupHead).dedup

section Elimination

variable (b : Board) (pla : Player) (scan : RegionScan)

/-- The vital liberties of every head, counted afresh. -/
def vitalCountByPlaHead (flags : Loc → Bool) (regions : List Region) : Loc → Int :=
  regions.foldl (fun counts region =>
    if flags region.head then counts
    else region.vitalForPlaHeads.foldl (fun counts plaHead => Function.update counts plaHead (counts plaHead + 1)) counts)
    fun _ => 0

/-- A neighbour of a killed group: its region borders on it. -/
def spoilRegion (flags : Loc → Bool) (adj : Loc) : Loc → Bool :=
  if b.isEmptyOrOpp pla adj then Function.update flags ((scan.regionHeadByLoc adj).getD passLoc) true else flags

/-- Kill a group that had less than two vital liberties when they were counted, unless it has been killed. -/
def killHead (counts : Loc → Int) (s : Elimination) (plaHead : Loc) : Option Elimination :=
  if s.plaHasBeenKilled plaHead then some s
  else if counts plaHead < 2 then do
    let group ← b.groupLocs plaHead
    return {
      bordersNonPassAlivePlaByHead := (group.flatMap b.adj).foldl (b.spoilRegion pla scan) s.bordersNonPassAlivePlaByHead
      plaHasBeenKilled := Function.update s.plaHasBeenKilled plaHead true
      killedAnything := true }
  else some s

/-- One walk over all heads for each round, until nothing is killed. -/
def eliminate : Nat → Elimination → Option Elimination
  | 0, _ => none
  | fuel + 1, s => do
      let counts := vitalCountByPlaHead s.bordersNonPassAlivePlaByHead scan.regions
      let s ← (b.allPlaHeads pla).foldlM (b.killHead pla scan counts) { s with killedAnything := false }
      if s.killedAnything then eliminate fuel s else some s

end Elimination

section Marking

variable (b : Board) (pla : Player)

def markAlive (s : Elimination) (result : Loc → Color) (plaHead : Loc) : Option (Loc → Color) :=
  if s.plaHasBeenKilled plaHead then some result
  else do
    let group ← b.groupLocs plaHead
    return group.foldl (fun result cur => Function.update result cur pla) result

/-- All territory is marked alike, whatever has been marked there. -/
def markRegion (safeBigTerritories unsafeBigTerritories : Bool) (scan : RegionScan) (s : Elimination)
    (result : Loc → Color) (region : Region) : Option (Loc → Color) :=
  let bordersAlive := scan.atLeastOnePla && !s.bordersNonPassAlivePlaByHead region.head
  let shouldMark := (decide (region.numInternalSpacesMax2 ≤ 1) && bordersAlive) ||
    (safeBigTerritories && !region.containsOpp && bordersAlive) ||
    (unsafeBigTerritories && scan.atLeastOnePla && !region.containsOpp)
  if shouldMark then do
    let points ← walk scan.nextEmptyOrOpp b.arrsize region.head
    return points.foldl (fun result cur => Function.update result cur pla) result
  else some result

def calculateAreaForPla (safeBigTerritories unsafeBigTerritories isMultiStoneSuicideLegal : Bool)
    (result : Loc → Color) : Option (Loc → Color) := do
  let scan ← b.findRegions pla isMultiStoneSuicideLegal
  let s ← b.eliminate pla scan (b.arrsize + 1) ⟨fun _ => false, fun _ => false, false⟩
  let result ← (b.allPlaHeads pla).foldlM (b.markAlive pla s) result
  scan.regions.foldlM (b.markRegion pla safeBigTerritories unsafeBigTerritories scan s) result

end Marking

section DameTouching

variable (b : Board) (basicArea : Loc → Color)

/-- Next to a neutral point. -/
def touchesDame (loc : Loc) : Bool := (b.adj loc).any fun a => b.board a = .empty ∧ basicArea a = .empty

/-- Label the rest of the area of `loc`. -/
def fillBasicArea {ι : Type} (i : ι) (labels : Loc → Option ι) (loc : Loc) : Option (Loc → Option ι) :=
  (Search.search b.adj (fun a => basicArea a = basicArea loc) i (fun _ _ => ()) (b.arrsize + 1) labels () loc).map
    Search.State.labels

def markDameTouching (isDameTouching : Loc → Option Unit) (loc : Loc) : Option (Loc → Option Unit) :=
  if basicArea loc ≠ .empty ∧ isDameTouching loc = none ∧ b.touchesDame basicArea loc then
    b.fillBasicArea basicArea () isDameTouching loc
  else some isDameTouching

/-- Copy an area that touches no neutral point. The result holds nothing that is not in the basic area. -/
def copyArea (isDameTouching : Loc → Option Unit) (result : Loc → Option Color) (loc : Loc) :
    Option (Loc → Option Color) :=
  if basicArea loc ≠ .empty ∧ isDameTouching loc = none ∧ result loc ≠ some (basicArea loc) then
    b.fillBasicArea basicArea (basicArea loc) result loc
  else some result

def calculateNonDameTouchingAreaHelper : Option (Loc → Color) := do
  let isDameTouching ← b.locs.foldlM (b.markDameTouching basicArea) fun _ => none
  let result ← b.locs.foldlM (b.copyArea basicArea isDameTouching) fun _ => none
  return fun loc => (result loc).getD .empty

/-- Stones are given to their owner where nobody has claimed them. -/
def addStones (b : Board) (basicArea : Loc → Color) : Loc → Color :=
  b.locs.foldl (fun basicArea loc =>
    if basicArea loc = .empty then Function.update basicArea loc (b.board loc) else basicArea) basicArea

/-- Copy the points of the area for which a test holds. -/
def keepArea (keep : Loc → Bool) (result : Loc → Color) : Loc → Color :=
  b.locs.foldl (fun result loc => if keep loc then Function.update result loc (basicArea loc) else result) result

end DameTouching

def calculateArea (b : Board) (nonPassAliveStones safeBigTerritories unsafeBigTerritories isMultiStoneSuicideLegal : Bool) :
    Option (Loc → Color) := do
  let result ← b.calculateAreaForPla .black safeBigTerritories unsafeBigTerritories isMultiStoneSuicideLegal
    fun _ => .empty
  let result ← b.calculateAreaForPla .white safeBigTerritories unsafeBigTerritories isMultiStoneSuicideLegal result
  return if nonPassAliveStones then b.addStones result else result

def calculateNonDameTouchingArea (b : Board) (keepTerritories keepStones isMultiStoneSuicideLegal : Bool) :
    Option (Loc → Color) := do
  let basicArea ← b.calculateAreaForPla .black true true isMultiStoneSuicideLegal fun _ => .empty
  let basicArea ← b.calculateAreaForPla .white true true isMultiStoneSuicideLegal basicArea
  let basicArea := b.addStones basicArea
  let result ← b.calculateNonDameTouchingAreaHelper basicArea
  let result := if keepTerritories then
      b.keepArea basicArea (fun loc => basicArea loc ≠ .empty ∧ basicArea loc ≠ b.board loc) result
    else result
  let result := if keepStones then
      b.keepArea basicArea (fun loc => basicArea loc ≠ .empty ∧ basicArea loc = b.board loc) result
    else result
  return result

end Board
end KataGo.Python
