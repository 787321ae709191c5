import KataGo.Game.Placement
import KataGo.Lib.Relocation

/-! The eight symmetries of a board, after `SymmetryHelpers` in `cpp/neuralnet/nninputs.cpp`:
the bits of a symmetry flip the rows, flip the columns and exchange the two, which turns a
board of one shape into one of the other. -/

namespace KataGo.Game
open KataGo.Lib Labelling

namespace Location

/-- The location of coordinates that may be off the board. -/
def ofXY (x y : Int) (xSize : Nat) : Loc := (x + 1) + (y + 1) * (xSize + 1)

/-- The remainder and the quotient are those of C. -/
def getX (loc : Int) (xSize : Nat) : Int := loc.tmod (xSize + 1) - 1

def getY (loc : Int) (xSize : Nat) : Int := loc.tdiv (xSize + 1) - 1

end Location

namespace SymmetryHelpers

def isTranspose (symmetry : Nat) : Bool := symmetry &&& 4 ≠ 0

def isFlipX (symmetry : Nat) : Bool := symmetry &&& 2 ≠ 0

def isFlipY (symmetry : Nat) : Bool := symmetry &&& 1 ≠ 0

/-- The coordinates under a symmetry. -/
def symXY (x y : Int) (xSize ySize : Nat) (symmetry : Nat) : Int × Int :=
  let x := if isFlipX symmetry then xSize - x - 1 else x
  let y := if isFlipY symmetry then ySize - y - 1 else y
  if isTranspose symmetry then (y, x) else (x, y)

def symXSize (xSize ySize : Nat) (symmetry : Nat) : Nat := if isTranspose symmetry then ySize else xSize

def getSymLocXY (x y : Int) (xSize ySize : Nat) (symmetry : Nat) : Loc :=
  let xy := symXY x y xSize ySize symmetry
  Location.ofXY xy.1 xy.2 (symXSize xSize ySize symmetry)

def getSymLoc (loc : Loc) (xSize ySize : Nat) (symmetry : Nat) : Loc :=
  if loc = nullLoc ∨ loc = passLoc then loc
  else getSymLocXY (Location.getX loc xSize) (Location.getY loc xSize) xSize ySize symmetry

/-- The coordinates of the board, row by row. -/
def boardXYs (xSize ySize : Nat) : List (Nat × Nat) :=
  (List.range ySize).flatMap fun y => (List.range xSize).map fun x => (x, y)

variable [Zobrist]

/-- Copy one point. The placement has to succeed. -/
def symPoint (b : Board) (symmetry : Nat) (s : Board × Loc) (xy : Nat × Nat) : Option (Board × Loc) := do
  let loc := Location.getLoc xy.1 xy.2 b.xSize
  let symLoc := getSymLocXY xy.1 xy.2 b.xSize b.ySize symmetry
  let (symBoard, suc) ← s.1.setStoneFailIfNoLibs symLoc (b.colors loc)
  guard suc
  return (symBoard, if loc = b.koLoc then symLoc else s.2)

def getSymBoard (b : Board) (symmetry : Nat) : Option Board := do
  let symBoard ← init (symXSize b.xSize b.ySize symmetry) (symXSize b.ySize b.xSize symmetry)
  let (symBoard, symKoLoc) ← (boardXYs b.xSize b.ySize).foldlM (symPoint b symmetry) (symBoard, nullLoc)
  return if symKoLoc ≠ nullLoc then { symBoard with koLoc := symKoLoc } else symBoard

end SymmetryHelpers

section Geometry
open SymmetryHelpers

variable {xSize ySize symmetry : Nat} {p q : Loc} {x y x' y' : Int}

theorem mem_boardXYs {xy : Nat × Nat} : xy ∈ boardXYs xSize ySize ↔ xy.1 < xSize ∧ xy.2 < ySize := by
  obtain ⟨x, y⟩ := xy
  simp only [boardXYs, List.mem_flatMap, List.mem_range, List.mem_map, Prod.mk.injEq]
  constructor
  · rintro ⟨j, below, i, left, rfl, rfl⟩
    exact ⟨left, below⟩
  · rintro ⟨left, below⟩
    exact ⟨y, below, x, left, rfl, rfl⟩

theorem boardLocs_eq_map : boardLocs xSize ySize = (boardXYs xSize ySize).map fun xy =>
    Location.getLoc xy.1 xy.2 xSize := by
  simp only [boardLocs, boardXYs, List.map_flatMap, List.map_map]
  rfl

theorem boardXYs_nodup (xSize ySize : Nat) : (boardXYs xSize ySize).Nodup := by
  have locs := boardLocs_nodup xSize ySize
  rw [boardLocs_eq_map] at locs
  exact locs.of_map

theorem ofXY_getLoc (x y : Nat) : Location.ofXY x y xSize = Location.getLoc x y xSize := rfl

/-- Points of the board, by their coordinates. -/
theorem mem_boardLocs_ofXY : p ∈ boardLocs xSize ySize ↔
    ∃ x y : Int, (0 ≤ x ∧ x < xSize) ∧ (0 ≤ y ∧ y < ySize) ∧ p = Location.ofXY x y xSize := by
  rw [mem_boardLocs]
  constructor
  · rintro ⟨y, below, x, left, rfl⟩
    exact ⟨x, y, by omega, by omega, rfl⟩
  · rintro ⟨x, y, ⟨x0, left⟩, ⟨y0, below⟩, rfl⟩
    obtain ⟨x, rfl⟩ := Int.eq_ofNat_of_zero_le x0
    obtain ⟨y, rfl⟩ := Int.eq_ofNat_of_zero_le y0
    exact ⟨y, by omega, x, by omega, rfl⟩

theorem ofXY_injective (left : -1 ≤ x ∧ x < xSize) (left' : -1 ≤ x' ∧ x' < xSize)
    (same : Location.ofXY x y xSize = Location.ofXY x' y' xSize) : x = x' ∧ y = y' :=
  place_injective left left' same

/-- The coordinates can be read off a point of the board. -/
theorem getXY_ofXY (left : 0 ≤ x ∧ x < xSize) (below : 0 ≤ y) :
    Location.getX (Location.ofXY x y xSize) xSize = x ∧ Location.getY (Location.ofXY x y xSize) xSize = y := by
  have total : (0 : Int) ≤ (x + 1) + (y + 1) * (xSize + 1) := by
    have rows := Int.mul_nonneg (show (0 : Int) ≤ y + 1 by omega) (show (0 : Int) ≤ (xSize : Int) + 1 by omega)
    omega
  have remainder : ((x + 1) + (y + 1) * (xSize + 1)) % ((xSize : Int) + 1) = x + 1 := by
    rw [Int.add_mul_emod_self_right, Int.emod_eq_of_lt (by omega) (by omega)]
  have quotient : ((x + 1) + (y + 1) * (xSize + 1)) / ((xSize : Int) + 1) = y + 1 := by
    rw [Int.add_mul_ediv_right _ _ (by omega), Int.ediv_eq_zero_of_lt (by omega) (by omega), zero_add]
  constructor
  · change ((x + 1) + (y + 1) * (xSize + 1)).tmod ((xSize : Int) + 1) - 1 = x
    rw [Int.tmod_eq_emod_of_nonneg total, remainder]
    omega
  · change ((x + 1) + (y + 1) * (xSize + 1)).tdiv ((xSize : Int) + 1) - 1 = y
    rw [Int.tdiv_eq_ediv_of_nonneg total, quotient]
    omega

/-- Neighbours differ by one in one coordinate. -/
theorem ofXY_mem_adjs (left : 0 ≤ x ∧ x < xSize) (left' : 0 ≤ x' ∧ x' < xSize) :
    Location.ofXY x' y' xSize ∈ adjs xSize (Location.ofXY x y xSize) ↔
      x' = x ∧ (y' = y - 1 ∨ y' = y + 1) ∨ y' = y ∧ (x' = x - 1 ∨ x' = x + 1) := by
  have up : Location.ofXY x y xSize - (xSize + 1) = Location.ofXY x (y - 1) xSize := by
    unfold Location.ofXY
    ring
  have down : Location.ofXY x y xSize + (xSize + 1) = Location.ofXY x (y + 1) xSize := by
    unfold Location.ofXY
    ring
  have before : Location.ofXY x y xSize - 1 = Location.ofXY (x - 1) y xSize := by
    unfold Location.ofXY
    ring
  have after : Location.ofXY x y xSize + 1 = Location.ofXY (x + 1) y xSize := by
    unfold Location.ofXY
    ring
  -- The point to the right of a row is the wall to the left of the next one.
  have wrap : Location.ofXY xSize y xSize = Location.ofXY (-1) (y + 1) xSize := by
    unfold Location.ofXY
    ring
  rw [mem_adjs, up, down, before, after]
  constructor
  · rintro (same | same | same | same)
    · have := ofXY_injective (by omega) (by omega) same
      omega
    · have := ofXY_injective (by omega) (by omega) same
      omega
    · by_cases last : x + 1 = xSize
      · rw [last, wrap] at same
        have := ofXY_injective (by omega) (by omega) same
        omega
      · have := ofXY_injective (by omega) (by omega) same
        omega
    · have := ofXY_injective (by omega) (by omega) same
      omega
  · rintro (⟨rfl, rfl | rfl⟩ | ⟨rfl, rfl | rfl⟩)
    · exact .inl rfl
    · exact .inr (.inr (.inr rfl))
    · exact .inr (.inl rfl)
    · exact .inr (.inr (.inl rfl))

end Geometry
end KataGo.Game
