import KataGo.Game.Symmetry
import Mathlib.Tactic.IntervalCases

/-! `SymmetryHelpers::invert` and `SymmetryHelpers::compose`, on locations of a rectangular board. -/

namespace KataGo.Game
open KataGo.Lib

namespace SymmetryHelpers

/-- `NUM_SYMMETRIES` -/
def numSymmetries : Nat := 8

/-- `NUM_SYMMETRIES_WITHOUT_TRANSPOSE` -/
def numSymmetriesWithoutTranspose : Nat := 4

def invert (symmetry : Nat) : Nat := if symmetry = 5 then 6 else if symmetry = 6 then 5 else symmetry

def compose (firstSymmetry nextSymmetry : Nat) : Nat :=
  let nextSymmetry :=
    if isTranspose firstSymmetry then (nextSymmetry &&& 4) ||| ((nextSymmetry &&& 2) >>> 1) ||| ((nextSymmetry &&& 1) <<< 1)
    else nextSymmetry
  firstSymmetry ^^^ nextSymmetry

variable {symmetry s t : Nat} {xSize ySize : Nat} {x y : Int}

theorem invert_lt (valid : s < numSymmetries) : invert s < numSymmetries := by
  unfold numSymmetries at valid ⊢
  interval_cases s <;> decide

theorem compose_lt (valid : s < numSymmetries) (valid' : t < numSymmetries) : compose s t < numSymmetries := by
  unfold numSymmetries at valid valid' ⊢
  interval_cases s <;> interval_cases t <;> decide

theorem compose_invert (valid : s < numSymmetries) : compose s (invert s) = 0 := by
  unfold numSymmetries at valid
  interval_cases s <;> rfl

theorem invert_invert (valid : s < numSymmetries) : invert (invert s) = s := by
  unfold numSymmetries at valid
  interval_cases s <;> rfl

theorem invert_eq_zero (valid : s < numSymmetries) : invert s = 0 ↔ s = 0 := by
  unfold numSymmetries at valid
  interval_cases s <;> decide

theorem invert_lt_withoutTranspose (valid : s < numSymmetriesWithoutTranspose) : invert s < numSymmetriesWithoutTranspose := by
  unfold numSymmetriesWithoutTranspose at valid ⊢
  interval_cases s <;> decide

theorem isTranspose_compose (valid : s < numSymmetries) (valid' : t < numSymmetries) :
    isTranspose (compose s t) = (isTranspose s ^^ isTranspose t) := by
  unfold numSymmetries at valid valid'
  interval_cases s <;> interval_cases t <;> rfl

theorem isTranspose_eq_false (valid : s < numSymmetriesWithoutTranspose) : isTranspose s = false := by
  unfold numSymmetriesWithoutTranspose at valid
  interval_cases s <;> rfl

@[simp] theorem symXY_zero : symXY x y xSize ySize 0 = (x, y) := rfl

@[simp] theorem symXSize_zero : symXSize xSize ySize 0 = xSize := rfl

/-- Points of a board go to points of the board of the other shape. -/
theorem symXY_bounds (left : 0 ≤ x ∧ x < xSize) (below : 0 ≤ y ∧ y < ySize) :
    (0 ≤ (symXY x y xSize ySize s).1 ∧ (symXY x y xSize ySize s).1 < symXSize xSize ySize s) ∧
      0 ≤ (symXY x y xSize ySize s).2 ∧ (symXY x y xSize ySize s).2 < symXSize ySize xSize s := by
  unfold symXY symXSize
  cases isTranspose s <;> cases isFlipX s <;> cases isFlipY s <;> simp <;> omega

theorem symXSize_compose (valid : s < numSymmetries) (valid' : t < numSymmetries) :
    symXSize (symXSize xSize ySize s) (symXSize ySize xSize s) t = symXSize xSize ySize (compose s t) := by
  unfold symXSize
  rw [isTranspose_compose valid valid']
  cases isTranspose s <;> cases isTranspose t <;> rfl

/-- The coordinates under one symmetry and then another. -/
theorem symXY_compose (valid : s < numSymmetries) (valid' : t < numSymmetries) :
    symXY (symXY x y xSize ySize s).1 (symXY x y xSize ySize s).2 (symXSize xSize ySize s) (symXSize ySize xSize s) t =
      symXY x y xSize ySize (compose s t) := by
  unfold numSymmetries at valid valid'
  interval_cases s <;> interval_cases t <;> simp [symXY, symXSize, compose, isTranspose, isFlipX, isFlipY] <;> omega

section Locations

theorem ofXY_proper (left : 0 ≤ x) (below : 0 ≤ y) :
    ¬(Location.ofXY x y xSize = nullLoc ∨ Location.ofXY x y xSize = passLoc) := by
  have rows : 0 ≤ y * ((xSize : Int) + 1) := Int.mul_nonneg below (by omega)
  have expanded : (x + 1) + (y + 1) * ((xSize : Int) + 1) = x + 1 + y * ((xSize : Int) + 1) + xSize + 1 := by ring
  have least : 2 ≤ (x + 1) + (y + 1) * ((xSize : Int) + 1) := by omega
  rintro (zero | one)
  · exact absurd (least.trans_eq zero) (by decide)
  · exact absurd (least.trans_eq one) (by decide)

theorem getSymLoc_ofXY (left : 0 ≤ x ∧ x < xSize) (below : 0 ≤ y) :
    getSymLoc (Location.ofXY x y xSize) xSize ySize s = getSymLocXY x y xSize ySize s := by
  obtain ⟨column, row⟩ := getXY_ofXY left below
  rw [getSymLoc, if_neg (ofXY_proper left.1 below), column, row]

theorem getSymLoc_off {loc : Loc} (off : loc = nullLoc ∨ loc = passLoc) : getSymLoc loc xSize ySize s = loc := if_pos off

theorem getSymLoc_zero {loc : Loc} (onBoard : loc ∈ boardLocs xSize ySize) : getSymLoc loc xSize ySize 0 = loc := by
  obtain ⟨x, y, left, below, rfl⟩ := mem_boardLocs_ofXY.mp onBoard
  rw [getSymLoc_ofXY left below.1]
  rfl

theorem getSymLoc_mem {loc : Loc} (onBoard : loc ∈ boardLocs xSize ySize) :
    getSymLoc loc xSize ySize s ∈ boardLocs (symXSize xSize ySize s) (symXSize ySize xSize s) := by
  obtain ⟨x, y, left, below, rfl⟩ := mem_boardLocs_ofXY.mp onBoard
  rw [getSymLoc_ofXY left below.1]
  obtain ⟨left', below'⟩ := symXY_bounds (s := s) left below
  exact mem_boardLocs_ofXY.mpr ⟨_, _, left', below', rfl⟩

/-- A location of the board, `NULL_LOC` or `PASS_LOC`. -/
theorem getSymLoc_compose {loc : Loc} (valid : s < numSymmetries) (valid' : t < numSymmetries)
    (known : loc ∈ boardLocs xSize ySize ∨ loc = nullLoc ∨ loc = passLoc) :
    getSymLoc (getSymLoc loc xSize ySize s) (symXSize xSize ySize s) (symXSize ySize xSize s) t =
      getSymLoc loc xSize ySize (compose s t) := by
  rcases known with onBoard | off
  · obtain ⟨x, y, left, below, rfl⟩ := mem_boardLocs_ofXY.mp onBoard
    obtain ⟨left', below'⟩ := symXY_bounds (s := s) left below
    rw [getSymLoc_ofXY left below.1, getSymLoc_ofXY left below.1]
    show getSymLoc (Location.ofXY _ _ _) _ _ t = _
    rw [getSymLoc_ofXY left' below'.1, getSymLocXY, getSymLocXY, symXY_compose valid valid', symXSize_compose valid valid']
  · rw [getSymLoc_off off, getSymLoc_off off, getSymLoc_off off]

theorem getSymLoc_invert {loc : Loc} (valid : s < numSymmetries)
    (known : loc ∈ boardLocs xSize ySize ∨ loc = nullLoc ∨ loc = passLoc) :
    getSymLoc (getSymLoc loc xSize ySize s) (symXSize xSize ySize s) (symXSize ySize xSize s) (invert s) = loc := by
  rw [getSymLoc_compose valid (invert_lt valid) known, compose_invert valid]
  rcases known with onBoard | off
  · exact getSymLoc_zero onBoard
  · exact getSymLoc_off off

end Locations
end SymmetryHelpers
end KataGo.Game
