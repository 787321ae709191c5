import KataGo.Game.SymmetryGroup
import Mathlib.Data.List.ProdSigma
import Mathlib.Tactic.LinearCombination

/-! `copyWithSymmetry` of `cpp/neuralnet/nninputs.cpp`, which copies a tensor and moves its cells
the way a symmetry moves the points of a board. An array is a function of the index. -/

namespace KataGo.Game
open KataGo.Lib

namespace SymmetryHelpers

/-- Where the rows and the columns of the copy start, and how far apart they are. -/
structure Strides where
  hBaseNew : Int
  hStrideNew : Int
  wBaseNew : Int
  wStrideNew : Int

def newStrides (hSize wSize : Nat) (hStride wStride : Int) (symmetry : Nat) (reverse : Bool) : Strides :=
  let transpose := isTranspose symmetry && hSize = wSize
  let swapped := transpose && !reverse
  let flipX := if swapped then isFlipY symmetry else isFlipX symmetry
  let flipY := if swapped then isFlipX symmetry else isFlipY symmetry
  let hBaseNew := if flipY then (hSize - 1) * hStride else 0
  let hStrideNew := if flipY then -hStride else hStride
  let wBaseNew := if flipX then (wSize - 1) * wStride else 0
  let wStrideNew := if flipX then -wStride else wStride
  if transpose then ⟨hBaseNew, wStrideNew, wBaseNew, hStrideNew⟩ else ⟨hBaseNew, hStrideNew, wBaseNew, wStrideNew⟩

/-- The assignments in their order: the index that is written, and the index that is read. -/
def writesWithSymmetry (nSize hSize wSize cSize : Nat) (useNHWC : Bool) (symmetry : Nat) (reverse : Bool) : List (Int × Int) :=
  if useNHWC then
    let nStride : Int := hSize * wSize * cSize
    let hStride : Int := wSize * cSize
    let wStride : Int := cSize
    let s := newStrides hSize wSize hStride wStride symmetry reverse
    (List.range nSize).flatMap fun n : Nat => (List.range hSize).flatMap fun h : Nat => (List.range wSize).flatMap fun w : Nat =>
      (List.range cSize).map fun c : Nat =>
        let nhOld := n * nStride + h * hStride
        let nhNew := n * nStride + s.hBaseNew + h * s.hStrideNew
        let nhwOld := nhOld + w * wStride
        let nhwNew := nhNew + s.wBaseNew + w * s.wStrideNew
        (nhwNew + c, nhwOld + c)
  else
    let ncSize := nSize * cSize
    let ncStride : Int := hSize * wSize
    let hStride : Int := wSize
    let wStride : Int := 1
    let s := newStrides hSize wSize hStride wStride symmetry reverse
    (List.range ncSize).flatMap fun nc : Nat => (List.range hSize).flatMap fun h : Nat => (List.range wSize).map fun w : Nat =>
      let nchOld := nc * ncStride + h * hStride
      let nchNew := nc * ncStride + s.hBaseNew + h * s.hStrideNew
      let nchwOld := nchOld + w * wStride
      let nchwNew := nchNew + s.wBaseNew + w * s.wStrideNew
      (nchwNew, nchwOld)

variable {α : Type}

/-- Any array may be the destination. -/
def copyWithSymmetry (src dst : Int → α) (nSize hSize wSize cSize : Nat) (useNHWC : Bool) (symmetry : Nat) (reverse : Bool) :
    Int → α :=
  (writesWithSymmetry nSize hSize wSize cSize useNHWC symmetry reverse).foldl
    (fun dst write => Function.update dst write.1 (src write.2)) dst

def copyInputsWithSymmetry (src dst : Int → α) (nSize hSize wSize cSize : Nat) (useNHWC : Bool) (symmetry : Nat) : Int → α :=
  copyWithSymmetry src dst nSize hSize wSize cSize useNHWC symmetry false

def copyOutputsWithSymmetry (src dst : Int → α) (nSize hSize wSize : Nat) (symmetry : Nat) : Int → α :=
  copyWithSymmetry src dst nSize hSize wSize 1 false symmetry true

/-- The index of a cell. -/
def tensorIndex (hSize wSize cSize : Nat) (useNHWC : Bool) (n c y x : Int) : Int :=
  if useNHWC then n * (hSize * wSize * cSize) + y * (wSize * cSize) + x * cSize + c
  else (n * cSize + c) * (hSize * wSize) + y * wSize + x

/-- The symmetry without its transpose bit, if the tensor is not square. -/
def tensorSymmetry (hSize wSize : Nat) (symmetry : Nat) : Nat := if hSize = wSize then symmetry else symmetry &&& 3

section Radix

variable {a a' A w x x' : Nat}

theorem radix_lt (left : a < A) (below : x < w) : a * w + x < A * w :=
  calc a * w + x < a * w + w := by omega
    _ = (a + 1) * w := by ring
    _ ≤ A * w := Nat.mul_le_mul_right w left

theorem radix_injective (below : x < w) (below' : x' < w) (same : a * w + x = a' * w + x') : a = a' ∧ x = x' := by
  have quotient := congrArg (· / w) same
  have remainder := congrArg (· % w) same
  simp only [Nat.mul_comm _ w, Nat.mul_add_div (show w > 0 by omega), Nat.mul_add_mod, Nat.div_eq_of_lt below,
    Nat.div_eq_of_lt below', Nat.mod_eq_of_lt below, Nat.mod_eq_of_lt below', Nat.add_zero] at quotient remainder
  exact ⟨quotient, remainder⟩

end Radix

section Writes

/-- A block of rows, a row, a column and a place at the point. -/
structure Cell where
  block : Nat
  h : Nat
  w : Nat
  c : Nat
  deriving DecidableEq

namespace Cell

variable {blocks hSize wSize cSize symmetry : Nat} {cell cell' : Cell}

def Inside (blocks hSize wSize cSize : Nat) (cell : Cell) : Prop :=
  cell.block < blocks ∧ cell.h < hSize ∧ cell.w < wSize ∧ cell.c < cSize

def index (hSize wSize cSize : Nat) (cell : Cell) : Nat :=
  ((cell.block * hSize + cell.h) * wSize + cell.w) * cSize + cell.c

def all (blocks hSize wSize cSize : Nat) : List Cell :=
  (List.range blocks ×ˢ List.range hSize ×ˢ List.range wSize ×ˢ List.range cSize).map fun p => ⟨p.1, p.2.1, p.2.2.1, p.2.2.2⟩

theorem mem_all : cell ∈ all blocks hSize wSize cSize ↔ cell.Inside blocks hSize wSize cSize := by
  rw [all, List.mem_map]
  constructor
  · rintro ⟨⟨block, h, w, c⟩, member, rfl⟩
    simpa only [Inside, List.mem_product, List.mem_range] using member
  · intro inside
    refine ⟨(cell.block, cell.h, cell.w, cell.c), ?_, rfl⟩
    simpa only [Inside, List.mem_product, List.mem_range] using inside

theorem nodup_all : (all blocks hSize wSize cSize).Nodup := by
  refine List.Nodup.map ?_ (List.nodup_range.product (List.nodup_range.product (List.nodup_range.product List.nodup_range)))
  rintro ⟨_, _, _, _⟩ ⟨_, _, _, _⟩ ⟨⟩
  rfl

theorem length_all : (all blocks hSize wSize cSize).length = blocks * hSize * wSize * cSize := by
  simp only [all, List.length_map, List.length_product, List.length_range]
  ring

theorem index_lt (inside : cell.Inside blocks hSize wSize cSize) : cell.index hSize wSize cSize < blocks * hSize * wSize * cSize :=
  radix_lt (radix_lt (radix_lt inside.1 inside.2.1) inside.2.2.1) inside.2.2.2

theorem index_injective (inside : cell.Inside blocks hSize wSize cSize) (inside' : cell'.Inside blocks hSize wSize cSize)
    (same : cell.index hSize wSize cSize = cell'.index hSize wSize cSize) : cell = cell' := by
  obtain ⟨point, c⟩ := radix_injective inside.2.2.2 inside'.2.2.2 same
  obtain ⟨row, w⟩ := radix_injective inside.2.2.1 inside'.2.2.1 point
  obtain ⟨block, h⟩ := radix_injective inside.2.1 inside'.2.1 row
  cases cell
  cases cell'
  cases block
  cases h
  cases w
  cases c
  rfl

/-- The cell that a symmetry moves a cell to. -/
def moved (hSize wSize symmetry : Nat) (cell : Cell) : Cell :=
  let xy := symXY cell.w cell.h wSize hSize symmetry
  ⟨cell.block, xy.2.toNat, xy.1.toNat, cell.c⟩

@[simp] theorem moved_block : (cell.moved hSize wSize symmetry).block = cell.block := rfl

@[simp] theorem moved_c : (cell.moved hSize wSize symmetry).c = cell.c := rfl

end Cell
open Cell

variable {nSize blocks hSize wSize cSize symmetry : Nat} {useNHWC reverse : Bool} {cell : Cell}

theorem tensorSymmetry_lt (valid : symmetry < numSymmetries) : tensorSymmetry hSize wSize symmetry < numSymmetries := by
  unfold tensorSymmetry
  split_ifs
  · exact valid
  · exact Nat.lt_of_le_of_lt Nat.and_le_right (by decide)

/-- The strides lead to the moved point. -/
theorem newStrides_eq (hSize wSize : Nat) (hStride wStride x y : Int) (reverse : Bool) (valid : symmetry < numSymmetries) :
    let s := newStrides hSize wSize hStride wStride symmetry reverse
    let effective := tensorSymmetry hSize wSize symmetry
    let xy := symXY x y wSize hSize (if reverse then invert effective else effective)
    s.hBaseNew + y * s.hStrideNew + (s.wBaseNew + x * s.wStrideNew) = xy.2 * hStride + xy.1 * wStride := by
  unfold numSymmetries at valid
  by_cases square : hSize = wSize
  · subst square
    cases reverse <;> interval_cases symmetry <;>
      simp [newStrides, tensorSymmetry, symXY, invert, isTranspose, isFlipX, isFlipY] <;> ring
  · cases reverse <;> interval_cases symmetry <;>
      simp [newStrides, tensorSymmetry, symXY, invert, isTranspose, isFlipX, isFlipY, square] <;> ring

/-- The symmetry that a copy applies to the points. -/
def applied (hSize wSize symmetry : Nat) (reverse : Bool) : Nat :=
  if reverse then invert (tensorSymmetry hSize wSize symmetry) else tensorSymmetry hSize wSize symmetry

theorem applied_lt (hSize wSize : Nat) (reverse : Bool) (valid : symmetry < numSymmetries) : applied hSize wSize symmetry reverse < numSymmetries := by
  unfold applied
  split_ifs
  · exact invert_lt (tensorSymmetry_lt valid)
  · exact tensorSymmetry_lt valid

/-- A symmetry that is applied does not exchange sides of different lengths. -/
theorem applied_square (hSize wSize : Nat) (reverse : Bool) (valid : symmetry < numSymmetries)
    (transpose : isTranspose (applied hSize wSize symmetry reverse) = true) : hSize = wSize := by
  by_contra rectangular
  unfold numSymmetries at valid
  revert transpose
  unfold applied tensorSymmetry
  rw [if_neg rectangular]
  cases reverse <;> interval_cases symmetry <;> decide

theorem moved_inside (square : isTranspose symmetry = true → hSize = wSize) (inside : cell.Inside blocks hSize wSize cSize) :
    (cell.moved hSize wSize symmetry).Inside blocks hSize wSize cSize := by
  obtain ⟨block, h, w, c⟩ := inside
  obtain ⟨left, below⟩ := symXY_bounds (s := symmetry) (show 0 ≤ (cell.w : Int) ∧ (cell.w : Int) < wSize by omega)
    (show 0 ≤ (cell.h : Int) ∧ (cell.h : Int) < hSize by omega)
  have sides : symXSize wSize hSize symmetry = wSize ∧ symXSize hSize wSize symmetry = hSize := by
    unfold symXSize
    split_ifs with transpose
    · exact ⟨square transpose, (square transpose).symm⟩
    · exact ⟨rfl, rfl⟩
  rw [sides.1] at left
  rw [sides.2] at below
  refine ⟨block, ?_, ?_, c⟩
  · show (symXY cell.w cell.h wSize hSize symmetry).2.toNat < hSize
    omega
  · show (symXY cell.w cell.h wSize hSize symmetry).1.toNat < wSize
    omega

/-- The coordinates of a moved cell. -/
theorem moved_coordinates (symmetry : Nat) (inside : cell.Inside blocks hSize wSize cSize) :
    ((cell.moved hSize wSize symmetry).w : Int) = (symXY cell.w cell.h wSize hSize symmetry).1 ∧
      ((cell.moved hSize wSize symmetry).h : Int) = (symXY cell.w cell.h wSize hSize symmetry).2 := by
  obtain ⟨-, h, w, -⟩ := inside
  obtain ⟨left, below⟩ := symXY_bounds (s := symmetry) (show 0 ≤ (cell.w : Int) ∧ (cell.w : Int) < wSize by omega)
    (show 0 ≤ (cell.h : Int) ∧ (cell.h : Int) < hSize by omega)
  exact ⟨Int.toNat_of_nonneg left.1, Int.toNat_of_nonneg below.1⟩

/-- The inverse symmetry moves a cell back. -/
theorem moved_invert (valid : symmetry < numSymmetries) (square : isTranspose symmetry = true → hSize = wSize)
    (inside : cell.Inside blocks hSize wSize cSize) :
    (cell.moved hSize wSize symmetry).moved hSize wSize (invert symmetry) = cell := by
  obtain ⟨w, h⟩ := moved_coordinates symmetry inside
  have sides : symXSize wSize hSize symmetry = wSize ∧ symXSize hSize wSize symmetry = hSize := by
    unfold symXSize
    split_ifs with transpose
    · exact ⟨square transpose, (square transpose).symm⟩
    · exact ⟨rfl, rfl⟩
  have back : symXY (symXY cell.w cell.h wSize hSize symmetry).1 (symXY cell.w cell.h wSize hSize symmetry).2
      (symXSize wSize hSize symmetry) (symXSize hSize wSize symmetry) (invert symmetry) = (↑cell.w, ↑cell.h) := by
    rw [symXY_compose valid (invert_lt valid), compose_invert valid, symXY_zero]
  rw [sides.1, sides.2, ← w, ← h] at back
  show (⟨cell.block, (symXY _ _ wSize hSize (invert symmetry)).2.toNat, (symXY _ _ wSize hSize (invert symmetry)).1.toNat, cell.c⟩ : Cell) = cell
  rw [back]
  rfl

theorem nested_eq {β : Type} (f : Nat → Nat → Nat → Nat → β) :
    ((List.range blocks).flatMap fun block => (List.range hSize).flatMap fun h => (List.range wSize).flatMap fun w =>
      (List.range cSize).map fun c => f block h w c) =
        (all blocks hSize wSize cSize).map fun cell => f cell.block cell.h cell.w cell.c := by
  simp only [all, SProd.sprod, List.product, List.map_flatMap, List.map_map, Function.comp_def]

theorem nested_single {β : Type} (f : Nat → Nat → Nat → β) :
    ((List.range blocks).flatMap fun block => (List.range hSize).flatMap fun h => (List.range wSize).map fun w => f block h w) =
      (all blocks hSize wSize 1).map fun cell => f cell.block cell.h cell.w := by
  rw [← nested_eq fun block h w _ => f block h w]
  simp only [List.map_eq_flatMap, List.range_one, List.flatMap_cons, List.flatMap_nil, List.append_nil]

/-- The new index is that of the moved cell. -/
theorem new_index (reverse : Bool) (valid : symmetry < numSymmetries) (inside : cell.Inside blocks hSize wSize cSize) :
    let s := newStrides hSize wSize (wSize * cSize) cSize symmetry reverse
    (cell.block : Int) * (hSize * wSize * cSize) + s.hBaseNew + cell.h * s.hStrideNew + s.wBaseNew + cell.w * s.wStrideNew + cell.c =
      (cell.moved hSize wSize (applied hSize wSize symmetry reverse)).index hSize wSize cSize := by
  obtain ⟨x, y⟩ := moved_coordinates (applied hSize wSize symmetry reverse) inside
  have strides := newStrides_eq hSize wSize (wSize * cSize) cSize cell.w cell.h reverse valid
  dsimp only at strides ⊢
  rw [show (if reverse = true then invert (tensorSymmetry hSize wSize symmetry) else tensorSymmetry hSize wSize symmetry) =
    applied hSize wSize symmetry reverse from rfl, ← x, ← y] at strides
  unfold index
  rw [moved_block, moved_c]
  push_cast
  linear_combination strides

/-- The assignments write what is at a cell to the cell that it is moved to. -/
theorem writes_nhwc (valid : symmetry < numSymmetries) :
    writesWithSymmetry nSize hSize wSize cSize true symmetry reverse = (all nSize hSize wSize cSize).map fun cell =>
      (((cell.moved hSize wSize (applied hSize wSize symmetry reverse)).index hSize wSize cSize : Int),
        (cell.index hSize wSize cSize : Int)) := by
  unfold writesWithSymmetry
  rw [if_pos rfl]
  dsimp only
  rw [nested_eq]
  apply List.map_congr_left
  intro cell member
  apply Prod.ext
  · exact new_index reverse valid (mem_all.mp member)
  · dsimp only
    unfold index
    push_cast
    ring

theorem writes_nchw (valid : symmetry < numSymmetries) :
    writesWithSymmetry nSize hSize wSize cSize false symmetry reverse = (all (nSize * cSize) hSize wSize 1).map fun cell =>
      (((cell.moved hSize wSize (applied hSize wSize symmetry reverse)).index hSize wSize 1 : Int),
        (cell.index hSize wSize 1 : Int)) := by
  unfold writesWithSymmetry
  rw [if_neg Bool.false_ne_true]
  dsimp only
  rw [nested_single]
  apply List.map_congr_left
  intro cell member
  have inside := mem_all.mp member
  have place := new_index reverse valid inside
  have last : cell.c = 0 := by
    have below := inside.2.2.2
    omega
  rw [last] at place
  simp only [Nat.cast_one, Nat.cast_zero, mul_one, add_zero] at place
  apply Prod.ext
  · exact place
  · dsimp only
    unfold index
    rw [last]
    push_cast
    ring

section Copy

variable {α : Type} {src dst : Int → α}

theorem foldl_update_of_notMem (src : Int → α) {writes : List (Int × Int)} {i : Int} (absent : i ∉ writes.map Prod.fst) (dst : Int → α) :
    writes.foldl (fun dst write => Function.update dst write.1 (src write.2)) dst i = dst i := by
  induction writes generalizing dst with
  | nil => rfl
  | cons first writes ih =>
    rw [List.map_cons, List.mem_cons, not_or] at absent
    rw [List.foldl_cons, ih absent.2, Function.update_of_ne absent.1]

/-- Assignments to different indices all last. -/
theorem foldl_update {writes : List (Int × Int)} (distinct : (writes.map Prod.fst).Nodup) (write : Int × Int)
    (member : write ∈ writes) :
    writes.foldl (fun dst write => Function.update dst write.1 (src write.2)) dst write.1 = src write.2 := by
  induction writes generalizing dst with
  | nil => cases member
  | cons first writes ih =>
    rw [List.map_cons, List.nodup_cons] at distinct
    rw [List.foldl_cons]
    rcases List.mem_cons.mp member with rfl | later
    · rw [foldl_update_of_notMem src distinct.1, Function.update_self]
    · exact ih distinct.2 later

/-- The written indices are those of all cells, each once. -/
theorem moved_perm (blocks hSize wSize cSize : Nat) (valid : symmetry < numSymmetries) (square : isTranspose symmetry = true → hSize = wSize) :
    ((all blocks hSize wSize cSize).map fun cell => (cell.moved hSize wSize symmetry).index hSize wSize cSize).Perm
      (List.range (blocks * hSize * wSize * cSize)) := by
  have distinct : ((all blocks hSize wSize cSize).map fun cell => (cell.moved hSize wSize symmetry).index hSize wSize cSize).Nodup := by
    apply List.Nodup.map_on _ nodup_all
    intro cell member cell' member' same
    have inside := mem_all.mp member
    have inside' := mem_all.mp member'
    have movedSame := index_injective (moved_inside square inside) (moved_inside square inside') same
    rw [← moved_invert valid square inside, movedSame, moved_invert valid square inside']
  apply (List.subperm_of_subset distinct _).perm_of_length_le
  · rw [List.length_range, List.length_map, length_all]
  · intro i member
    obtain ⟨cell, known, rfl⟩ := List.mem_map.mp member
    exact List.mem_range.mpr (index_lt (moved_inside square (mem_all.mp known)))

theorem writes_eq (valid : symmetry < numSymmetries) (nSize hSize wSize cSize : Nat) (useNHWC reverse : Bool) :
    writesWithSymmetry nSize hSize wSize cSize useNHWC symmetry reverse =
      (all (if useNHWC then nSize else nSize * cSize) hSize wSize (if useNHWC then cSize else 1)).map fun cell =>
        (((cell.moved hSize wSize (applied hSize wSize symmetry reverse)).index hSize wSize (if useNHWC then cSize else 1) : Int),
          (cell.index hSize wSize (if useNHWC then cSize else 1) : Int)) := by
  cases useNHWC with
  | true => exact writes_nhwc valid
  | false => exact writes_nchw valid

/-- Every cell of the copy is written once, and nothing else is. -/
theorem writes_perm (valid : symmetry < numSymmetries) (nSize hSize wSize cSize : Nat) (useNHWC reverse : Bool) :
    ((writesWithSymmetry nSize hSize wSize cSize useNHWC symmetry reverse).map Prod.fst).Perm
      ((List.range (nSize * hSize * wSize * cSize)).map fun i : Nat => (i : Int)) := by
  rw [writes_eq valid, List.map_map]
  have perm := (moved_perm (if useNHWC then nSize else nSize * cSize) hSize wSize (if useNHWC then cSize else 1)
    (applied_lt hSize wSize reverse valid) (applied_square hSize wSize reverse valid)).map fun i : Nat => (i : Int)
  rw [List.map_map] at perm
  refine perm.trans (List.Perm.of_eq ?_)
  cases useNHWC with
  | true => rfl
  | false =>
    congr 2
    show nSize * cSize * hSize * wSize * 1 = nSize * hSize * wSize * cSize
    ring

/-- What is at a cell is copied to the cell that it is moved to. -/
theorem copy_moved (valid : symmetry < numSymmetries) (src dst : Int → α) (nSize : Nat) (reverse : Bool)
    (inside : cell.Inside (if useNHWC then nSize else nSize * cSize) hSize wSize (if useNHWC then cSize else 1)) :
    copyWithSymmetry src dst nSize hSize wSize cSize useNHWC symmetry reverse
      ((cell.moved hSize wSize (applied hSize wSize symmetry reverse)).index hSize wSize (if useNHWC then cSize else 1) : Int) =
        src (cell.index hSize wSize (if useNHWC then cSize else 1) : Int) := by
  have distinct : ((writesWithSymmetry nSize hSize wSize cSize useNHWC symmetry reverse).map Prod.fst).Nodup :=
    (writes_perm valid nSize hSize wSize cSize useNHWC reverse).nodup_iff.mpr (List.nodup_range.map Nat.cast_injective)
  refine foldl_update distinct (_, _) ?_
  rw [writes_eq valid]
  exact List.mem_map.mpr ⟨cell, mem_all.mpr inside, rfl⟩

/-- The copy in the other direction undoes the copy. -/
theorem copy_back (valid : symmetry < numSymmetries) (src dst dst' : Int → α) (nSize hSize wSize cSize : Nat) (useNHWC : Bool)
    {i : Nat} (inside : i < nSize * hSize * wSize * cSize) :
    copyWithSymmetry (copyWithSymmetry src dst nSize hSize wSize cSize useNHWC symmetry false) dst' nSize hSize wSize cSize
      useNHWC symmetry true i = src i := by
  obtain ⟨cell, known, same⟩ : ∃ cell ∈ all (if useNHWC then nSize else nSize * cSize) hSize wSize (if useNHWC then cSize else 1),
      (cell.moved hSize wSize 0).index hSize wSize (if useNHWC then cSize else 1) = i := by
    have perm := moved_perm (if useNHWC then nSize else nSize * cSize) hSize wSize (if useNHWC then cSize else 1)
      (show 0 < numSymmetries by decide) fun transpose => absurd transpose (by decide)
    refine List.mem_map.mp (perm.mem_iff.mpr (List.mem_range.mpr ?_))
    cases useNHWC with
    | true => exact inside
    | false =>
      show i < nSize * cSize * hSize * wSize * 1
      calc i < nSize * hSize * wSize * cSize := inside
        _ = nSize * cSize * hSize * wSize * 1 := by ring
  have within := mem_all.mp known
  have square := applied_square hSize wSize false valid
  have place : cell.moved hSize wSize 0 = cell := rfl
  rw [place] at same
  have back := copy_moved valid (copyWithSymmetry src dst nSize hSize wSize cSize useNHWC symmetry false) dst'
    nSize true (moved_inside square within)
  rw [show applied hSize wSize symmetry true = invert (applied hSize wSize symmetry false) from rfl,
    moved_invert (applied_lt hSize wSize false valid) square within, same] at back
  rw [back, copy_moved valid src dst nSize false within, same]

theorem tensorIndex_eq (nSize hSize wSize cSize : Nat) (useNHWC : Bool) {n c y x : Nat} (inside : n < nSize ∧ c < cSize ∧ y < hSize ∧ x < wSize) :
    ∃ cell : Cell, cell.Inside (if useNHWC then nSize else nSize * cSize) hSize wSize (if useNHWC then cSize else 1) ∧
      cell.w = x ∧ cell.h = y ∧ ∀ cell' : Cell, cell'.block = cell.block → cell'.c = cell.c →
        (cell'.index hSize wSize (if useNHWC then cSize else 1) : Int) = tensorIndex hSize wSize cSize useNHWC n c cell'.h cell'.w := by
  obtain ⟨hn, hc, hy, hx⟩ := inside
  cases useNHWC with
  | true =>
    refine ⟨⟨n, y, x, c⟩, ⟨hn, hy, hx, hc⟩, rfl, rfl, fun cell' block place => ?_⟩
    dsimp only at block place
    rw [if_pos rfl, index, tensorIndex, if_pos rfl, block, place]
    push_cast
    ring
  | false =>
    refine ⟨⟨n * cSize + c, y, x, 0⟩, ⟨radix_lt hn hc, hy, hx, Nat.one_pos⟩, rfl, rfl, fun cell' block place => ?_⟩
    dsimp only at block place
    rw [if_neg Bool.false_ne_true, index, tensorIndex, if_neg Bool.false_ne_true, block, place]
    push_cast
    ring

/-- The inputs are moved the way the points of a board are. -/
theorem copyInputsWithSymmetry_eq (valid : symmetry < numSymmetries) (src dst : Int → α) (useNHWC : Bool) {n c y x : Nat}
    (inside : n < nSize ∧ c < cSize ∧ y < hSize ∧ x < wSize) :
    copyInputsWithSymmetry src dst nSize hSize wSize cSize useNHWC symmetry
      (tensorIndex hSize wSize cSize useNHWC n c
        (Location.getY (getSymLocXY x y wSize hSize (tensorSymmetry hSize wSize symmetry)) wSize)
        (Location.getX (getSymLocXY x y wSize hSize (tensorSymmetry hSize wSize symmetry)) wSize)) =
      src (tensorIndex hSize wSize cSize useNHWC n c y x) := by
  obtain ⟨cell, within, rfl, rfl, index_eq⟩ := tensorIndex_eq nSize hSize wSize cSize useNHWC inside
  have square := applied_square hSize wSize false valid
  have side : symXSize wSize hSize (tensorSymmetry hSize wSize symmetry) = wSize := by
    unfold symXSize
    split_ifs with transpose
    · exact square transpose
    · rfl
  obtain ⟨column, row⟩ := moved_coordinates (tensorSymmetry hSize wSize symmetry) within
  have movedWithin := moved_inside square within
  obtain ⟨getX, getY⟩ := getXY_ofXY
    (show 0 ≤ ((cell.moved hSize wSize (tensorSymmetry hSize wSize symmetry)).w : Int) ∧ _ < (wSize : Int) from
      ⟨Int.natCast_nonneg _, Int.ofNat_lt.mpr movedWithin.2.2.1⟩)
    (show 0 ≤ ((cell.moved hSize wSize (tensorSymmetry hSize wSize symmetry)).h : Int) from Int.natCast_nonneg _)
  rw [getSymLocXY, side, ← column, ← row, getX, getY, ← index_eq _ (moved_block ..) (moved_c ..), ← index_eq cell rfl rfl]
  exact copy_moved valid src dst nSize false within

end Copy
end Writes
end SymmetryHelpers
end KataGo.Game
