import KataGo.Game.Mutators
import KataGo.Lib.Labelling
import Mathlib.Data.Finset.Card
import Mathlib.Tactic.Ring

/-! The geometry of the one-dimensional board array. The chain bookkeeping needs nothing of
it but what is proved here: four distinct neighbours, a symmetric relation, and
finitely many locations, none of which is `nullLoc` or `passLoc`. -/

namespace KataGo.Game
open KataGo.Lib Labelling

theorem mem_adjs {xSize : Nat} {p a : Int} :
    a ∈ adjs xSize p ↔ a = p - (xSize + 1) ∨ a = p - 1 ∨ a = p + 1 ∨ a = p + (xSize + 1) := by
  simp only [adjs, Location.getAdjacentOffsets, List.map_cons, List.map_nil, List.mem_cons,
    List.not_mem_nil, or_false]
  omega

theorem adjs_symm {xSize : Nat} {p a : Int} (adjacent : a ∈ adjs xSize p) : p ∈ adjs xSize a := by
  rw [mem_adjs] at adjacent ⊢
  omega

theorem not_mem_adjs_self (xSize : Nat) (p : Int) : p ∉ adjs xSize p := by
  rw [mem_adjs]
  omega

theorem adjs_nodup {xSize : Nat} (positive : 1 ≤ xSize) (p : Int) : (adjs xSize p).Nodup := by
  simp only [adjs, Location.getAdjacentOffsets, List.map_cons, List.map_nil, List.nodup_cons,
    List.mem_cons, List.not_mem_nil, or_false, not_or, not_false_eq_true, List.nodup_nil, and_true]
  omega

/-- Neighbourhood in the array. Walls are vertices too; they never share a label with a point. -/
def grid (xSize : Nat) : SimpleGraph Loc where
  Adj p a := a ∈ adjs xSize p
  symm := ⟨fun _ _ => adjs_symm⟩
  loopless := ⟨fun p => not_mem_adjs_self xSize p⟩

@[simp] theorem grid_adj {xSize : Nat} {p a : Loc} : (grid xSize).Adj p a ↔ a ∈ adjs xSize p := Iff.rfl

theorem mem_boardLocs {xSize ySize : Nat} {p : Int} :
    p ∈ boardLocs xSize ySize ↔ ∃ y < ySize, ∃ x < xSize, p = Location.getLoc x y xSize := by
  simp [boardLocs, eq_comm]

theorem getLoc_injective {w x y x' y' : Nat} (left : x < w) (left' : x' < w)
    (same : Location.getLoc x y w = Location.getLoc x' y' w) : x = x' ∧ y = y' := by
  have cast : ∀ a b : Nat, Location.getLoc a b w = (((a + 1) + (b + 1) * (w + 1) : Nat) : Int) := by
    intro a b
    unfold Location.getLoc
    push_cast
    ring
  rw [cast, cast, Nat.cast_inj] at same
  have rows : ∀ a b : Nat, a < b → (a + 1) * (w + 1) + (w + 1) ≤ (b + 1) * (w + 1) := by
    intro a b below
    calc (a + 1) * (w + 1) + (w + 1) = (a + 2) * (w + 1) := by ring
      _ ≤ (b + 1) * (w + 1) := Nat.mul_le_mul_right _ (by omega)
  rcases Nat.lt_trichotomy y y' with below | rfl | above
  · have gap := rows y y' below
    omega
  · omega
  · have gap := rows y' y above
    omega

/-- Column and row are determined by a place in the array, walls on the left included. -/
theorem place_injective {w : Nat} {x y x' y' : Int} (left : -1 ≤ x ∧ x < w) (left' : -1 ≤ x' ∧ x' < w)
    (same : (x + 1) + (y + 1) * (w + 1) = (x' + 1) + (y' + 1) * ((w : Int) + 1)) : x = x' ∧ y = y' := by
  have column : ∀ a b : Int, -1 ≤ a ∧ a < w → ((a + 1) + (b + 1) * (w + 1)) % ((w : Int) + 1) = a + 1 := by
    intro a b bounds
    rw [Int.add_mul_emod_self_right, Int.emod_eq_of_lt (by omega) (by omega)]
  have first : x = x' := by
    have remainders := congrArg (· % ((w : Int) + 1)) same
    simp only [column x y left, column x' y' left'] at remainders
    omega
  subst first
  have rows := Int.eq_of_mul_eq_mul_right (by omega) (add_left_cancel same)
  exact ⟨rfl, by omega⟩

theorem boardLocs_nodup (xSize ySize : Nat) : (boardLocs xSize ySize).Nodup := by
  unfold boardLocs
  refine List.nodup_flatMap.2 ⟨fun y _ => ?_, List.nodup_range.pairwise_of_forall_ne fun y _ y' _ apart => ?_⟩
  · refine List.Nodup.map_on (fun x first x' second same => ?_) List.nodup_range
    exact (getLoc_injective (List.mem_range.1 first) (List.mem_range.1 second) same).1
  · rw [Function.onFun, List.disjoint_left]
    intro p first second
    obtain ⟨x, inside, rfl⟩ := List.mem_map.1 first
    obtain ⟨x', inside', same⟩ := List.mem_map.1 second
    exact apart (getLoc_injective (List.mem_range.1 inside') (List.mem_range.1 inside) same).2.symm

theorem boardLocs_bounds {xSize ySize : Nat} (wide : xSize ≤ maxLen) (high : ySize ≤ maxLen) {p : Int}
    (member : p ∈ boardLocs xSize ySize) : 1 < p ∧ p < maxArrSize := by
  obtain ⟨y, below, x, left, rfl⟩ := mem_boardLocs.1 member
  unfold Location.getLoc maxArrSize maxLen
  unfold maxLen at wide high
  have rows : (y + 1) * (xSize + 1) ≤ 19 * 20 := Nat.mul_le_mul (by omega) (by omega)
  have lower : 1 * 1 ≤ (y + 1) * (xSize + 1) := Nat.mul_le_mul (by omega) (by omega)
  have cast : ((y : Int) + 1) * (xSize + 1) = (((y + 1) * (xSize + 1) : Nat) : Int) := by push_cast; ring
  rw [cast]
  push_cast
  omega

theorem boardLocs_ne_null {xSize ySize : Nat} (wide : xSize ≤ maxLen) (high : ySize ≤ maxLen) {p : Int}
    (member : p ∈ boardLocs xSize ySize) : p ≠ nullLoc := by
  have bounds := boardLocs_bounds wide high member
  unfold nullLoc
  omega

theorem boardLocs_ne_pass {xSize ySize : Nat} (wide : xSize ≤ maxLen) (high : ySize ≤ maxLen) {p : Int}
    (member : p ∈ boardLocs xSize ySize) : p ≠ passLoc := by
  have bounds := boardLocs_bounds wide high member
  unfold passLoc
  omega

theorem card_boardLocs_le_square {xSize ySize : Nat} (wide : xSize ≤ maxLen) (high : ySize ≤ maxLen) :
    (boardLocs xSize ySize).toFinset.card ≤ maxLen * maxLen := by
  calc (boardLocs xSize ySize).toFinset.card
      ≤ (boardLocs xSize ySize).length := List.toFinset_card_le _
    _ = ySize * xSize := by simp [boardLocs, List.length_flatMap]
    _ ≤ maxLen * maxLen := Nat.mul_le_mul high wide

theorem card_boardLocs_le {xSize ySize : Nat} (wide : xSize ≤ maxLen) (high : ySize ≤ maxLen) :
    (boardLocs xSize ySize).toFinset.card ≤ maxArrSize :=
  (card_boardLocs_le_square wide high).trans (by decide)

end KataGo.Game
