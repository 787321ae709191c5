import KataGo.Game.Grid
import KataGo.Lib.XorFold

/-! The Zobrist hash of a position, as a function of its colours alone. -/

namespace KataGo.Game
open KataGo.Lib

namespace Hash128

theorem xor_def (a b : Hash128) : a ^^^ b = ⟨a.hash0 ^^^ b.hash0, a.hash1 ^^^ b.hash1⟩ := rfl

protected theorem xor_comm (a b : Hash128) : a ^^^ b = b ^^^ a := by
  simp only [xor_def, BitVec.xor_comm]

protected theorem xor_assoc (a b c : Hash128) : a ^^^ b ^^^ c = a ^^^ (b ^^^ c) := by
  simp only [xor_def, BitVec.xor_assoc]

@[simp] protected theorem xor_self (a : Hash128) : a ^^^ a = 0 := by
  simp only [xor_def, BitVec.xor_self]
  rfl

@[simp] protected theorem xor_zero (a : Hash128) : a ^^^ 0 = a := by
  change (⟨a.hash0 ^^^ 0#64, a.hash1 ^^^ 0#64⟩ : Hash128) = a
  simp only [BitVec.xor_zero]

@[simp] protected theorem zero_xor (a : Hash128) : 0 ^^^ a = a := by
  rw [Hash128.xor_comm, Hash128.xor_zero]

@[simp] theorem xor_xor_cancel_right (a b : Hash128) : a ^^^ b ^^^ b = a := by
  rw [Hash128.xor_assoc, Hash128.xor_self, Hash128.xor_zero]

theorem xor_left_inj {a b c : Hash128} : a ^^^ c = b ^^^ c ↔ a = b := by
  refine ⟨fun same => ?_, fun same => by rw [same]⟩
  have cancelled := congrArg (· ^^^ c) same
  simpa using cancelled

instance : Std.Commutative (α := Hash128) (· ^^^ ·) := ⟨Hash128.xor_comm⟩
instance : Std.Associative (α := Hash128) (· ^^^ ·) := ⟨Hash128.xor_assoc⟩

end Hash128

variable [Zobrist]

/-- What one point contributes to the hash. -/
def stoneHash (p : Loc) (c : Color) : Hash128 := if c.IsStone then Zobrist.boardHash p c else 0

theorem stoneHash_of_stone {p : Loc} {c : Color} (stone : c.IsStone) :
    stoneHash p c = Zobrist.boardHash p c := if_pos stone

@[simp] theorem stoneHash_empty (p : Loc) : stoneHash p .empty = 0 := if_neg (by decide)

/-- The XOR of the two size hashes and of the hashes of all stones. -/
def positionHash (xSize ySize : Nat) (colors : Loc → Color) : Hash128 :=
  (boardLocs xSize ySize).toFinset.fold (· ^^^ ·) (Zobrist.sizeXHash xSize ^^^ Zobrist.sizeYHash ySize)
    fun p => stoneHash p (colors p)

/-- Recolouring one point exchanges its contribution. -/
theorem positionHash_update {xSize ySize : Nat} {colors : Loc → Color} {p : Loc}
    (member : p ∈ boardLocs xSize ySize) (c : Color) :
    positionHash xSize ySize (Function.update colors p c) =
      positionHash xSize ySize colors ^^^ stoneHash p (colors p) ^^^ stoneHash p c :=
  XorFold.fold_update (· ^^^ ·) Hash128.xor_xor_cancel_right (List.mem_toFinset.2 member) c

theorem positionHash_congr {xSize ySize : Nat} {colors colors' : Loc → Color}
    (same : ∀ p ∈ boardLocs xSize ySize, colors' p = colors p) :
    positionHash xSize ySize colors' = positionHash xSize ySize colors :=
  XorFold.fold_congr (· ^^^ ·) fun p member => same p (List.mem_toFinset.1 member)

theorem positionHash_blank {xSize ySize : Nat} {colors : Loc → Color}
    (blank : ∀ p ∈ boardLocs xSize ySize, colors p = .empty) :
    positionHash xSize ySize colors = Zobrist.sizeXHash xSize ^^^ Zobrist.sizeYHash ySize :=
  XorFold.fold_zero (· ^^^ ·) Hash128.zero_xor fun p member => by
    rw [blank p (List.mem_toFinset.1 member), stoneHash_empty]

end KataGo.Game
