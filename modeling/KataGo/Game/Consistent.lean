import KataGo.Game.ChainOps
import Mathlib.Data.Set.Card

/-! The representation invariant of a board, in the terms of `checkConsistency`, and the
form the proofs work with: every chain is recorded correctly and chains are the
connected components of the colours. -/

namespace KataGo.Game
open KataGo.Lib CircularList Labelling

namespace Board

/-- The stones of the chain of `p`, from the colours alone. -/
def component (b : Board) (p : Loc) : Set Loc := {q | Chain (grid b.xSize) b.colors p q}

/-- The liberties of the chain of `p`, from the colours alone. -/
def liberties (b : Board) (p : Loc) : Set Loc := {e | Liberty (grid b.xSize) .empty b.colors p e}

variable [Zobrist]

/-- Walls are exactly off the board; the links of each chain run once around its connected
component; the shared head lies in it and holds its colour, its size and its number of
liberties, of which there is at least one; and the hash is that of the stones. -/
structure Consistent (b : Board) : Prop where
  wide : 1 ≤ b.xSize ∧ b.xSize ≤ maxLen
  high : 1 ≤ b.ySize ∧ b.ySize ≤ maxLen
  walls : ∀ p, b.colors p = .wall ↔ p ∉ b.locs
  cycle : ∀ p, (b.colors p).IsStone →
    ∃ l, l.Nodup ∧ (∀ q, q ∈ l ↔ q ∈ b.component p) ∧ Linked b.nextInChain l
  head : ∀ p, (b.colors p).IsStone → b.chainHead p ∈ b.component p
  shared : ∀ p q, (b.colors p).IsStone → q ∈ b.component p → b.chainHead q = b.chainHead p
  owner : ∀ p, (b.colors p).IsStone → (b.chainData (b.chainHead p)).owner = b.colors p
  numLocs : ∀ p, (b.colors p).IsStone → (b.chainData (b.chainHead p)).numLocs = (b.component p).ncard
  numLiberties : ∀ p, (b.colors p).IsStone →
    (b.chainData (b.chainHead p)).numLiberties = (b.liberties p).ncard
  alive : ∀ p, (b.colors p).IsStone → 1 ≤ (b.chainData (b.chainHead p)).numLiberties
  hash : b.posHash = positionHash b.xSize b.ySize b.colors

/-- Every stone belongs to a well-formed chain, whose counter is `extra` too high. -/
structure Recorded (b : Board) (extra : Loc → Int) : Prop where
  shape : b.Shape
  hash : b.posHash = positionHash b.xSize b.ySize b.colors
  chain : ∀ p, (b.colors p).IsStone → b.ChainOk (b.chainHead p) (extra (b.chainHead p))

/-- All counters are right and the chains are the connected components. -/
structure Regular (b : Board) : Prop where
  recorded : b.Recorded fun _ => 0
  component : ∀ p q, (b.colors p).IsStone →
    (b.InChain (b.chainHead p) q ↔ Chain (grid b.xSize) b.colors p q)

/-- Every stone's chain has a liberty. -/
def AllAlive (b : Board) : Prop := ∀ p, (b.colors p).IsStone → ∃ e, e ∈ b.liberties p

variable {b b' : Board} {h p q e : Loc} {extra : Loc → Int}

/-- Chains that are connected, and to which no equal neighbour is missing, are components. -/
theorem Recorded.regular (recorded : b.Recorded fun _ => 0)
    (connected : ∀ p q, (b.colors p).IsStone → (b.colors q).IsStone → b.chainHead p = b.chainHead q →
      Chain (grid b.xSize) b.colors p q)
    (closed : ∀ p q, (b.colors p).IsStone → q ∈ b.adj p → b.colors q = b.colors p →
      b.chainHead q = b.chainHead p) : b.Regular := by
  refine ⟨recorded, fun p q stone => (chain_iff ⟨stone, rfl⟩ ?_ ?_ q).symm⟩
  · rintro x a ⟨isStone, head⟩ adjacent same
    exact ⟨by rw [same]; exact isStone, (closed x a isStone adjacent same).trans head⟩
  · rintro x ⟨isStone, head⟩
    exact connected p x stone isStone head.symm

namespace Regular

theorem shape (regular : b.Regular) : b.Shape := regular.recorded.shape

theorem chainOk (regular : b.Regular) (stone : (b.colors p).IsStone) : b.ChainOk (b.chainHead p) 0 :=
  regular.recorded.chain p stone

theorem mem_libs (regular : b.Regular) (stone : (b.colors p).IsStone) :
    e ∈ b.libs (b.chainHead p) ↔ e ∈ b.liberties p := by
  rw [Board.mem_libs regular.shape]
  refine and_congr_right fun _ => exists_congr fun q => ?_
  rw [regular.component p q stone, and_comm, grid_adj]
  exact and_congr_right fun _ => ⟨adjs_symm, adjs_symm⟩

theorem coe_libs (regular : b.Regular) (stone : (b.colors p).IsStone) :
    (b.libs (b.chainHead p) : Set Loc) = b.liberties p := by
  ext e
  exact regular.mem_libs stone

theorem numLiberties (regular : b.Regular) (stone : (b.colors p).IsStone) :
    (b.chainData (b.chainHead p)).numLiberties = (b.liberties p).ncard := by
  rw [(regular.chainOk stone).liberties, ← regular.coe_libs stone, Set.ncard_coe_finset, add_zero]

theorem numLocs (regular : b.Regular) (stone : (b.colors p).IsStone) :
    (b.chainData (b.chainHead p)).numLocs = (b.component p).ncard := by
  obtain ⟨l, ring, size⟩ := (regular.chainOk stone).ring
  have same : b.component p = (l.toFinset : Set Loc) := by
    ext q
    rw [Finset.mem_coe, List.mem_toFinset, ring.mem q, regular.component p q stone]
    rfl
  rw [size, same, Set.ncard_coe_finset, List.toFinset_card_of_nodup ring.nodup]

theorem liberties_finite (regular : b.Regular) (stone : (b.colors p).IsStone) : (b.liberties p).Finite := by
  rw [← regular.coe_libs stone]
  exact Finset.finite_toSet _

theorem numLiberties_pos_iff (regular : b.Regular) (stone : (b.colors p).IsStone) :
    1 ≤ (b.chainData (b.chainHead p)).numLiberties ↔ ∃ e, e ∈ b.liberties p := by
  rw [regular.numLiberties stone, Nat.one_le_cast, Nat.one_le_iff_ne_zero, Ne,
    Set.ncard_eq_zero (regular.liberties_finite stone), ← Ne, ← Set.nonempty_iff_ne_empty]
  rfl

theorem numLiberties_eq_zero_iff (regular : b.Regular) (stone : (b.colors p).IsStone) :
    (b.chainData (b.chainHead p)).numLiberties = 0 ↔ ¬ ∃ e, e ∈ b.liberties p := by
  rw [← regular.numLiberties_pos_iff stone, regular.numLiberties stone]
  omega

/-- Neighbours of one colour have one head. -/
theorem head_eq (regular : b.Regular) (stone : (b.colors p).IsStone) (adjacent : q ∈ b.adj p)
    (same : b.colors q = b.colors p) : b.chainHead q = b.chainHead p :=
  ((regular.component p q stone).2 (Chain.single adjacent same)).2

theorem consistent (regular : b.Regular) (alive : b.AllAlive) : b.Consistent where
  wide := regular.shape.wide
  high := regular.shape.high
  walls := regular.shape.wall_iff
  cycle p stone := by
    obtain ⟨l, ring, -⟩ := (regular.chainOk stone).ring
    exact ⟨l, ring.nodup, fun q => (ring.mem q).trans (regular.component p q stone), ring.linked⟩
  head p stone := (regular.component p _ stone).1 (regular.chainOk stone).head_mem
  shared p q stone inside := ((regular.component p q stone).2 inside).2
  owner p stone := by
    have ok := regular.chainOk stone
    rw [ok.owner, ok.colour p ⟨stone, rfl⟩]
  numLocs p stone := regular.numLocs stone
  numLiberties p stone := regular.numLiberties stone
  alive p stone := (regular.numLiberties_pos_iff stone).2 (alive p stone)
  hash := regular.recorded.hash

end Regular

namespace Consistent

theorem shape (consistent : b.Consistent) : b.Shape :=
  ⟨consistent.wide, consistent.high, consistent.walls⟩

theorem inChain_iff (consistent : b.Consistent) (stone : (b.colors p).IsStone) :
    b.InChain (b.chainHead p) q ↔ Chain (grid b.xSize) b.colors p q := by
  constructor
  · rintro ⟨isStone, same⟩
    have back := consistent.head q isStone
    rw [same] at back
    exact Chain.trans (consistent.head p stone) (Chain.symm back)
  · intro chain
    exact ⟨by rw [chain.label]; exact stone, consistent.shared p q stone chain⟩

theorem regular (consistent : b.Consistent) : b.Regular := by
  refine ⟨⟨consistent.shape, consistent.hash, fun p stone => ?_⟩, fun p q stone => consistent.inChain_iff stone⟩
  have headChain : Chain (grid b.xSize) b.colors p (b.chainHead p) := consistent.head p stone
  have colour : b.colors (b.chainHead p) = b.colors p := headChain.label
  obtain ⟨l, nodup, members, linked⟩ := consistent.cycle p stone
  refine ⟨by rw [colour]; exact stone, consistent.shared p _ stone headChain,
    ⟨l, ⟨nodup, fun q => (members q).trans (consistent.inChain_iff stone).symm, linked⟩, ?_⟩, ?_,
    by rw [consistent.owner p stone, colour], ?_⟩
  · have same : b.component p = (l.toFinset : Set Loc) := by
      ext q
      simpa using (members q).symm
    rw [consistent.numLocs p stone, same, Set.ncard_coe_finset, List.toFinset_card_of_nodup nodup]
  · intro q inside
    rw [((consistent.inChain_iff stone).1 inside).label, colour]
  · have same : b.liberties p = (b.libs (b.chainHead p) : Set Loc) := by
      ext e
      rw [Finset.mem_coe, Board.mem_libs consistent.shape]
      refine and_congr_right fun _ => exists_congr fun q => ?_
      rw [consistent.inChain_iff stone, and_comm, grid_adj]
      exact and_congr_left fun _ => ⟨adjs_symm, adjs_symm⟩
    rw [consistent.numLiberties p stone, same, Set.ncard_coe_finset, add_zero]

theorem allAlive (consistent : b.Consistent) : b.AllAlive := fun p stone =>
  (consistent.regular.numLiberties_pos_iff stone).1 (consistent.alive p stone)

end Consistent

theorem consistent_iff : b.Consistent ↔ b.Regular ∧ b.AllAlive :=
  ⟨fun consistent => ⟨consistent.regular, consistent.allAlive⟩, fun ⟨regular, alive⟩ => regular.consistent alive⟩

/-- A board without stones has nothing to record. -/
theorem consistent_of_blank (wide : 1 ≤ b.xSize ∧ b.xSize ≤ maxLen) (high : 1 ≤ b.ySize ∧ b.ySize ≤ maxLen)
    (colours : ∀ p, b.colors p = if p ∈ b.locs then .empty else .wall)
    (hash : b.posHash = Zobrist.sizeXHash b.xSize ^^^ Zobrist.sizeYHash b.ySize) : b.Consistent := by
  have noStone : ∀ p, ¬ (b.colors p).IsStone := by
    intro p
    rw [colours p]
    split_ifs <;> decide
  refine Regular.consistent ⟨⟨⟨wide, high, fun p => ?_⟩, ?_, fun p stone => absurd stone (noStone p)⟩,
    fun p _ stone => absurd stone (noStone p)⟩ fun p stone => absurd stone (noStone p)
  · rw [colours p]
    split_ifs with member <;> simp [member]
  · rw [hash, positionHash_blank]
    intro p member
    exact (colours p).trans (if_pos member)

theorem init_consistent (xS yS : Nat) (wide : 1 ≤ xS ∧ xS ≤ maxLen) (high : 1 ≤ yS ∧ yS ≤ maxLen) :
    ∃ b, init xS yS = some b ∧ b.Consistent :=
  ⟨_, if_neg (by omega), consistent_of_blank wide high
    (fun p => foldl_update_apply (boardLocs xS yS) (fun _ => Color.wall) .empty p) rfl⟩

end Board
end KataGo.Game
