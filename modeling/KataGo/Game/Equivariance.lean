import KataGo.Game.SymmetryGroup
import KataGo.Game.AreaSymmetry

/-! The rules cannot tell a board from its image under one of the eight symmetries, although
loops run over the neighbours and the points in an order that the image does not keep. -/

namespace KataGo.Game
open KataGo.Lib CircularList Labelling

namespace SymmetryHelpers

variable {xSize ySize symmetry : Nat} {p q : Loc} {x y x' y' : Int}

theorem symXY_injective (same : symXY x y xSize ySize symmetry = symXY x' y' xSize ySize symmetry) :
    x = x' ∧ y = y' := by
  unfold symXY at same
  revert same
  cases isTranspose symmetry <;> cases isFlipX symmetry <;> cases isFlipY symmetry <;> simp <;> omega

theorem symXY_onto (left : 0 ≤ x' ∧ x' < symXSize xSize ySize symmetry)
    (below : 0 ≤ y' ∧ y' < symXSize ySize xSize symmetry) :
    ∃ x y : Int, (0 ≤ x ∧ x < xSize) ∧ (0 ≤ y ∧ y < ySize) ∧ symXY x y xSize ySize symmetry = (x', y') := by
  obtain ⟨x, y, transposed⟩ : ∃ x y : Int, (if isTranspose symmetry then (y, x) else (x, y)) = (x', y') := by
    cases isTranspose symmetry with
    | true => exact ⟨y', x', rfl⟩
    | false => exact ⟨x', y', rfl⟩
  refine ⟨if isFlipX symmetry then xSize - x - 1 else x, if isFlipY symmetry then ySize - y - 1 else y, ?_⟩
  unfold symXY
  unfold symXSize at left below
  revert left below transposed
  cases isTranspose symmetry <;> cases isFlipX symmetry <;> cases isFlipY symmetry <;> simp <;> omega

/-- A symmetry keeps neighbours together. -/
theorem symXY_beside :
    (symXY x' y' xSize ySize symmetry).1 = (symXY x y xSize ySize symmetry).1 ∧
        ((symXY x' y' xSize ySize symmetry).2 = (symXY x y xSize ySize symmetry).2 - 1 ∨
          (symXY x' y' xSize ySize symmetry).2 = (symXY x y xSize ySize symmetry).2 + 1) ∨
      (symXY x' y' xSize ySize symmetry).2 = (symXY x y xSize ySize symmetry).2 ∧
        ((symXY x' y' xSize ySize symmetry).1 = (symXY x y xSize ySize symmetry).1 - 1 ∨
          (symXY x' y' xSize ySize symmetry).1 = (symXY x y xSize ySize symmetry).1 + 1) ↔
      x' = x ∧ (y' = y - 1 ∨ y' = y + 1) ∨ y' = y ∧ (x' = x - 1 ∨ x' = x + 1) := by
  unfold symXY
  cases isTranspose symmetry <;> cases isFlipX symmetry <;> cases isFlipY symmetry <;> simp <;> omega

theorem getSymLoc_injective (first : p ∈ boardLocs xSize ySize) (second : q ∈ boardLocs xSize ySize)
    (same : getSymLoc p xSize ySize symmetry = getSymLoc q xSize ySize symmetry) : p = q := by
  obtain ⟨x, y, left, below, rfl⟩ := mem_boardLocs_ofXY.1 first
  obtain ⟨x', y', left', below', rfl⟩ := mem_boardLocs_ofXY.1 second
  rw [getSymLoc_ofXY left below.1, getSymLoc_ofXY left' below'.1] at same
  have inside : ∀ {z : Int} {n : Nat}, 0 ≤ z ∧ z < n → -1 ≤ z ∧ z < n := fun bounds => ⟨by omega, bounds.2⟩
  obtain ⟨columns, rows⟩ := ofXY_injective (inside (symXY_bounds left below).1) (inside (symXY_bounds left' below').1) same
  obtain ⟨rfl, rfl⟩ := symXY_injective (Prod.ext columns rows)
  rfl

theorem getSymLoc_onto {p' : Loc}
    (point : p' ∈ boardLocs (symXSize xSize ySize symmetry) (symXSize ySize xSize symmetry)) :
    ∃ p ∈ boardLocs xSize ySize, getSymLoc p xSize ySize symmetry = p' := by
  obtain ⟨x', y', left', below', rfl⟩ := mem_boardLocs_ofXY.1 point
  obtain ⟨x, y, left, below, image⟩ := symXY_onto left' below'
  refine ⟨Location.ofXY x y xSize, mem_boardLocs_ofXY.2 ⟨x, y, left, below, rfl⟩, ?_⟩
  rw [getSymLoc_ofXY left below.1, getSymLocXY, image]

theorem getSymLoc_mem_adjs (first : p ∈ boardLocs xSize ySize) (second : q ∈ boardLocs xSize ySize) :
    getSymLoc q xSize ySize symmetry ∈ adjs (symXSize xSize ySize symmetry) (getSymLoc p xSize ySize symmetry) ↔
      q ∈ adjs xSize p := by
  obtain ⟨x, y, left, below, rfl⟩ := mem_boardLocs_ofXY.1 first
  obtain ⟨x', y', left', below', rfl⟩ := mem_boardLocs_ofXY.1 second
  rw [getSymLoc_ofXY left below.1, getSymLoc_ofXY left' below'.1, getSymLocXY, getSymLocXY,
    ofXY_mem_adjs (symXY_bounds left below).1 (symXY_bounds left' below').1, ofXY_mem_adjs left left']
  exact symXY_beside

end SymmetryHelpers
open SymmetryHelpers

namespace Board

variable {b b' b₁ b₁' : Board} {symmetry : Nat} {p q loc : Loc} {pla : Player}

/-- The location on the image of the board. -/
def symLoc (b : Board) (symmetry : Nat) (loc : Loc) : Loc := getSymLoc loc b.xSize b.ySize symmetry

/-- `b'` has the shape and the stones of the image of `b`. -/
structure Mirrored (b b' : Board) (symmetry : Nat) : Prop where
  xSize : b'.xSize = symXSize b.xSize b.ySize symmetry
  ySize : b'.ySize = symXSize b.ySize b.xSize symmetry
  colors : ∀ p ∈ b.locs, b'.colors (b.symLoc symmetry p) = b.colors p

theorem Mirrored.mem_locs (mirrored : Mirrored b b' symmetry) (point : p ∈ b.locs) :
    b.symLoc symmetry p ∈ b'.locs := by
  unfold locs
  rw [mirrored.xSize, mirrored.ySize]
  exact getSymLoc_mem point

/-- The two positions are the same one, up to the names of the points. -/
theorem Mirrored.relocation (mirrored : Mirrored b b' symmetry) (shape : b.Shape) (shape' : b'.Shape) :
    Relocation (grid b.xSize) (grid b'.xSize) .wall b.colors b'.colors (b.symLoc symmetry) := by
  refine ⟨fun p here => mirrored.colors p (shape.mem_locs here), fun p q first second => ?_, fun p' here => ?_,
    fun p q first second => ?_⟩
  · rw [grid_adj, grid_adj, mirrored.xSize]
    exact getSymLoc_mem_adjs (shape.mem_locs first) (shape.mem_locs second)
  · have point := shape'.mem_locs here
    unfold locs at point
    rw [mirrored.xSize, mirrored.ySize] at point
    obtain ⟨p, there, same⟩ := getSymLoc_onto point
    exact ⟨p, fun wall => (shape.wall_iff p).1 wall there, same⟩
  · exact getSymLoc_injective (shape.mem_locs first) (shape.mem_locs second)

section Shape
variable [Zobrist] (move : Played b b₁ loc pla)
include move

theorem Played.locs : b₁.locs = b.locs := by
  unfold Board.locs
  rw [move.xSize, move.ySize]

theorem Played.symLoc : b₁.symLoc symmetry = b.symLoc symmetry := by
  unfold Board.symLoc
  rw [move.xSize, move.ySize]

end Shape

namespace Mirrored

section Sets
variable (mirrored : Mirrored b b' symmetry) (shape : b.Shape) (shape' : b'.Shape)
include mirrored shape shape'

theorem component_eq (here : b.colors p ≠ .wall) :
    b'.component (b.symLoc symmetry p) = b.symLoc symmetry '' b.component p := by
  have reloc := mirrored.relocation shape shape'
  ext q'
  constructor
  · intro path
    obtain ⟨q, -, same, back⟩ := reloc.chain_back here path
    exact ⟨q, back, same⟩
  · rintro ⟨q, path, rfl⟩
    exact reloc.chain here path

theorem liberties_eq (here : b.colors p ≠ .wall) :
    b'.liberties (b.symLoc symmetry p) = b.symLoc symmetry '' b.liberties p := by
  have reloc := mirrored.relocation shape shape'
  ext e'
  constructor
  · intro free
    obtain ⟨e, point, rfl⟩ := reloc.onto e' (by rw [free.1]; decide)
    exact ⟨e, (reloc.liberty_iff here point).1 free, rfl⟩
  · rintro ⟨e, free, rfl⟩
    exact (reloc.liberty_iff here (by rw [free.1]; decide)).2 free

omit mirrored shape' in
theorem ncard_image {S : Set Loc} (points : ∀ q ∈ S, b.colors q ≠ .wall) :
    (b.symLoc symmetry '' S).ncard = S.ncard := by
  refine Set.InjOn.ncard_image fun q first r second same => ?_
  exact getSymLoc_injective (shape.mem_locs (points q first))
    (shape.mem_locs (points r second)) same

end Sets

variable [Zobrist]

section Queries
variable (mirrored : Mirrored b b' symmetry) (consistent : b.Consistent) (consistent' : b'.Consistent)
include mirrored consistent consistent'

theorem getNumLiberties_eq (stone : (b.colors p).IsStone) :
    b'.getNumLiberties (b.symLoc symmetry p) = b.getNumLiberties p := by
  have stone' : (b'.colors (b.symLoc symmetry p)).IsStone := by
    rwa [mirrored.colors p (consistent.shape.stone_mem_locs stone)]
  rw [consistent'.regular.getNumLiberties stone', consistent.regular.getNumLiberties stone,
    mirrored.liberties_eq consistent.shape consistent'.shape stone.ne_wall, ncard_image consistent.shape]
  intro e free
  rw [free.1]
  decide

/-- Looking at the neighbours in either order gives the same answer, when walls do not count. -/
theorem any_adj (test : Board → Loc → Bool) (here : loc ∈ b.locs) (walls : ∀ a, b.colors a = .wall → test b a = false)
    (walls' : ∀ a, b'.colors a = .wall → test b' a = false)
    (same : ∀ a ∈ b.locs, test b' (b.symLoc symmetry a) = test b a) :
    (b'.adj (b.symLoc symmetry loc)).any (test b') = (b.adj loc).any (test b) := by
  have reloc := mirrored.relocation consistent.shape consistent'.shape
  have point : b.colors loc ≠ .wall := fun wall => (consistent.walls loc).1 wall here
  rw [Bool.eq_iff_iff, List.any_eq_true, List.any_eq_true]
  constructor
  · rintro ⟨a', near, holds⟩
    obtain ⟨a, there, rfl⟩ := reloc.onto a' fun wall => by simp [walls' a' wall] at holds
    rw [same a (consistent.shape.mem_locs there)] at holds
    exact ⟨a, (reloc.adj loc a point there).1 near, holds⟩
  · rintro ⟨a, near, holds⟩
    have there : b.colors a ≠ .wall := fun wall => by simp [walls a wall] at holds
    rw [← same a (consistent.shape.mem_locs there)] at holds
    exact ⟨b.symLoc symmetry a, (reloc.adj loc a point there).2 near, holds⟩

theorem isIllegalSuicide_eq (player : pla.IsStone) (here : loc ∈ b.locs) (multi : Bool) :
    b'.isIllegalSuicide (b.symLoc symmetry loc) pla multi = b.isIllegalSuicide loc pla multi := by
  refine congrArg (fun found => !found) (mirrored.any_adj consistent consistent' (fun b a =>
    if b.colors a = .empty then true
    else if b.colors a = pla then multi || decide (b.getNumLiberties a > 1)
    else if b.colors a = getOpp pla then decide (b.getNumLiberties a = 1)
    else false) here ?_ ?_ ?_)
  · intro a wall
    simp only [wall]
    rcases player with rfl | rfl <;> rfl
  · intro a wall
    simp only [wall]
    rcases player with rfl | rfl <;> rfl
  · intro a point
    by_cases stone : (b.colors a).IsStone
    · rw [mirrored.colors a point, mirrored.getNumLiberties_eq consistent consistent' stone]
    · rw [mirrored.colors a point]
      have notMine : b.colors a ≠ pla := fun mine => stone (by rwa [mine])
      have notTheirs : b.colors a ≠ getOpp pla := fun theirs => stone (by rw [theirs]; exact player.opp)
      simp only [if_neg notMine, if_neg notTheirs]

/-- On a point of the board legality is what it is on the image. -/
theorem isLegal_eq (here : loc ∈ b.locs) (ko : b'.koLoc = b.symLoc symmetry loc ↔ b.koLoc = loc) (multi : Bool) :
    b'.isLegal (b.symLoc symmetry loc) pla multi = b.isLegal loc pla multi := by
  have here' := mirrored.mem_locs here
  have bounds := boardLocs_bounds consistent.wide.2 consistent.high.2 here
  have bounds' := boardLocs_bounds consistent'.wide.2 consistent'.high.2 here'
  have notPass := boardLocs_ne_pass consistent.wide.2 consistent.high.2 here
  have notPass' := boardLocs_ne_pass consistent'.wide.2 consistent'.high.2 here'
  unfold isLegal
  split_ifs with other
  · rfl
  · have player : pla.IsStone := by
      rcases not_and_or.1 other with black | white
      · exact .inl (of_not_not black)
      · exact .inr (of_not_not white)
    have banned : b'.isKoBanned (b.symLoc symmetry loc) = b.isKoBanned loc := by
      unfold isKoBanned
      rw [decide_eq_decide, eq_comm, ko, eq_comm]
    rw [mirrored.colors loc here, mirrored.isIllegalSuicide_eq consistent consistent' player here, banned]
    have positive : 0 ≤ loc := Int.le_of_lt (Int.lt_trans (by decide) bounds.1)
    have positive' : 0 ≤ b.symLoc symmetry loc := Int.le_of_lt (Int.lt_trans (by decide) bounds'.1)
    simp only [notPass, notPass', positive, positive', bounds.2, bounds'.2]

end Queries

section Moves
variable (mirrored : Mirrored b b' symmetry) (shape : b.Shape) (shape' : b'.Shape)
include mirrored shape shape'

/-- One move on either board. -/
theorem played (here : b.colors loc ≠ .wall) (player : pla.IsStone) (move : Played b b₁ loc pla)
    (move' : Played b' b₁' (b.symLoc symmetry loc) pla) : Mirrored b₁ b₁' symmetry := by
  have reloc := (mirrored.relocation shape shape').play (show Color.empty ≠ .wall by decide) player.ne_wall
    player.opp.ne_wall here
  refine ⟨?_, ?_, fun p point => ?_⟩
  · rw [move'.xSize, mirrored.xSize, move.xSize, move.ySize]
  · rw [move'.ySize, mirrored.ySize, move.xSize, move.ySize]
  · have solid : b₁.colors p ≠ .wall := fun wall => (move.consistent.walls p).1 wall point
    rw [move.colors] at solid ⊢
    rw [move'.colors, move.symLoc]
    exact reloc.label p solid

theorem taken_eq (here : b.colors loc ≠ .wall) (player : pla.IsStone) (move : Played b b₁ loc pla)
    (move' : Played b' b₁' (b.symLoc symmetry loc) pla) (k : Color) (stone : k.IsStone) :
    taken (Function.update b'.colors (b.symLoc symmetry loc) pla) b₁'.colors k =
      b.symLoc symmetry '' taken (Function.update b.colors loc pla) b₁.colors k := by
  have placed := (mirrored.relocation shape shape').update player.ne_wall here
  have moved := (mirrored.played shape shape' here player move move').relocation move.consistent.shape
    move'.consistent.shape
  rw [move.symLoc] at moved
  ext q'
  constructor
  · rintro ⟨label, gone⟩
    obtain ⟨q, point, rfl⟩ := placed.onto q' (by rw [label]; exact stone.ne_wall)
    obtain ⟨r, solid, same⟩ := moved.onto (b.symLoc symmetry q) (by rw [gone]; decide)
    have onto : q ∈ b.locs := by
      by_cases there : q = loc
      · rw [there]
        exact shape.mem_locs here
      · rw [Function.update_of_ne there] at point
        exact shape.mem_locs point
    have back : r ∈ b.locs := by
      rw [← move.locs]
      exact move.consistent.shape.mem_locs solid
    obtain rfl := getSymLoc_injective back onto same
    rw [placed.label_iff point] at label
    rw [moved.label_iff solid] at gone
    exact ⟨r, ⟨label, gone⟩, rfl⟩
  · rintro ⟨q, ⟨label, gone⟩, rfl⟩
    refine ⟨(placed.label_iff ?_).2 label, (moved.label_iff ?_).2 gone⟩
    · rw [label]
      exact stone.ne_wall
    · rw [gone]
      decide

/-- The mover's stone is on the board after a move that takes something. -/
theorem koPoint_iff (here : b.colors loc ≠ .wall) (player : pla.IsStone) (move : Played b b₁ loc pla)
    (move' : Played b' b₁' (b.symLoc symmetry loc) pla) (point : p ∈ b.locs) :
    KoPoint b' b₁' (b.symLoc symmetry loc) pla (b.symLoc symmetry p) ↔ KoPoint b b₁ loc pla p := by
  have after := mirrored.played shape shape' here player move move'
  have onBoard : loc ∈ b.locs := shape.mem_locs here
  have solid : b₁.colors loc ≠ .wall := by
    rw [Ne, move.consistent.walls, move.locs]
    exact not_not.2 onBoard
  have component := after.component_eq move.consistent.shape move'.consistent.shape solid
  have liberties := after.liberties_eq move.consistent.shape move'.consistent.shape solid
  rw [move.symLoc] at component liberties
  have injective : Set.InjOn (b.symLoc symmetry) {q | q ∈ b.locs} := fun q first r second same =>
    getSymLoc_injective first second same
  have single : ∀ {S : Set Loc} {x}, (∀ q ∈ S, q ∈ b.locs) → x ∈ b.locs →
      (b.symLoc symmetry '' S = {b.symLoc symmetry x} ↔ S = {x}) := by
    intro S x points there
    rw [← Set.image_singleton]
    exact injective.image_eq_image_iff points (Set.singleton_subset_iff.2 there)
  have after' : ∀ {q}, b₁.colors q ≠ .wall → q ∈ b.locs := fun there => by
    rw [← move.locs]
    exact move.consistent.shape.mem_locs there
  unfold KoPoint
  rw [mirrored.taken_eq shape shape' here player move move' (getOpp pla) player.opp, component, liberties,
    single (fun q gone => after' (by rw [gone.2]; decide)) point,
    single (fun q path => after' (by rw [Chain.label path]; exact solid)) onBoard,
    single (fun q free => after' (by rw [free.1]; decide)) point]

theorem koLoc_eq (here : b.colors loc ≠ .wall) (player : pla.IsStone) (move : Played b b₁ loc pla)
    (move' : Played b' b₁' (b.symLoc symmetry loc) pla) :
    b₁'.koLoc = b.symLoc symmetry b₁.koLoc ∧ (b₁.koLoc = nullLoc ∨ b₁.koLoc ∈ b.locs) := by
  have point : ∀ {p}, KoPoint b b₁ loc pla p → p ∈ b.locs := fun {p} found => by
    have gone : p ∈ taken (Function.update b.colors loc pla) b₁.colors (getOpp pla) := by
      rw [found.1]
      rfl
    rw [← move.locs]
    exact move.consistent.shape.mem_locs (by rw [gone.2]; decide)
  by_cases some : ∃ p, KoPoint b b₁ loc pla p
  · obtain ⟨p, found⟩ := some
    have found' := (mirrored.koPoint_iff shape shape' here player move move' (point found)).2 found
    rw [move.ko p found, move'.ko _ found']
    exact ⟨rfl, .inr (point found)⟩
  · have none' : ¬ ∃ p', KoPoint b' b₁' (b.symLoc symmetry loc) pla p' := by
      rintro ⟨p', found⟩
      have gone : p' ∈ b.symLoc symmetry '' taken (Function.update b.colors loc pla) b₁.colors (getOpp pla) := by
        rw [← mirrored.taken_eq shape shape' here player move move' (getOpp pla) player.opp, found.1]
        rfl
      obtain ⟨p, taken, rfl⟩ := gone
      refine some ⟨p, (mirrored.koPoint_iff shape shape' here player move move' ?_).1 found⟩
      rw [← move.locs]
      exact move.consistent.shape.mem_locs (by rw [taken.2]; decide)
    rw [move.noKo some, move'.noKo none']
    exact ⟨rfl, .inl rfl⟩

end Moves

end Mirrored

section SymBoard
open scoped Classical

/-- The image of a board, as a position only. -/
noncomputable def image (b : Board) (symmetry : Nat) : Board :=
  { b with
    xSize := symXSize b.xSize b.ySize symmetry
    ySize := symXSize b.ySize b.xSize symmetry
    colors := fun p' => if found : ∃ p ∈ b.locs, b.symLoc symmetry p = p' then b.colors found.choose else .wall }

theorem mirrored_image (b : Board) (symmetry : Nat) : Mirrored b (b.image symmetry) symmetry := by
  refine ⟨rfl, rfl, fun p point => ?_⟩
  have found : ∃ q ∈ b.locs, b.symLoc symmetry q = b.symLoc symmetry p := ⟨p, point, rfl⟩
  show (if found : ∃ q ∈ b.locs, b.symLoc symmetry q = b.symLoc symmetry p then b.colors found.choose else .wall) = _
  rw [dif_pos found]
  have same := getSymLoc_injective found.choose_spec.1 point found.choose_spec.2
  rw [same]

theorem image_shape (shape : b.Shape) (symmetry : Nat) : (b.image symmetry).Shape := by
  have sizes : ∀ w h : Nat, 1 ≤ w ∧ w ≤ maxLen → 1 ≤ h ∧ h ≤ maxLen →
      1 ≤ symXSize w h symmetry ∧ symXSize w h symmetry ≤ maxLen := by
    intro w h wide high
    unfold symXSize
    split_ifs
    · exact high
    · exact wide
  refine ⟨sizes _ _ shape.wide shape.high, sizes _ _ shape.high shape.wide, fun p' => ?_⟩
  constructor
  · intro wall point
    obtain ⟨p, there, rfl⟩ := getSymLoc_onto point
    have same := (mirrored_image b symmetry).colors p there
    exact (shape.wall_iff p).1 (same.symm.trans wall) there
  · intro outside
    refine dif_neg ?_
    rintro ⟨p, there, rfl⟩
    exact outside ((mirrored_image b symmetry).mem_locs there)

theorem image_allAlive (shape : b.Shape) (alive : b.AllAlive) (symmetry : Nat) : (b.image symmetry).AllAlive := by
  have reloc := (mirrored_image b symmetry).relocation shape (image_shape shape symmetry)
  intro p' stone
  obtain ⟨p, here, rfl⟩ := reloc.onto p' stone.ne_wall
  rw [reloc.label p here] at stone
  exact (reloc.exists_liberty_iff (by decide) here).2 (alive p stone)

variable [Zobrist]

/-- A stone can be set wherever it leaves every chain with a liberty. -/
theorem setStoneFailIfNoLibs_back (alive : b.AllAlive) (consistent : b₁.Consistent) (xSize : b₁.xSize = b.xSize)
    (fewer : ∀ q, b₁.colors q = b.colors q ∨ b₁.colors q = .empty) (blank : b₁.colors p = .empty)
    (solid : b.colors p ≠ .wall) :
    ∃ b', b₁.setStoneFailIfNoLibs p (b.colors p) = some (b', true) ∧ b'.Consistent ∧ b'.xSize = b₁.xSize ∧
      b'.ySize = b₁.ySize ∧ b'.colors = Function.update b₁.colors p (b.colors p) ∧ b'.koLoc = nullLoc := by
  have member := consistent.shape.mem_locs (show b₁.colors p ≠ .wall by rw [blank]; decide)
  have bounds := boardLocs_bounds consistent.wide.2 consistent.high.2 member
  have settable : b₁.settable p (b.colors p) = true := by
    have positive : ¬ p < 0 := Int.not_lt.2 (Int.le_of_lt (Int.lt_trans (by decide) bounds.1))
    have below : ¬ p ≥ maxArrSize := Int.not_le.2 bounds.2
    unfold settable
    rcases colour : b.colors p with _ | _ | _ | _
    · simp [positive, below, blank]
    · simp [positive, below, blank]
    · simp [positive, below, blank]
    · exact absurd colour solid
  unfold setStoneFailIfNoLibs
  rw [if_neg (by simp [settable])]
  by_cases erase : b.colors p = .empty
  · rw [if_pos (blank.trans erase.symm), erase]
    exact ⟨_, rfl, (sameChains_withKo b₁ nullLoc).consistent consistent, rfl, rfl,
      (Function.update_eq_self_iff.2 blank.symm).symm, rfl⟩
  · have stone : (b.colors p).IsStone := by
      rcases colour : b.colors p with _ | _ | _ | _
      · exact absurd colour erase
      · exact .inl rfl
      · exact .inr rfl
      · exact absurd colour solid
    have captured : ∀ a ∈ b₁.adj p, b₁.colors a = getOpp (b.colors p) → b₁.getNumLiberties a ≠ 1 := by
      intro a near opposite one
      refine (captures_iff consistent.regular blank stone near opposite).1 one (liberty_back alive xSize fewer ?_)
      rw [Function.update_of_ne (ne_of_mem_adj near), opposite]
      exact stone.opp
    have notSuicide : b₁.isSuicide p (b.colors p) = false := by
      rw [← Bool.not_eq_true, isSuicide_iff consistent.regular blank stone]
      rintro ⟨-, trapped⟩
      exact trapped (liberty_back alive xSize fewer (by rw [Function.update_self]; exact stone))
    have notCapture : b₁.wouldBeCapture p (b.colors p) = false := by
      unfold wouldBeCapture
      rw [if_neg (not_not.2 blank), List.any_eq_false]
      intro a near both
      obtain ⟨opposite, one⟩ := of_decide_eq_true both
      exact captured a near opposite one
    obtain ⟨b', run, consistent', xSize', ySize', colours'⟩ :=
      playMoveAssumeLegal_back alive consistent xSize fewer blank stone
    rw [if_neg (fun same => erase (same.symm.trans blank)), if_pos blank, notSuicide, notCapture, run]
    exact ⟨_, rfl, (sameChains_withKo b' nullLoc).consistent consistent', xSize', ySize', colours', rfl⟩

/-- The points that are not in `rest` have been copied. -/
structure Copied (b : Board) (symmetry : Nat) (rest : List Loc) (s : Board × Loc) : Prop where
  consistent : s.1.Consistent
  xSize : s.1.xSize = symXSize b.xSize b.ySize symmetry
  ySize : s.1.ySize = symXSize b.ySize b.xSize symmetry
  colors : ∀ p ∈ b.locs, s.1.colors (b.symLoc symmetry p) = if p ∈ rest then .empty else b.colors p
  koLoc : s.1.koLoc = nullLoc
  symKoLoc : s.2 = if b.koLoc ∈ b.locs ∧ b.koLoc ∉ rest then b.symLoc symmetry b.koLoc else nullLoc

theorem Copied.fewer {rest : List Loc} {s : Board × Loc} (copied : Copied b symmetry rest s)
    (shape : b.Shape) (q : Loc) :
    s.1.colors q = (b.image symmetry).colors q ∨ s.1.colors q = .empty := by
  by_cases point : q ∈ (b.image symmetry).locs
  · obtain ⟨p, there, rfl⟩ := getSymLoc_onto point
    have copy := copied.colors p there
    have whole := (mirrored_image b symmetry).colors p there
    unfold symLoc at copy whole
    rw [copy, whole]
    split_ifs
    · exact .inr rfl
    · exact .inl rfl
  · left
    have outside : q ∉ s.1.locs := by
      unfold locs at point ⊢
      rw [copied.xSize, copied.ySize]
      exact point
    rw [(copied.consistent.walls q).2 outside, ((image_shape shape symmetry).wall_iff q).2 point]

/-- Copying the next point. -/
theorem Copied.step (consistent : b.Consistent) {xy : Nat × Nat} {rest : List Loc} {s : Board × Loc}
    (point : xy ∈ boardXYs b.xSize b.ySize) (fresh : Location.getLoc xy.1 xy.2 b.xSize ∉ rest)
    (copied : Copied b symmetry (Location.getLoc xy.1 xy.2 b.xSize :: rest) s) :
    ∃ s', symPoint b symmetry s xy = some s' ∧ Copied b symmetry rest s' := by
  have shape := consistent.shape
  obtain ⟨left, below⟩ := mem_boardXYs.1 point
  obtain ⟨loc, named⟩ : ∃ loc, loc = Location.getLoc xy.1 xy.2 b.xSize := ⟨_, rfl⟩
  rw [← named] at fresh copied
  have here : loc ∈ b.locs := mem_boardLocs.2 ⟨xy.2, below, xy.1, left, named⟩
  have target : getSymLocXY xy.1 xy.2 b.xSize b.ySize symmetry = b.symLoc symmetry loc := by
    rw [named]
    exact (getSymLoc_ofXY (by omega) (by omega)).symm
  have solid : b.colors loc ≠ .wall := fun wall => (shape.wall_iff loc).1 wall here
  have blank : s.1.colors (b.symLoc symmetry loc) = .empty := by
    rw [copied.colors loc here, if_pos (by simp)]
  have goal := (mirrored_image b symmetry).colors loc here
  obtain ⟨b', run, consistent', xSize', ySize', colours', koLoc'⟩ := setStoneFailIfNoLibs_back
    (image_allAlive shape consistent.allAlive symmetry) copied.consistent copied.xSize (copied.fewer shape) blank
    (by rw [goal]; exact solid)
  rw [goal] at run colours'
  refine ⟨(b', if loc = b.koLoc then b.symLoc symmetry loc else s.2), ?_, consistent', xSize'.trans copied.xSize,
    ySize'.trans copied.ySize, fun p there => ?_, koLoc', ?_⟩
  · unfold symPoint
    simp only [← named, target, run, Option.bind_eq_bind, Option.bind_some, guard_true, Option.pure_def]
  · rw [colours']
    by_cases same : p = loc
    · rw [same, Function.update_self, if_neg fresh]
    · have apart : b.symLoc symmetry p ≠ b.symLoc symmetry loc := fun equal =>
        same (getSymLoc_injective there here equal)
      rw [Function.update_of_ne apart, copied.colors p there]
      simp [same]
  · show (if loc = b.koLoc then b.symLoc symmetry loc else s.2) = _
    by_cases ko : loc = b.koLoc
    · rw [← ko, if_pos rfl, if_pos ⟨here, fresh⟩]
    · rw [if_neg ko, copied.symKoLoc]
      simp [Ne.symm ko]

theorem Copied.fold (consistent : b.Consistent) (rest : List (Nat × Nat)) {s : Board × Loc}
    (points : ∀ xy ∈ rest, xy ∈ boardXYs b.xSize b.ySize)
    (nodup : (rest.map fun xy => Location.getLoc xy.1 xy.2 b.xSize).Nodup)
    (copied : Copied b symmetry (rest.map fun xy => Location.getLoc xy.1 xy.2 b.xSize) s) :
    ∃ s', rest.foldlM (symPoint b symmetry) s = some s' ∧ Copied b symmetry [] s' := by
  induction rest generalizing s with
  | nil => exact ⟨s, rfl, copied⟩
  | cons xy rest ih =>
    rw [List.map_cons, List.nodup_cons] at nodup
    obtain ⟨s₁, step, copied₁⟩ := Copied.step consistent (points xy (by simp)) nodup.1 copied
    obtain ⟨s', run, final⟩ := ih (fun xy' member => points xy' (by simp [member])) nodup.2 copied₁
    refine ⟨s', ?_, final⟩
    rw [List.foldlM_cons, step]
    exact run

/-- The image exists, has the stones and the shape it should have, and the ko point if there is one. -/
theorem getSymBoard_spec (consistent : b.Consistent) (symmetry : Nat) :
    ∃ b', getSymBoard b symmetry = some b' ∧ b'.Consistent ∧ Mirrored b b' symmetry ∧
      b'.koLoc = if b.koLoc ∈ b.locs then b.symLoc symmetry b.koLoc else nullLoc := by
  have shape := image_shape consistent.shape symmetry
  obtain ⟨b₀, start, consistent₀⟩ := init_consistent (symXSize b.xSize b.ySize symmetry)
    (symXSize b.ySize b.xSize symmetry) shape.wide shape.high
  have begun : Copied b symmetry ((boardXYs b.xSize b.ySize).map fun xy => Location.getLoc xy.1 xy.2 b.xSize)
      (b₀, nullLoc) := by
    rw [← boardLocs_eq_map]
    unfold init at start
    split_ifs at start
    cases start
    refine ⟨consistent₀, rfl, rfl, fun p point => ?_, rfl, ?_⟩
    · have inside : b.symLoc symmetry p ∈ boardLocs (symXSize b.xSize b.ySize symmetry)
          (symXSize b.ySize b.xSize symmetry) := (mirrored_image b symmetry).mem_locs point
      rw [if_pos (show p ∈ boardLocs b.xSize b.ySize from point)]
      exact (foldl_update_apply _ _ _ _).trans (if_pos inside)
    · exact (if_neg fun both => both.2 both.1).symm
  obtain ⟨s, run, copied⟩ := Copied.fold consistent (boardXYs b.xSize b.ySize) (fun _ member => member)
    (by rw [← boardLocs_eq_map]; exact boardLocs_nodup _ _) begun
  have ko := copied.symKoLoc
  simp only [List.not_mem_nil, not_false_eq_true, and_true] at ko
  have result : getSymBoard b symmetry = some (if s.2 ≠ nullLoc then { s.1 with koLoc := s.2 } else s.1) := by
    unfold getSymBoard
    simp only [start, run, Option.bind_eq_bind, Option.bind_some]
    rfl
  refine ⟨_, result, ?_, ?_, ?_⟩
  · split_ifs
    · exact (sameChains_withKo s.1 s.2).consistent copied.consistent
    · exact copied.consistent
  · have same : ∀ ko, Mirrored b { s.1 with koLoc := ko } symmetry := fun ko =>
      ⟨copied.xSize, copied.ySize, fun p point => (copied.colors p point).trans (if_neg (by simp))⟩
    split_ifs
    · exact same s.2
    · exact same s.1.koLoc
  · rw [← ko]
    split_ifs with other
    · rfl
    · rw [copied.koLoc]
      exact (of_not_not other).symm

end SymBoard

section Area
open scoped Classical

theorem solid_side (player : pla.IsStone) : Relocation.Solid (side pla player) Color.wall :=
  ⟨Color.noConfusion, player.ne_wall, player.opp.ne_wall⟩

variable (mirrored : Mirrored b b' symmetry) (shape : b.Shape) (shape' : b'.Shape)
include mirrored shape shape'

theorem Mirrored.withArea_eq (player : pla.IsStone) (safe loose suicide : Bool) {result result' : Loc → Color}
    (same : ∀ p ∈ b.locs, result' (b.symLoc symmetry p) = result p) (point : p ∈ b.locs) :
    b'.withArea pla player safe loose suicide result' (b.symLoc symmetry p) =
      b.withArea pla player safe loose suicide result p := by
  have reloc := mirrored.relocation shape shape'
  have here : b.colors p ≠ .wall := fun wall => (shape.wall_iff p).1 wall point
  unfold withArea Owned Surrounded
  rw [reloc.owned_iff (solid_side player) here, reloc.surrounded_iff (solid_side player) here, same p point]

omit shape shape' in
theorem Mirrored.markNonPassAliveStones_eq {result result' : Loc → Color}
    (same : ∀ p ∈ b.locs, result' (b.symLoc symmetry p) = result p) (point : p ∈ b.locs) :
    b'.markNonPassAliveStones result' (b.symLoc symmetry p) = b.markNonPassAliveStones result p := by
  rw [markNonPassAliveStones_apply, markNonPassAliveStones_apply, same p point, mirrored.colors p point]
  exact if_congr (and_congr_left fun _ => iff_of_true (mirrored.mem_locs point) point) rfl rfl

end Area

variable [Zobrist]

theorem Mirrored.calculateArea_eq (mirrored : Mirrored b b' symmetry) (consistent : b.Consistent)
    (consistent' : b'.Consistent) (nonPassAliveStones safe loose suicide : Bool) :
    ∃ result result', b.calculateArea nonPassAliveStones safe loose suicide = some result ∧
      b'.calculateArea nonPassAliveStones safe loose suicide = some result' ∧
        ∀ p ∈ b.locs, result' (b.symLoc symmetry p) = result p := by
  have add := fun {pla : Player} (player : pla.IsStone) (result result' : Loc → Color)
    (same : ∀ p ∈ b.locs, result' (b.symLoc symmetry p) = result p) (p : Loc) (point : p ∈ b.locs) =>
      mirrored.withArea_eq consistent.shape consistent'.shape player safe loose suicide same point
  have black := add (.inl rfl) (fun _ => .empty) (fun _ => .empty) fun _ _ => rfl
  have white := add (.inr rfl) _ _ black
  refine ⟨_, _, calculateAreaInOrder_eq consistent (.inl rfl) (.inr rfl) _ _ _ _,
    calculateAreaInOrder_eq consistent' (.inl rfl) (.inr rfl) _ _ _ _, fun p point => ?_⟩
  cases nonPassAliveStones with
  | true => exact mirrored.markNonPassAliveStones_eq white point
  | false => exact white p point

omit [Zobrist] in
theorem isLegal_off (shape : b.Shape) (outside : loc ∉ b.locs) (notPass : loc ≠ passLoc) (multi : Bool) :
    b.isLegal loc pla multi = false := by
  unfold isLegal
  rw [(shape.wall_iff loc).2 outside]
  split_ifs <;> simp [notPass]

omit [Zobrist] in
theorem symLoc_pass (b : Board) (symmetry : Nat) : b.symLoc symmetry passLoc = passLoc := by
  unfold symLoc getSymLoc
  exact if_pos (.inr rfl)

omit [Zobrist] in
theorem symLoc_null (b : Board) (symmetry : Nat) : b.symLoc symmetry nullLoc = nullLoc := by
  unfold symLoc getSymLoc
  exact if_pos (.inl rfl)

omit [Zobrist] in
theorem isLegalIgnoringKo_of_isLegal {multi : Bool} (legal : b.isLegal loc pla multi = true) :
    b.isLegalIgnoringKo loc pla multi = true := by
  unfold isLegal at legal
  unfold isLegalIgnoringKo
  split_ifs at legal ⊢ with other
  simp only [Bool.or_eq_true, Bool.and_eq_true] at legal ⊢
  exact legal.imp_right fun tests => ⟨tests.1.1, tests.2⟩

/-- Legality on the image. Off the board a location may have an image on it, or pass as its image. -/
theorem Mirrored.legal_iff (mirrored : Mirrored b b' symmetry) (consistent : b.Consistent) (consistent' : b'.Consistent)
    (ko : b'.koLoc = if b.koLoc ∈ b.locs then b.symLoc symmetry b.koLoc else nullLoc) (multi : Bool)
    (sensible : loc ∈ b.locs ∨ loc = passLoc ∨
      b.symLoc symmetry loc ∉ b'.locs ∧ b.symLoc symmetry loc ≠ passLoc) :
    b'.isLegal (b.symLoc symmetry loc) pla multi = b.isLegal loc pla multi := by
  have shape := consistent.shape
  by_cases here : loc ∈ b.locs
  · refine mirrored.isLegal_eq consistent consistent' here ?_ multi
    rw [ko]
    split_ifs with point
    · exact ⟨fun same => getSymLoc_injective point here same, congrArg _⟩
    · refine iff_of_false (fun same => ?_) fun same => point (same ▸ here)
      exact boardLocs_ne_null consistent'.wide.2 consistent'.high.2 (mirrored.mem_locs here) same.symm
  · rcases sensible.resolve_left here with rfl | ⟨outside, notPass⟩
    · rw [symLoc_pass]
      simp [isLegal]
    · rw [isLegal_off consistent'.shape outside notPass]
      refine (isLegal_off shape here (fun pass => notPass ?_) multi).symm
      rw [pass, symLoc_pass]

/-- A legal move, and then the symmetry, or first the symmetry and then the move. -/
theorem Mirrored.move_eq (mirrored : Mirrored b b' symmetry) (consistent : b.Consistent) (consistent' : b'.Consistent)
    {multi : Bool} (legal : b.isLegal loc pla multi = true) :
    ∃ after after' symAfter, b.playMoveAssumeLegal loc pla = some after ∧
      b'.playMoveAssumeLegal (b.symLoc symmetry loc) pla = some after' ∧
      getSymBoard after symmetry = some symAfter ∧ symAfter.colors = after'.colors ∧
      symAfter.koLoc = after'.koLoc := by
  have finish : ∀ {after after' : Board}, after.Consistent → after'.Consistent → Mirrored after after' symmetry →
      after'.koLoc = after.symLoc symmetry after.koLoc → (after.koLoc = nullLoc ∨ after.koLoc ∈ after.locs) →
      ∃ symAfter, getSymBoard after symmetry = some symAfter ∧ symAfter.colors = after'.colors ∧
        symAfter.koLoc = after'.koLoc := by
    intro after after' known known' same ko point
    obtain ⟨symAfter, image, known'', same', ko'⟩ := getSymBoard_spec known symmetry
    refine ⟨symAfter, image, funext fun p' => ?_, ?_⟩
    · have sizes : symAfter.locs = after'.locs := by
        unfold locs
        rw [same.xSize, same.ySize, same'.xSize, same'.ySize]
      by_cases there : p' ∈ after'.locs
      · obtain ⟨p, solid, rfl⟩ := (same.relocation known.shape known'.shape).onto p'
          fun wall => (known'.walls p').1 wall there
        rw [same.colors p (known.shape.mem_locs solid), same'.colors p (known.shape.mem_locs solid)]
      · rw [(known'.walls p').2 there, (known''.walls p').2 (by rwa [sizes])]
    · rw [ko, ko']
      split_ifs with inside
      · rfl
      · rw [point.resolve_right inside, symLoc_null]
  by_cases pass : loc = passLoc
  · have still : ∀ {b : Board}, b.Consistent → ({ b with koLoc := nullLoc } : Board).Consistent := fun known =>
      (sameChains_withKo _ nullLoc).consistent known
    obtain ⟨symAfter, found⟩ := finish (still consistent) (still consistent')
      ⟨mirrored.xSize, mirrored.ySize, mirrored.colors⟩ (symLoc_null _ symmetry).symm (.inl rfl)
    refine ⟨_, _, symAfter, if_pos pass, if_pos ?_, found⟩
    rw [pass, symLoc_pass]
  · obtain ⟨blank, player, -⟩ := blank_of_legal (isLegalIgnoringKo_of_isLegal legal) pass
    have here : b.colors loc ≠ .wall := by
      rw [blank]
      decide
    have blank' : b'.colors (b.symLoc symmetry loc) = .empty :=
      (mirrored.colors loc (consistent.shape.mem_locs here)).trans blank
    obtain ⟨after, run, move⟩ := playMoveAssumeLegal_spec consistent blank player
    obtain ⟨after', run', move'⟩ := playMoveAssumeLegal_spec consistent' blank' player
    obtain ⟨ko, point⟩ := mirrored.koLoc_eq consistent.shape consistent'.shape here player move move'
    obtain ⟨symAfter, found⟩ := finish move.consistent move'.consistent
      (mirrored.played consistent.shape consistent'.shape here player move move') (by rw [move.symLoc, ko])
      (by rwa [move.locs])
    exact ⟨after, after', symAfter, run, run', found⟩

/-- The rules engine is symmetric. A point of the board, pass, and any location whose image is neither a
point nor pass is legal when its image is; a legal move leads to the image of the position it
leads to on the board itself; and areas are images. -/
theorem getSymBoard_equivariant (b : Board) (symmetry : Nat) (consistent : b.Consistent) :
    ∃ b', getSymBoard b symmetry = some b' ∧ b'.Consistent ∧
      (∀ pla multi loc, loc ∈ b.locs ∨ loc = passLoc ∨ getSymLoc loc b.xSize b.ySize symmetry ∉ b'.locs ∧
          getSymLoc loc b.xSize b.ySize symmetry ≠ passLoc →
        b'.isLegal (getSymLoc loc b.xSize b.ySize symmetry) pla multi = b.isLegal loc pla multi) ∧
      (∀ pla multi loc, b.isLegal loc pla multi = true → ∃ after after' symAfter,
        b.playMoveAssumeLegal loc pla = some after ∧
        b'.playMoveAssumeLegal (getSymLoc loc b.xSize b.ySize symmetry) pla = some after' ∧
        getSymBoard after symmetry = some symAfter ∧ symAfter.colors = after'.colors ∧
        symAfter.koLoc = after'.koLoc) ∧
      ∀ nonPassAliveStones safeBigTerritories unsafeBigTerritories isMultiStoneSuicideLegal, ∃ result result',
        b.calculateArea nonPassAliveStones safeBigTerritories unsafeBigTerritories isMultiStoneSuicideLegal =
          some result ∧
        b'.calculateArea nonPassAliveStones safeBigTerritories unsafeBigTerritories isMultiStoneSuicideLegal =
          some result' ∧
        ∀ p ∈ b.locs, result' (getSymLoc p b.xSize b.ySize symmetry) = result p := by
  obtain ⟨b', image, consistent', mirrored, ko⟩ := getSymBoard_spec consistent symmetry
  exact ⟨b', image, consistent', fun pla multi loc => mirrored.legal_iff consistent consistent' ko multi,
    fun pla multi loc => mirrored.move_eq consistent consistent', mirrored.calculateArea_eq consistent consistent'⟩

omit [Zobrist] in
/-- Three stones on a board of two rows, exchanged with its columns. -/
theorem getSymBoard_equivariant_three :
    letI := Zobrist.blank
    ∃ b b' after after', threeStones = some b ∧ getSymBoard b 5 = some b' ∧
      b'.isLegal (getSymLoc (Location.getLoc 2 0 3) 3 2 5) .white true = true ∧
      b.playMoveAssumeLegal (Location.getLoc 2 0 3) .white = some after ∧
      b'.playMoveAssumeLegal (getSymLoc (Location.getLoc 2 0 3) 3 2 5) .white = some after' ∧
      (getSymBoard after 5).map Board.koLoc = some after'.koLoc := by
  let _ := Zobrist.blank
  obtain ⟨b, made, consistent⟩ := threeStones_consistent
  obtain ⟨b', image, -, legality, moves, -⟩ := getSymBoard_equivariant b 5 consistent
  have sizes : threeStones.map (fun b => (b.xSize, b.ySize)) = some (3, 2) := by decide +kernel
  have legal : threeStones.map (fun b => b.isLegal (Location.getLoc 2 0 3) .white true) = some true := by
    decide +kernel
  rw [made] at sizes legal
  obtain ⟨xSize, ySize⟩ := Prod.mk.inj (Option.some.inj sizes)
  have one := Option.some.inj legal
  rw [xSize, ySize] at legality moves
  have point : Location.getLoc 2 0 3 ∈ b.locs := by
    unfold locs
    rw [xSize, ySize]
    decide
  obtain ⟨after, after', symAfter, run, run', symmetric, -, ko⟩ := moves .white true _ one
  refine ⟨b, b', after, after', made, image, (legality .white true _ (.inl point)).trans one, run, run', ?_⟩
  rw [symmetric]
  exact congrArg some ko

omit [Zobrist] in
/-- The wall above the last column is mirrored to the number that stands for a pass. -/
theorem isLegal_wall_mirrored :
    letI := Zobrist.blank
    ∃ b b', init 2 2 = some b ∧ b.Consistent ∧ getSymBoard b 2 = some b' ∧
      b.isLegal 2 .black true = false ∧ b'.isLegal (getSymLoc 2 b.xSize b.ySize 2) .black true = true := by
  let _ := Zobrist.blank
  obtain ⟨b, start, consistent⟩ := init_consistent 2 2 (by decide) (by decide)
  obtain ⟨b', image, -⟩ := getSymBoard_spec consistent 2
  have sizes : (init 2 2).map (fun b => (b.xSize, b.ySize, b.isLegal 2 .black true)) = some (2, 2, false) := by
    decide +kernel
  rw [start] at sizes
  obtain ⟨xSize, ySize, wall⟩ := by simpa using sizes
  refine ⟨b, b', start, consistent, image, wall, ?_⟩
  rw [xSize, ySize, show getSymLoc 2 2 2 2 = passLoc by decide]
  simp [isLegal]

end Board
end KataGo.Game
