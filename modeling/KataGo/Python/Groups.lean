import KataGo.Python.Board
import KataGo.Game.Move

/-! The group bookkeeping of the Python board. A head stands for the set of all locations
that carry it; empty points and walls carry a head that is never positive, so that the
source may compare heads without looking at colours. -/

namespace KataGo.Python
open KataGo.Lib CircularList Labelling
open KataGo.Game (Color Player getOpp Loc adjs boardLocs grid adjs_symm adjs_nodup not_mem_adjs_self)

namespace Board

/-- Sizes in range, and walls exactly off the board. -/
structure Shape (b : Board) : Prop where
  wide : 2 ≤ b.xSize ∧ b.xSize ≤ 50
  high : 2 ≤ b.ySize ∧ b.ySize ≤ 50
  wall_iff : ∀ p, b.board p = .wall ↔ p ∉ b.locs

/-- The empty points next to a location with head `h`. -/
def libs (b : Board) (h : Loc) : Finset Loc :=
  b.locs.toFinset.filter fun e => b.board e = .empty ∧ ∃ q ∈ b.adj e, b.groupHead q = h

/-- The links go around exactly the locations with head `h`. -/
structure Ring (b : Board) (h : Loc) (l : List Loc) : Prop where
  nodup : l.Nodup
  mem : ∀ q, q ∈ l ↔ b.groupHead q = h
  ringed : Ringed b.groupNext b.groupPrev l

/-- The group with head `h` is recorded correctly. -/
structure Group (b : Board) (h : Loc) : Prop where
  stone : (b.board h).IsStone
  self : b.groupHead h = h
  colour : ∀ q, b.groupHead q = h → b.board q = b.board h
  ring : ∃ l, b.Ring h l ∧ b.groupStoneCount h = l.length
  liberties : b.groupLibertyCount h = (b.libs h).card

/-- Nothing is recorded at `p`. -/
structure Vacant (b : Board) (p : Loc) : Prop where
  head : b.groupHead p = 0
  next : b.groupNext p = 0
  prev : b.groupPrev p = 0

/-- Every stone belongs to a correctly recorded group, and nothing else does. -/
structure Booked (b : Board) : Prop where
  shape : b.Shape
  vacant : ∀ p, b.board p = .empty → b.Vacant p
  wall : ∀ p, b.board p = .wall → b.groupHead p ≤ 0
  group : ∀ p, (b.board p).IsStone → b.Group (b.groupHead p)

/-- The groups are the connected components. -/
structure Regular (b : Board) : Prop where
  booked : b.Booked
  component : ∀ p q, (b.board p).IsStone →
    (b.groupHead q = b.groupHead p ↔ Chain (grid b.xSize) b.board p q)

variable {b b' : Board} {h p q e loc : Loc}

section Shape

theorem locs_bounds {p : Int} (member : p ∈ b.locs) : 0 < p ∧ p < b.arrsize := by
  obtain ⟨y, below, x, left, rfl⟩ := KataGo.Game.mem_boardLocs.1 member
  have rows : (y + 1) * (b.xSize + 1) ≤ b.ySize * (b.xSize + 1) := Nat.mul_le_mul_right _ (by omega)
  have lower : 0 ≤ (y + 1) * (b.xSize + 1) := Nat.zero_le _
  have cast : ((y : Int) + 1) * (b.xSize + 1) = (((y + 1) * (b.xSize + 1) : Nat) : Int) := by push_cast; ring
  have size : b.arrsize = b.ySize * (b.xSize + 1) + 2 * (b.xSize + 1) + 1 := by
    unfold arrsize arrSize
    ring
  unfold KataGo.Game.Location.getLoc
  rw [cast, size]
  generalize (y + 1) * (b.xSize + 1) = row at rows ⊢
  generalize b.ySize * (b.xSize + 1) = total at rows ⊢
  omega

theorem card_locs_le (b : Board) : b.locs.toFinset.card ≤ b.arrsize := by
  calc b.locs.toFinset.card
      ≤ b.locs.length := List.toFinset_card_le _
    _ = b.ySize * b.xSize := by simp [locs, boardLocs, List.length_flatMap]
    _ ≤ (b.xSize + 1) * (b.ySize + 2) := by
        rw [Nat.mul_comm]
        exact Nat.mul_le_mul (by omega) (by omega)
    _ ≤ b.arrsize := Nat.le_succ _

theorem Shape.mem_locs (shape : b.Shape) (point : b.board p ≠ .wall) : p ∈ b.locs := by
  by_contra off
  exact point ((shape.wall_iff p).2 off)

theorem Shape.positive (shape : b.Shape) (point : b.board p ≠ .wall) : 0 < p :=
  (locs_bounds (shape.mem_locs point)).1

theorem Shape.isOnBoard_iff (shape : b.Shape) : b.isOnBoard p = true ↔ p ∈ b.locs := by
  simp only [isOnBoard, decide_eq_true_eq]
  constructor
  · rintro ⟨-, -, point⟩
    exact shape.mem_locs point
  · intro member
    have bounds := locs_bounds member
    exact ⟨bounds.1.le, bounds.2, fun wall => (shape.wall_iff p).1 wall member⟩

theorem Shape.adj_nodup (shape : b.Shape) (p : Loc) : (b.adj p).Nodup :=
  adjs_nodup (by have := shape.wide; omega) p

/-- Any colours that differ only between points keep the shape. -/
theorem Shape.recolor (shape : b.Shape) (xSame : b'.xSize = b.xSize) (ySame : b'.ySize = b.ySize)
    (walls : ∀ p, b'.board p = .wall ↔ b.board p = .wall) : b'.Shape := by
  refine ⟨by rw [xSame]; exact shape.wide, by rw [ySame]; exact shape.high, fun p => ?_⟩
  rw [walls, shape.wall_iff, locs, locs, xSame, ySame]

theorem adj_symm (adjacent : p ∈ b.adj q) : q ∈ b.adj p := adjs_symm adjacent

theorem ne_of_mem_adj (adjacent : q ∈ b.adj p) : q ≠ p := by
  rintro rfl
  exact not_mem_adjs_self b.xSize q adjacent

theorem mem_libs (shape : b.Shape) :
    e ∈ b.libs h ↔ b.board e = .empty ∧ ∃ q ∈ b.adj e, b.groupHead q = h := by
  simp only [libs, Finset.mem_filter, List.mem_toFinset, and_iff_right_iff_imp]
  intro found
  exact shape.mem_locs (by rw [found.1]; decide)

theorem cases_of_not_stone {c : Color} (other : ¬ c.IsStone) : c = .empty ∨ c = .wall := by
  cases c with
  | empty => exact Or.inl rfl
  | wall => exact Or.inr rfl
  | black => exact absurd (Or.inl rfl) other
  | white => exact absurd (Or.inr rfl) other

end Shape

section Groups

theorem Ring.length_le (shape : b.Shape) {l : List Loc} (ring : b.Ring h l)
    (stones : ∀ q, b.groupHead q = h → (b.board q).IsStone) : l.length ≤ b.arrsize := by
  calc l.length = l.toFinset.card := (List.toFinset_card_of_nodup ring.nodup).symm
    _ ≤ b.locs.toFinset.card := Finset.card_le_card fun q member => List.mem_toFinset.2
        (shape.mem_locs (stones q ((ring.mem q).1 (List.mem_toFinset.1 member))).ne_wall)
    _ ≤ b.arrsize := b.card_locs_le

theorem Ring.rotated {l l' : List Loc} (ring : b.Ring h l) (rotated : l ~r l') : b.Ring h l' :=
  ⟨rotated.nodup_iff.1 ring.nodup, fun q => rotated.mem_iff.symm.trans (ring.mem q), ring.ringed.rotated rotated⟩

theorem Group.stones (group : b.Group h) (inside : b.groupHead q = h) : (b.board q).IsStone := by
  rw [group.colour q inside]
  exact group.stone

/-- The loops of the source visit the group once, from wherever they start. -/
theorem Group.groupLocs (group : b.Group h) (shape : b.Shape) (inside : b.groupHead p = h) :
    ∃ t, b.groupLocs p = some (p :: t) ∧ b.Ring h (p :: t) ∧ b.groupStoneCount h = (p :: t).length := by
  obtain ⟨l, ring, size⟩ := group.ring
  obtain ⟨t, walked, rotated⟩ := walk_of_linked ring.ringed.forward ring.nodup ((ring.mem p).2 inside)
    (ring.length_le shape fun q => group.stones)
  exact ⟨t, walked, ring.rotated rotated, by rw [size, rotated.perm.length_eq]⟩

/-- A change that leaves the stones, links and size of a group alone keeps it well formed. -/
theorem Group.frame (group : b.Group h)
    (members : ∀ q, b'.groupHead q = h ↔ b.groupHead q = h)
    (colours : ∀ q, b.groupHead q = h → b'.board q = b.board q)
    (nexts : ∀ q, b.groupHead q = h → b'.groupNext q = b.groupNext q)
    (prevs : ∀ q, b.groupHead q = h → b'.groupPrev q = b.groupPrev q)
    (count : b'.groupStoneCount h = b.groupStoneCount h)
    (liberties : b'.groupLibertyCount h = (b'.libs h).card) : b'.Group h := by
  have headColour := colours h group.self
  obtain ⟨l, ring, size⟩ := group.ring
  refine ⟨by rw [headColour]; exact group.stone, (members h).2 group.self, ?_, ⟨l, ⟨ring.nodup,
    fun q => (ring.mem q).trans (members q).symm, ring.ringed.congr
      (fun q member => nexts q ((ring.mem q).1 member)) (fun q member => prevs q ((ring.mem q).1 member))⟩,
    by rw [count, size]⟩, liberties⟩
  intro q inside
  have before := (members q).1 inside
  rw [colours q before, headColour, group.colour q before]

/-- A head tells the colour of the stones under it from everything else. -/
def Uniform (b : Board) : Prop :=
  ∀ p q, (b.board p).IsStone → b.groupHead q = b.groupHead p → b.board q = b.board p

theorem Booked.uniform (booked : b.Booked) : b.Uniform := by
  intro p q stone same
  have group := booked.group p stone
  rw [group.colour q same, group.colour p rfl]

theorem Booked.head_positive (booked : b.Booked) (stone : (b.board p).IsStone) : 0 < b.groupHead p :=
  booked.shape.positive (booked.group p stone).stone.ne_wall

theorem Booked.head_nonpos (booked : b.Booked) (other : ¬ (b.board p).IsStone) : b.groupHead p ≤ 0 := by
  rcases cases_of_not_stone other with blank | wall
  · rw [(booked.vacant p blank).head]
  · exact booked.wall p wall

theorem Regular.head_eq (regular : b.Regular) (stone : (b.board p).IsStone) (adjacent : q ∈ b.adj p)
    (same : b.board q = b.board p) : b.groupHead q = b.groupHead p :=
  (regular.component p q stone).2 (Chain.single adjacent same)

end Groups

section Liberties

variable {mine : Color → Bool} {delta : Int}

theorem changeLibertiesFrom_frame (earlier rest : List Loc) (b : Board) :
    changeLibertiesFrom mine delta earlier rest b =
      { b with groupLibertyCount := (changeLibertiesFrom mine delta earlier rest b).groupLibertyCount } := by
  induction rest generalizing earlier b with
  | nil => rfl
  | cons a rest ih =>
    rw [changeLibertiesFrom]
    split_ifs
    · exact ih (earlier ++ [a]) (b.addLiberties (b.groupHead a) delta)
    · exact ih (earlier ++ [a]) b

/-- The source passes over a neighbour whose head it has met before, whatever stands there. -/
theorem changeLibertiesFrom_count (earlier rest : List Loc) (b : Board) (h : Loc)
    (uniform : ∀ a e, mine (b.board a) = true → b.groupHead e = b.groupHead a → mine (b.board e) = true) :
    (changeLibertiesFrom mine delta earlier rest b).groupLibertyCount h = b.groupLibertyCount h +
      if (∃ a ∈ rest, mine (b.board a) = true ∧ b.groupHead a = h) ∧
          ¬ ∃ e ∈ earlier, mine (b.board e) = true ∧ b.groupHead e = h then delta
      else 0 := by
  induction rest generalizing earlier b with
  | nil => simp [changeLibertiesFrom]
  | cons a rest ih =>
    rw [changeLibertiesFrom]
    by_cases fresh : mine (b.board a) = true ∧ earlier.all (fun e => b.groupHead a ≠ b.groupHead e) = true
    · rw [if_pos fresh, ih (earlier ++ [a]) (b.addLiberties (b.groupHead a) delta) uniform]
      obtain ⟨selected, unseen⟩ := fresh
      simp only [List.all_eq_true, decide_eq_true_eq] at unseen
      have untouched : ¬ ∃ e ∈ earlier, mine (b.board e) = true ∧ b.groupHead e = b.groupHead a :=
        fun ⟨e, member, _, same⟩ => unseen e member same.symm
      by_cases same : h = b.groupHead a
      · subst same
        rw [if_neg, if_pos ⟨⟨a, by simp, selected, rfl⟩, untouched⟩]
        · simp [addLiberties]
        · rintro ⟨-, old⟩
          exact old ⟨a, by simp, selected, rfl⟩
      · have apart : ¬ (mine (b.board a) = true ∧ b.groupHead a = h) := fun found => same found.2.symm
        have keep : (b.addLiberties (b.groupHead a) delta).groupLibertyCount h = b.groupLibertyCount h :=
          Function.update_of_ne same ..
        rw [keep]
        congr 1
        simp [addLiberties, apart, or_and_right, exists_or]
    · rw [if_neg fresh, ih (earlier ++ [a]) b uniform]
      congr 2
      simp only [List.all_eq_true, decide_eq_true_eq, not_and, not_forall, not_not] at fresh
      by_cases here : mine (b.board a) = true ∧ b.groupHead a = h
      · obtain ⟨e, member, same⟩ := fresh here.1
        have seen : ∃ e ∈ earlier, mine (b.board e) = true ∧ b.groupHead e = h :=
          ⟨e, member, uniform a e here.1 same.symm, same.symm.trans here.2⟩
        simp [here, seen, or_and_right, exists_or]
      · simp [here, or_and_right, exists_or]

/-- Every group of the selected colours next to `loc` has its counter changed once. -/
theorem changeLiberties_count (uniform : b.Uniform) (stones : ∀ c, mine c = true → c.IsStone) (loc : Loc)
    (delta : Int) (h : Loc) :
    (b.changeLiberties mine loc delta).groupLibertyCount h = b.groupLibertyCount h +
      if ∃ a ∈ b.adj loc, mine (b.board a) = true ∧ b.groupHead a = h then delta else 0 := by
  rw [changeLiberties, changeLibertiesFrom_count _ _ _ _ fun a e selected same => by
    rw [uniform a e (stones _ selected) same]
    exact selected]
  simp

/-- The case of one colour. -/
theorem changeLiberties_count_one {k : Color}
    (uniform : ∀ a e, b.board a = k → b.groupHead e = b.groupHead a → b.board e = k) (loc : Loc) (delta : Int)
    (h : Loc) : (b.changeLiberties (· = k) loc delta).groupLibertyCount h = b.groupLibertyCount h +
      if ∃ a ∈ b.adj loc, b.board a = k ∧ b.groupHead a = h then delta else 0 := by
  rw [changeLiberties, changeLibertiesFrom_count _ _ _ _ fun a e selected same =>
    decide_eq_true (uniform a e (of_decide_eq_true selected) same)]
  simp

theorem changeLiberties_count_of {k : Color} (uniform : b.Uniform) (stone : k.IsStone) (loc : Loc) (delta : Int)
    (h : Loc) : (b.changeLiberties (· = k) loc delta).groupLibertyCount h = b.groupLibertyCount h +
      if ∃ a ∈ b.adj loc, b.board a = k ∧ b.groupHead a = h then delta else 0 :=
  changeLiberties_count_one (fun a e mine same =>
    (uniform a e (by rw [mine]; exact stone) same).trans mine) loc delta h

theorem changeLiberties_frame (b : Board) (mine : Color → Bool) (loc : Loc) (delta : Int) :
    b.changeLiberties mine loc delta =
      { b with groupLibertyCount := (b.changeLiberties mine loc delta).groupLibertyCount } :=
  changeLibertiesFrom_frame [] (b.adj loc) b

end Liberties

end Board
end KataGo.Python
