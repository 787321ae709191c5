import KataGo.Game.PositionHash

/-! The chain bookkeeping of a board, one chain at a time. `ChainOk b h extra` says that the
chain with head `h` is recorded correctly, except that its liberty counter is `extra` too
high; a move passes through boards on which the counters of the chains it has not
looked at yet are one too high. Whether chains are connected is not asked for here. -/

namespace KataGo.Game
open KataGo.Lib CircularList Labelling

theorem Color.IsStone.ne_empty {c : Color} (stone : c.IsStone) : c ≠ .empty := by
  rintro rfl
  simp [Color.IsStone] at stone

theorem Color.IsStone.ne_wall {c : Color} (stone : c.IsStone) : c ≠ .wall := by
  rintro rfl
  simp [Color.IsStone] at stone

theorem Color.IsStone.opp {c : Color} (stone : c.IsStone) : (getOpp c).IsStone := by
  rcases stone with rfl | rfl
  · exact Or.inr rfl
  · exact Or.inl rfl

theorem Color.IsStone.opp_ne {c : Color} (stone : c.IsStone) : getOpp c ≠ c := by
  rcases stone with rfl | rfl <;> decide

theorem Color.IsStone.eq_or_eq_opp {c k : Color} (stone : c.IsStone) (other : k.IsStone) :
    k = c ∨ k = getOpp c := by
  rcases stone with rfl | rfl <;> rcases other with rfl | rfl <;> decide

@[simp] theorem getOpp_getOpp (c : Color) : getOpp (getOpp c) = c := by cases c <;> rfl

namespace Board

/-- Sizes in range, and walls exactly off the board. -/
structure Shape (b : Board) : Prop where
  wide : 1 ≤ b.xSize ∧ b.xSize ≤ maxLen
  high : 1 ≤ b.ySize ∧ b.ySize ≤ maxLen
  wall_iff : ∀ p, b.colors p = .wall ↔ p ∉ b.locs

def InChain (b : Board) (h q : Loc) : Prop := (b.colors q).IsStone ∧ b.chainHead q = h

instance (b : Board) (h q : Loc) : Decidable (b.InChain h q) := inferInstanceAs (Decidable (_ ∧ _))

/-- The empty points next to the chain with head `h`. -/
def libs (b : Board) (h : Loc) : Finset Loc :=
  b.locs.toFinset.filter fun e => b.colors e = .empty ∧ ∃ q ∈ b.adj e, b.InChain h q

/-- The links go around exactly the chain with head `h`. -/
structure Ring (b : Board) (h : Loc) (l : List Loc) : Prop where
  nodup : l.Nodup
  mem : ∀ q, q ∈ l ↔ b.InChain h q
  linked : Linked b.nextInChain l

structure ChainOk (b : Board) (h : Loc) (extra : Int) : Prop where
  stone : (b.colors h).IsStone
  self : b.chainHead h = h
  ring : ∃ l, b.Ring h l ∧ (b.chainData h).numLocs = l.length
  colour : ∀ q, b.InChain h q → b.colors q = b.colors h
  owner : (b.chainData h).owner = b.colors h
  liberties : (b.chainData h).numLiberties = (b.libs h).card + extra

variable {b b' : Board} {h p q e : Loc} {extra extra' : Int}

theorem Shape.mem_locs (shape : b.Shape) (point : b.colors p ≠ .wall) : p ∈ b.locs := by
  by_contra off
  exact point ((shape.wall_iff p).2 off)

theorem Shape.stone_mem_locs (shape : b.Shape) (stone : (b.colors p).IsStone) : p ∈ b.locs :=
  shape.mem_locs stone.ne_wall

theorem Shape.ne_null (shape : b.Shape) (point : b.colors p ≠ .wall) : p ≠ nullLoc :=
  boardLocs_ne_null shape.wide.2 shape.high.2 (shape.mem_locs point)

theorem Shape.ne_pass (shape : b.Shape) (point : b.colors p ≠ .wall) : p ≠ passLoc :=
  boardLocs_ne_pass shape.wide.2 shape.high.2 (shape.mem_locs point)

theorem Shape.adj_nodup (shape : b.Shape) (p : Loc) : (b.adj p).Nodup := adjs_nodup shape.wide.1 p

/-- Any colours that differ only between points keep the shape. -/
theorem Shape.recolor (shape : b.Shape) (xSame : b'.xSize = b.xSize) (ySame : b'.ySize = b.ySize)
    (walls : ∀ p, b'.colors p = .wall ↔ b.colors p = .wall) : b'.Shape := by
  refine ⟨by rw [xSame]; exact shape.wide, by rw [ySame]; exact shape.high, fun p => ?_⟩
  rw [walls, shape.wall_iff, locs, locs, xSame, ySame]

theorem mem_libs (shape : b.Shape) :
    e ∈ b.libs h ↔ b.colors e = .empty ∧ ∃ q ∈ b.adj e, b.InChain h q := by
  simp only [libs, Finset.mem_filter, List.mem_toFinset, and_iff_right_iff_imp]
  intro found
  exact shape.mem_locs (by rw [found.1]; decide)

theorem libs_congr (xSame : b'.xSize = b.xSize) (ySame : b'.ySize = b.ySize)
    (blanks : ∀ e, b'.colors e = .empty ↔ b.colors e = .empty)
    (members : ∀ q, b'.InChain h q ↔ b.InChain h q) : b'.libs h = b.libs h := by
  unfold libs locs adj
  simp only [xSame, ySame, blanks, members]

theorem adj_symm (adjacent : p ∈ b.adj q) : q ∈ b.adj p := adjs_symm adjacent

theorem not_mem_adj_self (b : Board) (p : Loc) : p ∉ b.adj p := not_mem_adjs_self b.xSize p

theorem ne_of_mem_adj (adjacent : q ∈ b.adj p) : q ≠ p := by
  rintro rfl
  exact not_mem_adj_self b q adjacent

theorem Ring.length_le (shape : b.Shape) {l : List Loc} (ring : b.Ring h l) : l.length ≤ maxArrSize := by
  calc l.length = l.toFinset.card := (List.toFinset_card_of_nodup ring.nodup).symm
    _ ≤ b.locs.toFinset.card := Finset.card_le_card fun q member =>
        List.mem_toFinset.2 (shape.stone_mem_locs ((ring.mem q).1 (List.mem_toFinset.1 member)).1)
    _ ≤ maxArrSize := card_boardLocs_le shape.wide.2 shape.high.2

theorem Ring.rotated {l l' : List Loc} (ring : b.Ring h l) (rotated : l ~r l') : b.Ring h l' :=
  ⟨rotated.nodup_iff.1 ring.nodup, fun q => rotated.mem_iff.symm.trans (ring.mem q),
    (linked_rotated rotated).1 ring.linked⟩

/-- The chain loops of the source visit the chain once, from wherever they start. -/
theorem ChainOk.chainLocs (ok : b.ChainOk h extra) (shape : b.Shape) (inside : b.InChain h p) :
    ∃ t, b.chainLocs p = some (p :: t) ∧ b.Ring h (p :: t) ∧
      (b.chainData h).numLocs = (p :: t).length := by
  obtain ⟨l, ring, size⟩ := ok.ring
  obtain ⟨t, walked, rotated⟩ := walk_of_linked ring.linked ring.nodup ((ring.mem p).2 inside)
    (ring.length_le shape)
  exact ⟨t, walked, ring.rotated rotated, by rw [size, rotated.perm.length_eq]⟩

theorem ChainOk.head_mem (ok : b.ChainOk h extra) : b.InChain h h := ⟨ok.stone, ok.self⟩

/-- A change that leaves the stones, links and size of a chain alone keeps it well formed. -/
theorem ChainOk.frame (ok : b.ChainOk h extra)
    (members : ∀ q, b'.InChain h q ↔ b.InChain h q)
    (colours : ∀ q, b.InChain h q → b'.colors q = b.colors q)
    (links : ∀ q, b.InChain h q → b'.nextInChain q = b.nextInChain q)
    (owner : (b'.chainData h).owner = (b.chainData h).owner)
    (numLocs : (b'.chainData h).numLocs = (b.chainData h).numLocs)
    (liberties : (b'.chainData h).numLiberties = (b'.libs h).card + extra') : b'.ChainOk h extra' := by
  have headColour := colours h ok.head_mem
  obtain ⟨l, ring, size⟩ := ok.ring
  refine ⟨by rw [headColour]; exact ok.stone, ((members h).2 ok.head_mem).2, ⟨l, ⟨ring.nodup,
    fun q => (ring.mem q).trans (members q).symm,
    linked_congr (fun q member => links q ((ring.mem q).1 member)) ring.linked⟩, by rw [numLocs, size]⟩,
    ?_, by rw [owner, headColour, ok.owner], liberties⟩
  intro q inside
  have before := (members q).1 inside
  rw [colours q before, headColour, ok.colour q before]

/-- `isLibertyOf` reads off the chain correctly as soon as the chain has one colour. -/
theorem isLibertyOf_iff (stone : (b.colors h).IsStone)
    (colour : ∀ q, b.InChain h q → b.colors q = b.colors h) :
    b.isLibertyOf e h = true ↔ ∃ q ∈ b.adj e, b.InChain h q := by
  simp only [isLibertyOf, List.any_eq_true, decide_eq_true_eq]
  constructor
  · rintro ⟨q, adjacent, same, head⟩
    exact ⟨q, adjacent, by rw [same]; exact stone, head⟩
  · rintro ⟨q, adjacent, inside⟩
    exact ⟨q, adjacent, colour q inside, inside.2⟩

/-- The number of neighbours of `loc` that become liberties of `h` when `loc` joins it. -/
theorem countP_new_liberties (shape : b.Shape) (stone : (b.colors h).IsStone)
    (colour : ∀ q, b.InChain h q → b.colors q = b.colors h) (loc : Loc) :
    ((b.adj loc).countP fun a => b.colors a = .empty ∧ ¬ b.isLibertyOf a h) =
      (((b.adj loc).toFinset.filter fun a => b.colors a = .empty) \ b.libs h).card := by
  rw [List.countP_eq_length_filter, ← List.toFinset_card_of_nodup ((shape.adj_nodup loc).filter _)]
  congr 1
  ext a
  simp only [List.toFinset_filter, Finset.mem_filter, List.mem_toFinset, Finset.mem_sdiff, mem_libs shape,
    decide_eq_true_eq, not_and, isLibertyOf_iff stone colour]
  constructor
  · rintro ⟨adjacent, blank, fresh⟩
    exact ⟨⟨adjacent, blank⟩, fun _ => fresh⟩
  · rintro ⟨⟨adjacent, blank⟩, fresh⟩
    exact ⟨adjacent, blank, fresh blank⟩

/-- A stone that joins chain `h` brings its empty neighbours along as liberties. -/
theorem card_libs_join (shape : b.Shape) {loc : Loc} (stone : (b.colors loc).IsStone)
    (outside : b.chainHead loc ≠ h) :
    (({ b with chainHead := Function.update b.chainHead loc h } : Board).libs h).card =
      (b.libs h).card + (((b.adj loc).toFinset.filter fun a => b.colors a = .empty) \ b.libs h).card := by
  rw [← Finset.card_union_of_disjoint Finset.disjoint_sdiff]
  congr 1
  have shape' : ({ b with chainHead := Function.update b.chainHead loc h } : Board).Shape :=
    shape.recolor rfl rfl fun _ => Iff.rfl
  ext e
  rw [Finset.mem_union, Finset.mem_sdiff, Finset.mem_filter, List.mem_toFinset, mem_libs shape, mem_libs shape']
  change (b.colors e = .empty ∧ ∃ q ∈ b.adj e, (b.colors q).IsStone ∧
    Function.update b.chainHead loc h q = h) ↔ _
  constructor
  · rintro ⟨blank, q, adjacent, isStone, head⟩
    by_cases same : q = loc
    · subst same
      by_cases old : ∃ q ∈ b.adj e, b.InChain h q
      · exact Or.inl ⟨blank, old⟩
      · exact Or.inr ⟨⟨adj_symm adjacent, blank⟩, fun found => old found.2⟩
    · rw [Function.update_of_ne same] at head
      exact Or.inl ⟨blank, q, adjacent, isStone, head⟩
  · rintro (⟨blank, q, adjacent, inside⟩ | ⟨⟨adjacent, blank⟩, -⟩)
    · have apart : q ≠ loc := by
        rintro rfl
        exact outside inside.2
      exact ⟨blank, q, adjacent, inside.1, by rw [Function.update_of_ne apart]; exact inside.2⟩
    · exact ⟨blank, loc, adj_symm adjacent, stone, Function.update_self ..⟩

end Board
end KataGo.Game
