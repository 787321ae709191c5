import KataGo.Python.Groups

/-! What the group operations do to a board on which every stone is recorded: a stone is put
down as a group of its own, two groups are merged, and a group is removed. -/

namespace KataGo.Python
open KataGo.Lib CircularList Labelling
open KataGo.Game (Color Player getOpp Loc grid)

namespace Board

variable {b b' : Board} {g h p q e loc : Loc} {pla k : Color}

/-- The two boards agree in everything but the stones, their groups and the hash. -/
structure SameRest (b b' : Board) : Prop where
  xSize : b'.xSize = b.xSize
  ySize : b'.ySize = b.ySize
  pla : b'.pla = b.pla
  simpleKoPoint : b'.simpleKoPoint = b.simpleKoPoint
  numCapturesMade : b'.numCapturesMade = b.numCapturesMade
  numNonPassMovesMade : b'.numNonPassMovesMade = b.numNonPassMovesMade

theorem SameRest.refl (b : Board) : SameRest b b := ⟨rfl, rfl, rfl, rfl, rfl, rfl⟩

theorem SameRest.trans {b'' : Board} (first : SameRest b b') (second : SameRest b' b'') : SameRest b b'' :=
  ⟨second.xSize.trans first.xSize, second.ySize.trans first.ySize, second.pla.trans first.pla,
    second.simpleKoPoint.trans first.simpleKoPoint, second.numCapturesMade.trans first.numCapturesMade,
    second.numNonPassMovesMade.trans first.numNonPassMovesMade⟩

theorem SameRest.symm (same : SameRest b b') : SameRest b' b :=
  ⟨same.xSize.symm, same.ySize.symm, same.pla.symm, same.simpleKoPoint.symm, same.numCapturesMade.symm,
    same.numNonPassMovesMade.symm⟩

theorem SameRest.adj (same : SameRest b b') (p : Loc) : b'.adj p = b.adj p := by
  rw [Board.adj, Board.adj, same.xSize]

theorem SameRest.shape (same : SameRest b b') (shape : b.Shape)
    (walls : ∀ p, b'.board p = .wall ↔ b.board p = .wall) : b'.Shape :=
  shape.recolor same.xSize same.ySize walls

theorem sameRest_changeLiberties (b : Board) (mine : Color → Bool) (loc : Loc) (delta : Int) :
    SameRest b (b.changeLiberties mine loc delta) := by
  rw [changeLiberties_frame]
  exact ⟨rfl, rfl, rfl, rfl, rfl, rfl⟩

section Blanked

theorem walls_update (point : b.board loc ≠ .wall) (notWall : k ≠ .wall)
    (board : b'.board = Function.update b.board loc k) (p : Loc) : b'.board p = .wall ↔ b.board p = .wall := by
  rw [board]
  by_cases here : p = loc
  · subst here
    rw [Function.update_self]
    exact iff_of_false notWall point
  · rw [Function.update_of_ne here]

theorem libs_congr (same : SameRest b b') (blanks : ∀ e, b'.board e = .empty ↔ b.board e = .empty)
    (members : ∀ q, b'.groupHead q = h ↔ b.groupHead q = h) : b'.libs h = b.libs h := by
  unfold libs locs
  simp only [same.adj, same.xSize, same.ySize, blanks, members]

/-- A point that becomes empty is a new liberty of the groups next to it. -/
theorem card_libs_of_blanked (shape : b.Shape) (same : SameRest b b') (filled : b.board loc ≠ .empty)
    (point : b.board loc ≠ .wall) (blanked : b'.board = Function.update b.board loc .empty)
    (members : ∀ q, b'.groupHead q = h ↔ b.groupHead q = h) :
    ((b'.libs h).card : Int) = (b.libs h).card + if ∃ a ∈ b.adj loc, b.groupHead a = h then 1 else 0 := by
  have shape' := same.shape shape (walls_update point (by decide) blanked)
  have old : loc ∉ b.libs h := fun member => filled ((mem_libs shape).1 member).1
  have mem : ∀ e, e ∈ b'.libs h ↔ e ∈ b.libs h ∨ e = loc ∧ ∃ a ∈ b.adj loc, b.groupHead a = h := by
    intro e
    rw [mem_libs shape', mem_libs shape, same.adj, blanked]
    simp only [members]
    by_cases here : e = loc
    · subst here
      simp [filled]
    · simp [here]
  split_ifs with touches
  · have grown : b'.libs h = insert loc (b.libs h) := by
      ext e
      rw [mem, Finset.mem_insert, and_iff_left touches, or_comm]
    rw [grown, Finset.card_insert_of_notMem old]
    push_cast
    rfl
  · have unchanged : b'.libs h = b.libs h := by
      ext e
      rw [mem]
      exact or_iff_left fun found => touches found.2
    rw [unchanged, add_zero]

end Blanked

section Remove

variable [ZobristStone]

/-- The group `g` of colour `k` is being removed and the stones `rest` of it are left. -/
structure Removing (b : Board) (g : Loc) (k : Color) (rest : List Loc) : Prop where
  shape : b.Shape
  vacant : ∀ p, b.board p = .empty → b.Vacant p
  wall : ∀ p, b.board p = .wall → b.groupHead p ≤ 0
  positive : 0 < g
  members : ∀ q, b.groupHead q = g ↔ q ∈ rest
  colour : ∀ q ∈ rest, b.board q = k
  isolated : ∀ q ∈ rest, ∀ a ∈ b.adj q, b.board a = k → b.groupHead a = g
  others : ∀ p, (b.board p).IsStone → b.groupHead p ≠ g → b.Group (b.groupHead p)

omit [ZobristStone] in
theorem Removing.uniform {rest : List Loc} (removing : Removing b g k rest) : b.Uniform := by
  intro p q stone same
  by_cases inside : b.groupHead p = g
  · rw [removing.colour p ((removing.members p).1 inside),
      removing.colour q ((removing.members q).1 (same.trans inside))]
  · have group := removing.others p stone inside
    rw [group.colour q same, group.colour p rfl]

theorem removeStone_board (opp : Player) (b : Board) (loc : Loc) :
    (removeStone opp b loc).board = Function.update b.board loc .empty := by
  rw [removeStone, changeLiberties_frame]

theorem removeStone_groupHead (opp : Player) (b : Board) (loc : Loc) :
    (removeStone opp b loc).groupHead = Function.update b.groupHead loc 0 := by
  rw [removeStone, changeLiberties_frame]

theorem sameRest_removeStone (opp : Player) (b : Board) (loc : Loc) : SameRest b (removeStone opp b loc) := by
  rw [removeStone, changeLiberties_frame]
  exact ⟨rfl, rfl, rfl, rfl, rfl, rfl⟩

theorem Removing.step {rest : List Loc} (removing : Removing b g k (loc :: rest)) (stone : k.IsStone)
    (fresh : loc ∉ rest) : Removing (removeStone (getOpp k) b loc) g k rest := by
  have here := removing.colour loc (by simp)
  have isStone : (b.board loc).IsStone := by rw [here]; exact stone
  have same := sameRest_removeStone (getOpp k) b loc
  have board := removeStone_board (getOpp k) b loc
  have heads := removeStone_groupHead (getOpp k) b loc
  have frame := changeLiberties_frame b (· = getOpp k) loc 1
  have nexts : (removeStone (getOpp k) b loc).groupNext = Function.update b.groupNext loc 0 := by
    rw [removeStone, frame]
  have prevs : (removeStone (getOpp k) b loc).groupPrev = Function.update b.groupPrev loc 0 := by
    rw [removeStone, frame]
  have headHere : b.groupHead loc = g := (removing.members loc).2 (by simp)
  have kept : ∀ q, q ≠ loc → (removeStone (getOpp k) b loc).board q = b.board q ∧
      (removeStone (getOpp k) b loc).groupHead q = b.groupHead q := by
    intro q other
    rw [board, heads, Function.update_of_ne other, Function.update_of_ne other]
    exact ⟨rfl, rfl⟩
  have remains : ∀ q ∈ rest, q ≠ loc := fun q member equal => fresh (equal ▸ member)
  refine ⟨same.shape removing.shape (walls_update isStone.ne_wall (by decide) board), ?_, ?_, removing.positive,
    ?_, ?_, ?_, ?_⟩
  · intro p blank
    by_cases equal : p = loc
    · subst equal
      exact ⟨by rw [heads, Function.update_self], by rw [nexts, Function.update_self],
        by rw [prevs, Function.update_self]⟩
    · rw [(kept p equal).1] at blank
      have vacant := removing.vacant p blank
      exact ⟨by rw [(kept p equal).2, vacant.head], by rw [nexts, Function.update_of_ne equal, vacant.next],
        by rw [prevs, Function.update_of_ne equal, vacant.prev]⟩
  · intro p wall
    have other : p ≠ loc := by
      rintro rfl
      rw [board, Function.update_self] at wall
      cases wall
    rw [(kept p other).2]
    exact removing.wall p (by rw [← (kept p other).1, wall])
  · intro q
    by_cases equal : q = loc
    · subst equal
      rw [heads, Function.update_self]
      exact iff_of_false removing.positive.ne fresh
    · rw [(kept q equal).2, removing.members q, List.mem_cons]
      exact or_iff_right equal
  · intro q member
    rw [(kept q (remains q member)).1]
    exact removing.colour q (by simp [member])
  · intro q member a adjacent mine
    have other : a ≠ loc := by
      rintro rfl
      rw [board, Function.update_self] at mine
      exact stone.ne_empty mine.symm
    rw [(kept a other).1] at mine
    rw [same.adj] at adjacent
    rw [(kept a other).2]
    exact removing.isolated q (by simp [member]) a adjacent mine
  · intro p filled outside
    have other : p ≠ loc := by
      rintro rfl
      rw [board, Function.update_self] at filled
      exact filled.ne_empty rfl
    rw [(kept p other).1] at filled
    rw [(kept p other).2] at outside ⊢
    have group := removing.others p filled outside
    obtain ⟨h, headEq⟩ : ∃ h, h = b.groupHead p := ⟨_, rfl⟩
    rw [← headEq] at outside group ⊢
    have apart : ∀ q, b.groupHead q = h → q ≠ loc := by
      rintro q inside rfl
      exact outside (inside.symm.trans headHere)
    have positive : 0 < h := removing.shape.positive group.stone.ne_wall
    have members : ∀ q, (removeStone (getOpp k) b loc).groupHead q = h ↔ b.groupHead q = h := by
      intro q
      by_cases equal : q = loc
      · subst equal
        rw [heads, Function.update_self]
        exact iff_of_false positive.ne fun inside => apart q inside rfl
      · rw [(kept q equal).2]
    refine group.frame members (fun q inside => (kept q (apart q inside)).1)
      (fun q inside => by rw [nexts, Function.update_of_ne (apart q inside)])
      (fun q inside => by rw [prevs, Function.update_of_ne (apart q inside)])
      (by rw [removeStone, frame]) ?_
    -- A neighbour in another group has the other colour, since `g` is isolated.
    have opposing : (∃ a ∈ b.adj loc, b.board a = getOpp k ∧ b.groupHead a = h) ↔
        ∃ a ∈ b.adj loc, b.groupHead a = h := by
      refine exists_congr fun a => and_congr_right fun adjacent => and_iff_right_of_imp fun inside => ?_
      refine (stone.eq_or_eq_opp (group.stones inside)).resolve_left fun mine => outside ?_
      rw [← inside]
      exact removing.isolated loc (by simp) a adjacent mine
    rw [card_libs_of_blanked removing.shape same isStone.ne_empty isStone.ne_wall board members, ← group.liberties]
    have count : (removeStone (getOpp k) b loc).groupLibertyCount h =
        (b.changeLiberties (· = getOpp k) loc 1).groupLibertyCount h := rfl
    rw [count, changeLiberties_count_of removing.uniform stone.opp]
    simp only [opposing]

/-- `b'` is `b` without the group `g`. -/
structure Cleared (b b' : Board) (g : Loc) : Prop extends SameRest b b' where
  board : ∀ q, b'.board q = if b.groupHead q = g then .empty else b.board q
  groupHead : ∀ q, b'.groupHead q = if b.groupHead q = g then 0 else b.groupHead q

theorem Removing.foldl (stone : k.IsStone) (l : List Loc) (nodup : l.Nodup) {b : Board}
    (removing : Removing b g k l) :
    Removing (l.foldl (removeStone (getOpp k)) b) g k [] ∧ SameRest b (l.foldl (removeStone (getOpp k)) b) ∧
      (∀ q, (l.foldl (removeStone (getOpp k)) b).board q = if q ∈ l then .empty else b.board q) ∧
      ∀ q, (l.foldl (removeStone (getOpp k)) b).groupHead q = if q ∈ l then 0 else b.groupHead q := by
  induction l generalizing b with
  | nil => exact ⟨removing, SameRest.refl b, by simp, by simp⟩
  | cons loc l ih =>
    obtain ⟨fresh, rest⟩ := List.nodup_cons.1 nodup
    obtain ⟨final, same, board, heads⟩ := ih rest (removing.step stone fresh)
    refine ⟨final, (sameRest_removeStone (getOpp k) b loc).trans same, fun q => ?_, fun q => ?_⟩
    · rw [List.foldl_cons, board q, removeStone_board]
      by_cases inside : q ∈ l
      · simp [inside]
      · by_cases equal : q = loc <;> simp [inside, equal]
    · rw [List.foldl_cons, heads q, removeStone_groupHead]
      by_cases inside : q ∈ l
      · simp [inside]
      · by_cases equal : q = loc <;> simp [inside, equal]

/-- Removing a group next to which no other stone of its colour stands takes off exactly
its stones. -/
theorem Booked.removeUnsafe (booked : b.Booked) (stone : (b.board p).IsStone)
    (isolated : ∀ q, b.groupHead q = b.groupHead p → ∀ a ∈ b.adj q, b.board a = b.board p →
      b.groupHead a = b.groupHead p) :
    ∃ b', b.removeUnsafe p = some b' ∧ b'.Booked ∧ Cleared b b' (b.groupHead p) := by
  have group := booked.group p stone
  obtain ⟨t, walked, ring, -⟩ := group.groupLocs booked.shape rfl
  have start : Removing b (b.groupHead p) (b.board p) (p :: t) := by
    refine ⟨booked.shape, booked.vacant, booked.wall, booked.head_positive stone, fun q => (ring.mem q).symm,
      fun q member => ?_, fun q member => isolated q ((ring.mem q).1 member),
      fun q isStone _ => booked.group q isStone⟩
    exact booked.uniform p q stone ((ring.mem q).1 member)
  obtain ⟨final, same, board, heads⟩ := start.foldl stone (p :: t) ring.nodup
  obtain ⟨b₁, result⟩ : ∃ b₁, b₁ = (p :: t).foldl (removeStone (getOpp (b.board p))) b := ⟨_, rfl⟩
  rw [← result] at final same board heads
  refine ⟨{ b₁ with
    groupStoneCount := Function.update b₁.groupStoneCount (b.groupHead p) 0
    groupLibertyCount := Function.update b₁.groupLibertyCount (b.groupHead p) 0 },
    by rw [Board.removeUnsafe, walked, result]; rfl, ?_, ?_⟩
  · refine ⟨⟨final.shape.wide, final.shape.high, final.shape.wall_iff⟩, fun q blank => ?_, final.wall, fun q isStone => ?_⟩
    · have vacant := final.vacant q blank
      exact ⟨vacant.head, vacant.next, vacant.prev⟩
    · have outside : b₁.groupHead q ≠ b.groupHead p := by
        rw [Ne, final.members q]
        simp
      exact (final.others q isStone outside).frame (fun _ => Iff.rfl) (fun _ _ => rfl) (fun _ _ => rfl)
        (fun _ _ => rfl) (Function.update_of_ne outside ..)
        ((Function.update_of_ne outside ..).trans (final.others q isStone outside).liberties)
  · refine ⟨⟨same.xSize, same.ySize, same.pla, same.simpleKoPoint, same.numCapturesMade,
      same.numNonPassMovesMade⟩, fun q => ?_, fun q => ?_⟩
    · change b₁.board q = _
      rw [board q]
      simp only [ring.mem q]
    · change b₁.groupHead q = _
      rw [heads q]
      simp only [ring.mem q]

end Remove

section Merge

/-- Point the heads of all these stones at `head`. -/
def setHeads (b : Board) (stones : List Loc) (head : Loc) : Board :=
  { b with groupHead := stones.foldl (fun heads cur => Function.update heads cur head) b.groupHead }

theorem setHeads_groupHead (b : Board) (l : List Loc) (head q : Loc) :
    (b.setHeads l head).groupHead q = if q ∈ l then head else b.groupHead q :=
  KataGo.Game.Board.foldl_update_apply l b.groupHead head q

theorem isGroupAdjacent_iff (shape : b.Shape) (blank : b.board e = .empty) :
    b.isGroupAdjacent h e = true ↔ e ∈ b.libs h := by
  rw [mem_libs shape, and_iff_right blank]
  simp [isGroupAdjacent]

/-- The number of neighbours of `loc` that become liberties of `h` when `loc` joins it. -/
theorem countP_new_liberties (shape : b.Shape) (loc : Loc) :
    ((b.adj loc).countP fun a => b.board a = .empty ∧ ¬ b.isGroupAdjacent h a) =
      (((b.adj loc).toFinset.filter fun a => b.board a = .empty) \ b.libs h).card := by
  rw [List.countP_eq_length_filter, ← List.toFinset_card_of_nodup ((shape.adj_nodup loc).filter _)]
  congr 1
  ext a
  simp only [List.toFinset_filter, Finset.mem_filter, List.mem_toFinset, Finset.mem_sdiff, decide_eq_true_eq,
    and_assoc]
  refine and_congr_right fun _ => and_congr_right fun blank => ?_
  rw [isGroupAdjacent_iff shape blank]

/-- A stone that joins group `h` brings its empty neighbours along as liberties. -/
theorem card_libs_join (shape : b.Shape) (same : SameRest b b') (outside : b.groupHead loc ≠ h)
    (board : b'.board = b.board) (heads : b'.groupHead = Function.update b.groupHead loc h) :
    (b'.libs h).card =
      (b.libs h).card + (((b.adj loc).toFinset.filter fun a => b.board a = .empty) \ b.libs h).card := by
  rw [← Finset.card_union_of_disjoint Finset.disjoint_sdiff]
  congr 1
  have shape' : b'.Shape := same.shape shape fun p => by rw [board]
  ext e
  rw [Finset.mem_union, Finset.mem_sdiff, Finset.mem_filter, List.mem_toFinset, mem_libs shape, mem_libs shape',
    board, heads, same.adj]
  constructor
  · rintro ⟨blank, q, adjacent, head⟩
    by_cases old : ∃ q ∈ b.adj e, b.groupHead q = h
    · exact Or.inl ⟨blank, old⟩
    · have here : q = loc := by
        by_contra other
        rw [Function.update_of_ne other] at head
        exact old ⟨q, adjacent, head⟩
      exact Or.inr ⟨⟨adj_symm (here ▸ adjacent), blank⟩, fun found => old found.2⟩
  · rintro (⟨blank, q, adjacent, inside⟩ | ⟨⟨adjacent, blank⟩, -⟩)
    · have apart : q ≠ loc := by
        rintro rfl
        exact outside inside
      exact ⟨blank, q, adjacent, by rw [Function.update_of_ne apart]; exact inside⟩
    · exact ⟨blank, loc, adj_symm adjacent, Function.update_self ..⟩

/-- The merge loop moves the heads over and counts the liberties that are new to `h`. -/
theorem foldl_mergeStone (l : List Loc) (nodup : l.Nodup) (n : Int) {b : Board} (shape : b.Shape)
    (joining : ∀ q ∈ l, b.groupHead q ≠ h) :
    l.foldl (mergeStone h) (b, n) =
      (b.setHeads l h, n + (((b.setHeads l h).libs h).card - (b.libs h).card)) := by
  induction l generalizing b n with
  | nil => simp [setHeads]
  | cons q l ih =>
    obtain ⟨fresh, rest⟩ := List.nodup_cons.1 nodup
    obtain ⟨b₁, moved⟩ : ∃ b₁, b₁ = { b with groupHead := Function.update b.groupHead q h } := ⟨_, rfl⟩
    have same : SameRest b b₁ := by rw [moved]; exact ⟨rfl, rfl, rfl, rfl, rfl, rfl⟩
    have step : mergeStone h (b, n) q = (b₁, n + ((b₁.libs h).card - (b.libs h).card)) := by
      rw [mergeStone, countP_new_liberties shape,
        card_libs_join shape same (joining q (by simp)) (by rw [moved]) (by rw [moved]), moved]
      push_cast
      simp
    have shape₁ : b₁.Shape := same.shape shape fun p => by rw [moved]
    have later : ∀ x ∈ l, b₁.groupHead x ≠ h := by
      intro x member
      have other : x ≠ q := fun equal => fresh (equal ▸ member)
      have kept : b₁.groupHead x = b.groupHead x := by rw [moved]; exact Function.update_of_ne other ..
      rw [kept]
      exact joining x (by simp [member])
    have whole : b₁.setHeads l h = b.setHeads (q :: l) h := by rw [moved]; rfl
    rw [List.foldl_cons, step, ih rest _ shape₁ later, whole]
    congr 1
    ring

/-- `b'` is `b` with the group `h₂` taken over by `h₁`. -/
structure Merged (b b' : Board) (h₁ h₂ : Loc) : Prop extends SameRest b b' where
  board : b'.board = b.board
  zobrist : b'.zobrist = b.zobrist
  groupHead : ∀ q, b'.groupHead q = if b.groupHead q = h₂ then h₁ else b.groupHead q

theorem mergeStones_spec {h₁ h₂ : Loc} {l : List Loc} (booked : b.Booked) (group₁ : b.Group h₁) (group₂ : b.Group h₂)
    (apart : h₁ ≠ h₂) (colours : b.board h₂ = b.board h₁) (ring : b.Ring h₂ l) :
    (b.mergeStones h₁ h₂ l).Booked ∧ Merged b (b.mergeStones h₁ h₂ l) h₁ h₂ := by
  obtain ⟨t₁, -, ring₁, size₁⟩ := group₁.groupLocs booked.shape group₁.self
  obtain ⟨t₂, -, ring₂, size₂⟩ := group₂.groupLocs booked.shape group₂.self
  have outside : ∀ q ∈ l, b.groupHead q ≠ h₁ := fun q member same => apart (same.symm.trans ((ring.mem q).1 member))
  have fold := foldl_mergeStone l ring.nodup (b.groupLibertyCount h₁) booked.shape outside
  have heads : ∀ q, (b.setHeads l h₁).groupHead q = if b.groupHead q = h₂ then h₁ else b.groupHead q := by
    intro q
    rw [setHeads_groupHead]
    simp only [ring.mem q]
  have form : b.mergeStones h₁ h₂ l = { b.setHeads l h₁ with
      groupStoneCount := Function.update (Function.update b.groupStoneCount h₂ 0) h₁
        (b.groupStoneCount h₁ + b.groupStoneCount h₂)
      groupLibertyCount := Function.update (Function.update b.groupLibertyCount h₂ 0) h₁
        (b.groupLibertyCount h₁ + (((b.setHeads l h₁).libs h₁).card - (b.libs h₁).card))
      groupNext := Function.update (Function.update b.groupNext (b.groupPrev h₂) h₁) (b.groupPrev h₁) h₂
      groupPrev := Function.update (Function.update b.groupPrev h₂ (b.groupPrev h₁)) h₁ (b.groupPrev h₂) } := by
    rw [mergeStones, fold]
    rfl
  obtain ⟨b', result⟩ : ∃ b', b' = b.mergeStones h₁ h₂ l := ⟨_, rfl⟩
  rw [← result] at form ⊢
  have same : SameRest b b' := by rw [form]; exact ⟨rfl, rfl, rfl, rfl, rfl, rfl⟩
  have board : b'.board = b.board := by rw [form]; rfl
  have heads' : ∀ q, b'.groupHead q = if b.groupHead q = h₂ then h₁ else b.groupHead q := by
    intro q
    rw [← heads q, form]
  have members : ∀ q, b'.groupHead q = h₁ ↔ b.groupHead q = h₁ ∨ b.groupHead q = h₂ := by
    intro q
    rw [heads' q]
    split_ifs with second
    · exact iff_of_true rfl (Or.inr second)
    · exact (or_iff_left second).symm
  have libs₁ : b'.libs h₁ = (b.setHeads l h₁).libs h₁ := by rw [form]; rfl
  have counts : b'.groupStoneCount = Function.update (Function.update b.groupStoneCount h₂ 0) h₁
      (b.groupStoneCount h₁ + b.groupStoneCount h₂) := by rw [form]
  have liberties : b'.groupLibertyCount = Function.update (Function.update b.groupLibertyCount h₂ 0) h₁
      (b.groupLibertyCount h₁ + (((b.setHeads l h₁).libs h₁).card - (b.libs h₁).card)) := by rw [form]
  have nexts : b'.groupNext = Function.update (Function.update b.groupNext (b.groupPrev h₂) h₁) (b.groupPrev h₁) h₂ := by
    rw [form]
  have prevs : b'.groupPrev = Function.update (Function.update b.groupPrev h₂ (b.groupPrev h₁)) h₁ (b.groupPrev h₂) := by
    rw [form]
  have last₁ : b.groupHead (b.groupPrev h₁) = h₁ := by
    obtain ⟨s, split, -⟩ := ring₁.ringed.exists_last
    exact (ring₁.mem _).1 (by rw [split]; simp)
  have last₂ : b.groupHead (b.groupPrev h₂) = h₂ := by
    obtain ⟨s, split, -⟩ := ring₂.ringed.exists_last
    exact (ring₂.mem _).1 (by rw [split]; simp)
  -- The links are rewritten at stones of the two groups only.
  have linksKept : ∀ q, b.groupHead q ≠ h₁ → b.groupHead q ≠ h₂ →
      b'.groupNext q = b.groupNext q ∧ b'.groupPrev q = b.groupPrev q := by
    intro q first second
    rw [nexts, prevs, Function.update_of_ne fun equal => first (by rw [equal, last₁]),
      Function.update_of_ne fun equal => second (by rw [equal, last₂]),
      Function.update_of_ne fun equal => first (by rw [equal, group₁.self]),
      Function.update_of_ne fun equal => second (by rw [equal, group₂.self])]
    exact ⟨rfl, rfl⟩
  have positive₁ := booked.shape.positive group₁.stone.ne_wall
  have positive₂ := booked.shape.positive group₂.stone.ne_wall
  have joined : b'.Group h₁ := by
    refine ⟨by rw [board]; exact group₁.stone, (members h₁).2 (Or.inl group₁.self), ?_,
      ⟨(h₁ :: t₁) ++ (h₂ :: t₂), ⟨?_, ?_, ?_⟩, ?_⟩, ?_⟩
    · intro q inside
      rw [board]
      rcases (members q).1 inside with first | second
      · exact group₁.colour q first
      · exact (group₂.colour q second).trans colours
    · rw [List.nodup_append]
      refine ⟨ring₁.nodup, ring₂.nodup, fun x first y second equal => apart ?_⟩
      rw [← (ring₁.mem x).1 first, equal, (ring₂.mem y).1 second]
    · intro q
      rw [List.mem_append, ring₁.mem q, ring₂.mem q, members q]
    · rw [nexts, prevs]
      refine ring₁.ringed.splice ring₂.ringed (List.nodup_append.2 ⟨ring₁.nodup, ring₂.nodup, ?_⟩)
      intro x first y second equal
      exact apart ((((ring₁.mem x).1 first).symm.trans (by rw [equal])).trans ((ring₂.mem y).1 second))
    · rw [counts, Function.update_self, size₁, size₂, List.length_append]
      push_cast
      rfl
    · rw [liberties, Function.update_self, libs₁, group₁.liberties]
      ring
  refine ⟨⟨same.shape booked.shape fun p => by rw [board], ?_, ?_, ?_⟩,
    ⟨same, board, by rw [form]; rfl, heads'⟩⟩
  · intro p blank
    rw [board] at blank
    have vacant := booked.vacant p blank
    have first : b.groupHead p ≠ h₁ := by rw [vacant.head]; exact positive₁.ne
    have second : b.groupHead p ≠ h₂ := by rw [vacant.head]; exact positive₂.ne
    obtain ⟨next, prev⟩ := linksKept p first second
    exact ⟨by rw [heads' p, if_neg second, vacant.head], next.trans vacant.next, prev.trans vacant.prev⟩
  · intro p wall
    rw [board] at wall
    have nonpos := booked.wall p wall
    rw [heads' p, if_neg (ne_of_lt (lt_of_le_of_lt nonpos positive₂))]
    exact nonpos
  · intro p stone
    rw [board] at stone
    by_cases inside : b'.groupHead p = h₁
    · rw [inside]
      exact joined
    · obtain ⟨first, second⟩ := not_or.1 fun found => inside ((members p).2 found)
      have kept : b'.groupHead p = b.groupHead p := by rw [heads' p, if_neg second]
      rw [kept]
      have membersP : ∀ q, b'.groupHead q = b.groupHead p ↔ b.groupHead q = b.groupHead p := by
        intro q
        rw [heads' q]
        split_ifs with moved
        · exact iff_of_false (fun equal => first equal.symm) fun equal => second (equal.symm.trans moved)
        · exact Iff.rfl
      have group := booked.group p stone
      refine group.frame membersP (fun q _ => by rw [board])
        (fun q equal => (linksKept q (equal ▸ first) (equal ▸ second)).1)
        (fun q equal => (linksKept q (equal ▸ first) (equal ▸ second)).2) ?_ ?_
      · rw [counts, Function.update_of_ne first, Function.update_of_ne second]
      · rw [liberties, Function.update_of_ne first, Function.update_of_ne second, group.liberties,
          libs_congr same (fun e => by rw [board]) membersP]

/-- Merging the groups of two stones of one colour. Which head survives depends on the sizes. -/
theorem Booked.mergeUnsafe (booked : b.Booked) (p₀ p₁ : Loc) (stone : (b.board p₀).IsStone)
    (colours : b.board p₁ = b.board p₀) :
    ∃ b', b.mergeUnsafe p₀ p₁ = some b' ∧ b'.Booked ∧ SameRest b b' ∧ b'.board = b.board ∧
      b'.zobrist = b.zobrist ∧ ∃ h, (h = b.groupHead p₀ ∨ h = b.groupHead p₁) ∧ ∀ q, b'.groupHead q =
        if b.groupHead q = b.groupHead p₀ ∨ b.groupHead q = b.groupHead p₁ then h else b.groupHead q := by
  have stone₁ : (b.board p₁).IsStone := by rw [colours]; exact stone
  have group₀ := booked.group p₀ stone
  have group₁ := booked.group p₁ stone₁
  by_cases same : b.groupHead p₀ = b.groupHead p₁
  · refine ⟨b, ?_, booked, SameRest.refl b, rfl, rfl, b.groupHead p₀, Or.inl rfl, fun q => ?_⟩
    · unfold Board.mergeUnsafe
      split_ifs <;> simp_all
    · split_ifs with inside
      · exact inside.elim id fun second => second.trans same.symm
      · rfl
  have headColours : b.board (b.groupHead p₁) = b.board (b.groupHead p₀) := by
    rw [← group₁.colour p₁ rfl, ← group₀.colour p₀ rfl, colours]
  by_cases larger : b.stoneCount p₀ ≥ b.stoneCount p₁
  · obtain ⟨t, walked, ring, -⟩ := group₁.groupLocs booked.shape (p := p₁) rfl
    obtain ⟨result, merged⟩ := mergeStones_spec booked group₀ group₁ same headColours ring
    refine ⟨_, by simp only [Board.mergeUnsafe, if_pos larger, if_neg same, walked]; rfl, result,
      merged.toSameRest, merged.board, merged.zobrist, b.groupHead p₀, Or.inl rfl, fun q => ?_⟩
    rw [merged.groupHead q]
    split_ifs <;> simp_all
  · obtain ⟨t, walked, ring, -⟩ := group₀.groupLocs booked.shape (p := p₀) rfl
    obtain ⟨result, merged⟩ := mergeStones_spec booked group₁ group₀ (Ne.symm same) headColours.symm ring
    refine ⟨_, by simp only [Board.mergeUnsafe, if_neg larger, if_neg (Ne.symm same), walked]; rfl, result,
      merged.toSameRest, merged.board, merged.zobrist, b.groupHead p₁, Or.inr rfl, fun q => ?_⟩
    rw [merged.groupHead q]
    split_ifs <;> simp_all

end Merge

section Place

variable [ZobristStone]

/-- The board after the stone was put down and the liberty it fills was taken from all
groups around it. -/
def pressed (b : Board) (pla : Player) (loc : Loc) : Board :=
  (b.placeStone pla loc).changeLiberties (fun c => c = .black ∨ c = .white) loc (-1)

theorem pressed_frame (b : Board) (pla : Player) (loc : Loc) :
    b.pressed pla loc = { b.placeStone pla loc with groupLibertyCount := (b.pressed pla loc).groupLibertyCount } :=
  changeLiberties_frame ..

theorem sameRest_pressed (b : Board) (pla : Player) (loc : Loc) : SameRest b (b.pressed pla loc) := by
  rw [pressed_frame]
  exact ⟨rfl, rfl, rfl, rfl, rfl, rfl⟩

theorem pressed_board (b : Board) (pla : Player) (loc : Loc) :
    (b.pressed pla loc).board = Function.update b.board loc pla := by
  rw [pressed_frame]
  rfl

theorem pressed_groupHead (b : Board) (pla : Player) (loc : Loc) :
    (b.pressed pla loc).groupHead = Function.update b.groupHead loc loc := by
  rw [pressed_frame]
  rfl

omit [ZobristStone] in
/-- Heads are stones, so an empty point is nobody's head. -/
theorem Booked.head_ne (booked : b.Booked) (blank : b.board loc = .empty) (q : Loc) : b.groupHead q ≠ loc := by
  intro same
  by_cases stone : (b.board q).IsStone
  · have head := (booked.group q stone).stone
    rw [same, blank] at head
    exact head.ne_empty rfl
  · have positive := booked.shape.positive (p := loc) (by rw [blank]; decide)
    have nonpos := booked.head_nonpos stone
    rw [same] at nonpos
    exact absurd positive (not_lt_of_ge nonpos)

theorem placeStone_uniform (booked : b.Booked) (blank : b.board loc = .empty) :
    (b.placeStone pla loc).Uniform := by
  intro p q stone same
  change Function.update b.groupHead loc loc q = Function.update b.groupHead loc loc p at same
  change (Function.update b.board loc pla p).IsStone at stone
  change Function.update b.board loc pla q = Function.update b.board loc pla p
  have apart := booked.head_ne blank
  by_cases hereP : p = loc <;> by_cases hereQ : q = loc
  · rw [hereP, hereQ]
  · rw [hereP, Function.update_self, Function.update_of_ne hereQ] at same
    exact absurd same (apart q)
  · rw [hereQ, Function.update_self, Function.update_of_ne hereP] at same
    exact absurd same.symm (apart p)
  · rw [Function.update_of_ne hereP] at stone same
    rw [Function.update_of_ne hereQ] at same
    rw [Function.update_of_ne hereP, Function.update_of_ne hereQ]
    exact booked.uniform p q stone same

theorem Booked.pressed (booked : b.Booked) (blank : b.board loc = .empty) (player : pla.IsStone) :
    (b.pressed pla loc).Booked := by
  have same := sameRest_pressed b pla loc
  have board := pressed_board b pla loc
  have heads := pressed_groupHead b pla loc
  have apart := booked.head_ne blank
  have point : b.board loc ≠ .wall := by rw [blank]; decide
  have shape' := same.shape booked.shape (walls_update point player.ne_wall board)
  have nexts : (b.pressed pla loc).groupNext = Function.update b.groupNext loc loc := by
    rw [pressed_frame]
    rfl
  have prevs : (b.pressed pla loc).groupPrev = Function.update b.groupPrev loc loc := by
    rw [pressed_frame]
    rfl
  have counts : (b.pressed pla loc).groupStoneCount = Function.update b.groupStoneCount loc 1 := by
    rw [pressed_frame]
    rfl
  have liberties : ∀ h, (b.pressed pla loc).groupLibertyCount h = (b.placeStone pla loc).groupLibertyCount h +
      if ∃ a ∈ b.adj loc, (b.board a).IsStone ∧ b.groupHead a = h then -1 else 0 := by
    intro h
    rw [Board.pressed, changeLiberties_count (placeStone_uniform booked blank) fun c found => by
      rw [decide_eq_true_eq] at found
      exact found]
    congr 2
    refine propext (exists_congr fun a => and_congr_right fun adjacent => ?_)
    have other : a ≠ loc := ne_of_mem_adj (b := b) adjacent
    change (decide (Function.update b.board loc pla a = .black ∨ Function.update b.board loc pla a = .white) = true ∧
      Function.update b.groupHead loc loc a = h) ↔ _
    rw [Function.update_of_ne other, Function.update_of_ne other, decide_eq_true_eq]
    rfl
  refine ⟨shape', ?_, ?_, ?_⟩
  · intro p free
    have other : p ≠ loc := by
      rintro rfl
      rw [board, Function.update_self] at free
      exact player.ne_empty free
    rw [board, Function.update_of_ne other] at free
    have vacant := booked.vacant p free
    exact ⟨by rw [heads, Function.update_of_ne other, vacant.head],
      by rw [nexts, Function.update_of_ne other, vacant.next], by rw [prevs, Function.update_of_ne other, vacant.prev]⟩
  · intro p wall
    rw [walls_update point player.ne_wall board] at wall
    have other : p ≠ loc := by
      rintro rfl
      exact point wall
    rw [heads, Function.update_of_ne other]
    exact booked.wall p wall
  · intro p stone
    by_cases here : p = loc
    · subst here
      rw [heads, Function.update_self]
      have members : ∀ q, (b.pressed pla p).groupHead q = p ↔ q = p := by
        intro q
        rw [heads]
        by_cases equal : q = p
        · subst equal
          simp
        · rw [Function.update_of_ne equal]
          exact iff_of_false (apart q) equal
      refine ⟨stone, (members p).2 rfl, fun q inside => by rw [(members q).1 inside],
        ⟨[p], ⟨by simp, fun q => ?_, ?_⟩, by rw [counts, Function.update_self]; rfl⟩, ?_⟩
      · rw [List.mem_singleton, members q]
      · exact Ringed.singleton (by rw [nexts, Function.update_self]) (by rw [prevs, Function.update_self])
      · have none : ¬ ∃ a ∈ b.adj p, (b.board a).IsStone ∧ b.groupHead a = p :=
          fun ⟨a, _, _, found⟩ => apart a found
        rw [liberties, if_neg none, add_zero]
        have immediate : (b.placeStone pla p).groupLibertyCount p =
            ((b.adj p).countP fun a => Function.update b.board p pla a = .empty) := Function.update_self ..
        rw [immediate, List.countP_eq_length_filter,
          ← List.toFinset_card_of_nodup ((booked.shape.adj_nodup p).filter _)]
        refine congrArg (fun points : Finset Loc => (points.card : Int)) ?_
        ext e
        simp only [mem_libs shape', members, List.mem_toFinset, List.mem_filter, decide_eq_true_eq, board, same.adj]
        constructor
        · rintro ⟨adjacent, free⟩
          exact ⟨free, p, adj_symm adjacent, rfl⟩
        · rintro ⟨free, q, adjacent, rfl⟩
          exact ⟨adj_symm adjacent, free⟩
    · have stoneBefore : (b.board p).IsStone := by rwa [board, Function.update_of_ne here] at stone
      have group := booked.group p stoneBefore
      rw [heads, Function.update_of_ne here]
      obtain ⟨h, headEq⟩ : ∃ h, h = b.groupHead p := ⟨_, rfl⟩
      have other : h ≠ loc := by rw [headEq]; exact apart p
      rw [← headEq] at group ⊢
      have outside : ∀ q, b.groupHead q = h → q ≠ loc := by
        rintro q inside rfl
        exact (group.stones inside).ne_empty blank
      have members : ∀ q, (b.pressed pla loc).groupHead q = h ↔ b.groupHead q = h := by
        intro q
        rw [heads]
        by_cases equal : q = loc
        · subst equal
          rw [Function.update_self]
          exact iff_of_false other.symm fun inside => outside q inside rfl
        · rw [Function.update_of_ne equal]
      refine group.frame members (fun q inside => by rw [board, Function.update_of_ne (outside q inside)])
        (fun q inside => by rw [nexts, Function.update_of_ne (outside q inside)])
        (fun q inside => by rw [prevs, Function.update_of_ne (outside q inside)])
        (by rw [counts, Function.update_of_ne other]) ?_
      have keep : (b.placeStone pla loc).groupLibertyCount h = b.groupLibertyCount h := Function.update_of_ne other ..
      have touches : (∃ a ∈ b.adj loc, (b.board a).IsStone ∧ b.groupHead a = h) ↔
          ∃ a ∈ b.adj loc, b.groupHead a = h :=
        exists_congr fun a => and_congr_right fun _ => and_iff_right_of_imp group.stones
      -- Taking the stone off again would give the liberty back.
      have back := card_libs_of_blanked (h := h) shape' same.symm
        (show (b.pressed pla loc).board loc ≠ .empty by rw [board, Function.update_self]; exact player.ne_empty)
        (by rw [board, Function.update_self]; exact player.ne_wall)
        (by rw [board, Function.update_idem, ← blank, Function.update_eq_self]) (fun q => (members q).symm)
      rw [liberties, keep, group.liberties, back, same.adj]
      simp only [touches, members]
      split_ifs <;> ring

end Place

end Board
end KataGo.Python
