import KataGo.Python.Undo
import KataGo.Game.Placement

/-! The empty board, and the operations that do not record what they take: `set_stone`
takes a stone out of its group by removing the group and putting the other stones back. -/

namespace KataGo.Python
open KataGo.Lib CircularList Labelling
open KataGo.Game (Color Player getOpp Loc grid boardLocs mem_boardLocs)

section Start

variable {xSize ySize : Nat} {p : Loc}

theorem mem_border {n : Nat} {i : Int} : i ∈ border n ↔ -1 ≤ i ∧ i ≤ n := by
  rw [border, List.mem_map]
  constructor
  · rintro ⟨k, member, rfl⟩
    have below := List.mem_range.1 member
    omega
  · rintro ⟨lower, upper⟩
    exact ⟨(i + 1).toNat, List.mem_range.2 (by omega), by omega⟩

theorem mem_wallLocs : p ∈ wallLocs xSize ySize ↔
    (∃ i : Int, (-1 ≤ i ∧ i ≤ xSize) ∧ (p = locOf xSize i (-1) ∨ p = locOf xSize i ySize)) ∨
      ∃ i : Int, (-1 ≤ i ∧ i ≤ ySize) ∧ (p = locOf xSize (-1) i ∨ p = locOf xSize xSize i) := by
  simp only [wallLocs, List.mem_append, List.mem_flatMap, mem_border, List.mem_cons, List.not_mem_nil, or_false]

/-- Column and row are determined by a location of the array. -/
theorem locOf_injective {x y x' y' : Int} (left : -1 ≤ x ∧ x < xSize) (left' : -1 ≤ x' ∧ x' < xSize)
    (same : locOf xSize x y = locOf xSize x' y') : x = x' ∧ y = y' := by
  refine KataGo.Game.place_injective left left' ?_
  unfold locOf at same
  rw [mul_comm (y + 1), mul_comm (y' + 1)]
  exact same

/-- The right wall of a row is the left wall of the next one. -/
theorem locOf_wrap (i : Int) : locOf xSize xSize i = locOf xSize (-1) (i + 1) := by
  unfold locOf
  ring

theorem mem_boardLocs_iff : p ∈ boardLocs xSize ySize ↔
    ∃ x y : Int, (0 ≤ x ∧ x < xSize) ∧ (0 ≤ y ∧ y < ySize) ∧ p = locOf xSize x y := by
  rw [mem_boardLocs]
  constructor
  · rintro ⟨y, below, x, left, rfl⟩
    exact ⟨x, y, by omega, by omega, by unfold KataGo.Game.Location.getLoc locOf; ring⟩
  · rintro ⟨x, y, ⟨x0, left⟩, ⟨y0, below⟩, rfl⟩
    obtain ⟨x, rfl⟩ := Int.eq_ofNat_of_zero_le x0
    obtain ⟨y, rfl⟩ := Int.eq_ofNat_of_zero_le y0
    exact ⟨y, by omega, x, by omega, by unfold KataGo.Game.Location.getLoc locOf; ring⟩

theorem not_wallLocs (member : p ∈ boardLocs xSize ySize) : p ∉ wallLocs xSize ySize := by
  obtain ⟨x, y, ⟨x0, left⟩, ⟨y0, below⟩, rfl⟩ := mem_boardLocs_iff.1 member
  have apart : ∀ i j : Int, -1 ≤ i ∧ i < xSize → i = -1 ∨ j = -1 ∨ j = ySize →
      locOf xSize x y ≠ locOf xSize i j := by
    intro i j bounds wall same
    have equal := locOf_injective (by omega) bounds same
    omega
  rw [mem_wallLocs]
  rintro (⟨i, ⟨lower, upper⟩, same⟩ | ⟨i, -, same⟩)
  · by_cases last : i = xSize
    · rw [last, locOf_wrap, locOf_wrap] at same
      exact same.elim (apart (-1) _ (by omega) (by omega)) (apart (-1) _ (by omega) (by omega))
    · exact same.elim (apart i _ (by omega) (by omega)) (apart i _ (by omega) (by omega))
  · rw [locOf_wrap] at same
    exact same.elim (apart (-1) _ (by omega) (by omega)) (apart (-1) _ (by omega) (by omega))

/-- Whatever of the array is not a point of the board is a wall. -/
theorem mem_wallLocs_of_not_mem {p : Int} (lower : 0 ≤ p) (upper : p < arrSize xSize ySize)
    (off : p ∉ boardLocs xSize ySize) : p ∈ wallLocs xSize ySize := by
  have positive : (0 : Int) < xSize + 1 := by omega
  have column := Int.emod_nonneg p positive.ne'
  have columns := Int.emod_lt_of_pos p positive
  have split : locOf xSize (p % (xSize + 1) - 1) (p / (xSize + 1) - 1) = p := by
    unfold locOf
    rw [sub_add_cancel, sub_add_cancel]
    exact Int.emod_add_mul_ediv p _
  have rows : 0 ≤ p / ((xSize : Int) + 1) := Int.ediv_nonneg lower positive.le
  have most : p / ((xSize : Int) + 1) ≤ ySize + 2 := by
    have bound : p ≤ (ySize + 2) * (xSize + 1) := by
      unfold arrSize at upper
      push_cast at upper
      rw [mul_comm]
      exact Int.lt_add_one_iff.1 upper
    exact (Int.ediv_le_ediv positive bound).trans (Int.mul_ediv_cancel _ positive.ne').le
  generalize p / ((xSize : Int) + 1) = y at *
  generalize p % ((xSize : Int) + 1) = x at *
  rw [mem_wallLocs]
  by_cases top : y = 0
  · exact Or.inl ⟨x - 1, by omega, Or.inl (by rw [← split, top]; rfl)⟩
  by_cases bottom : y = ySize + 1
  · exact Or.inl ⟨x - 1, by omega, Or.inr (by rw [← split, bottom, add_sub_cancel_right])⟩
  by_cases leftmost : x = 0
  · by_cases beyond : y = ySize + 2
    · refine Or.inr ⟨ySize, by omega, Or.inr ?_⟩
      rw [← split, leftmost, beyond, locOf_wrap]
      congr 1
      omega
    · exact Or.inr ⟨y - 1, by omega, Or.inl (by rw [← split, leftmost]; rfl)⟩
  · by_cases beyond : y = ySize + 2
    · exfalso
      rw [← split, beyond] at upper
      unfold locOf arrSize at upper
      push_cast at upper
      rw [show (xSize + 1 : Int) * (ySize + 2 - 1 + 1) = (xSize + 1) * (ySize + 2) by ring] at upper
      omega
    · exact absurd (mem_boardLocs_iff.2 ⟨x - 1, y - 1, by omega, by omega, split.symm⟩) off

/-- Before the first move: empty points, and walls around them. -/
theorem initBoard_eq : initBoard xSize ySize p = if p ∈ boardLocs xSize ySize then .empty else .wall := by
  rw [initBoard, KataGo.Game.Board.foldl_update_apply]
  by_cases member : p ∈ boardLocs xSize ySize
  · obtain ⟨positive, below⟩ := Board.locs_bounds (b := emptyBoard xSize ySize) member
    change p < arrSize xSize ySize at below
    rw [if_neg (not_wallLocs member), if_pos member, if_pos ⟨positive.le, below⟩]
  · rw [if_neg member]
    split_ifs with wall inside
    · rfl
    · exact absurd (mem_wallLocs_of_not_mem inside.1 inside.2 member) wall
    · rfl

theorem emptyBoard_board_empty (member : p ∈ boardLocs xSize ySize) : (emptyBoard xSize ySize).board p = .empty :=
  initBoard_eq.trans (if_pos member)

theorem emptyBoard_noStone (p : Loc) : ¬ ((emptyBoard xSize ySize).board p).IsStone := by
  change ¬ (initBoard xSize ySize p).IsStone
  rw [initBoard_eq]
  split_ifs <;> decide

theorem emptyBoard_regular (wide : 2 ≤ xSize ∧ xSize ≤ 50) (high : 2 ≤ ySize ∧ ySize ≤ 50) :
    (emptyBoard xSize ySize).Regular := by
  have wallIff : ∀ p, (emptyBoard xSize ySize).board p = .wall ↔ p ∉ boardLocs xSize ySize := by
    intro p
    change initBoard xSize ySize p = .wall ↔ _
    rw [initBoard_eq]
    split_ifs with member <;> simp [member]
  have shape : (emptyBoard xSize ySize).Shape := ⟨wide, high, wallIff⟩
  have links : ∀ p, initLinks p ≤ 0 := by
    intro p
    unfold initLinks
    by_cases here : p = 0
    · rw [here, Function.update_self]
      decide
    · rw [Function.update_of_ne here]
  refine ⟨⟨shape, fun p blank => ?_, fun p _ => links p, fun p stone => absurd stone (emptyBoard_noStone p)⟩,
    fun p q stone => absurd stone (emptyBoard_noStone p)⟩
  have positive := shape.positive (p := p) (by rw [blank]; decide)
  have zero : initLinks p = 0 := Function.update_of_ne positive.ne' ..
  exact ⟨zero, zero, zero⟩

theorem emptyBoard_allAlive : (emptyBoard xSize ySize).AllAlive :=
  fun p stone => absurd stone (emptyBoard_noStone p)

end Start

namespace Board

variable {b b' : Board} {p q loc : Loc} {pla k : Color}

/-- In order, and no group without liberties: what every operation leaves. -/
structure Sound (b : Board) : Prop where
  regular : b.Regular
  alive : b.AllAlive

theorem Played.sound (played : Played b b' pla loc) : b'.Sound := ⟨played.regular, played.alive⟩

/-- Taking stones off a board leaves every remaining group with a liberty. -/
theorem allAlive_of_fewer (alive : b.AllAlive) (xSize : b'.xSize = b.xSize)
    (fewer : ∀ q, b'.board q = b.board q ∨ b'.board q = .empty) : b'.AllAlive := by
  have keeps : b'.position.AllAlive := KataGo.Game.Board.allAlive_of_fewer (b := b.position) alive xSize fewer
  exact keeps

variable [ZobristStone]

/-- Putting a stone back where one was taken off captures nothing. -/
theorem addUnsafe_back {b₁ : Board} (alive : b.AllAlive) (sound : b₁.Sound) (xSize : b₁.xSize = b.xSize)
    (fewer : ∀ q, b₁.board q = b.board q ∨ b₁.board q = .empty) (blank : b₁.board p = .empty)
    (stone : (b.board p).IsStone) :
    ∃ b', b₁.addUnsafe (b.board p) p = some b' ∧ b'.Sound ∧ b'.xSize = b₁.xSize ∧ b'.ySize = b₁.ySize ∧
      b'.board = Function.update b₁.board p (b.board p) := by
  obtain ⟨b', run, played⟩ := addUnsafe_spec sound.regular sound.alive blank stone
  refine ⟨b', run, played.sound, played.xSize, played.ySize, ?_⟩
  have fewer' : ∀ q, Function.update b₁.board p (b.board p) q = b.board q ∨
      Function.update b₁.board p (b.board p) q = .empty := by
    intro q
    by_cases here : q = p
    · subst here
      exact Or.inl (Function.update_self ..)
    · rw [Function.update_of_ne here]
      exact fewer q
  have alive' : ∀ q, (Function.update b₁.board p (b.board p) q).IsStone →
      ∃ e, Liberty (grid b₁.xSize) .empty (Function.update b₁.board p (b.board p)) q e := by
    intro q isStone
    have stays := (fewer' q).resolve_right isStone.ne_empty
    rw [stays] at isStone
    obtain ⟨e, free⟩ := alive q isStone
    rw [xSize]
    exact free.of_blanked fewer' stays
  rw [played.board, play_eq_update]
  · intro q opposite
    exact alive' q (by rw [opposite]; exact stone.opp)
  · exact alive' p (by rw [Function.update_self]; exact stone)

theorem putBack_spec (alive : b.AllAlive) (player : pla.IsStone) (rest : List Loc) {b₁ : Board}
    (colour : ∀ q ∈ rest, b.board q = pla) (nodup : rest.Nodup) (absent : loc ∉ rest) (sound : b₁.Sound)
    (xSize : b₁.xSize = b.xSize) (ySize : b₁.ySize = b.ySize)
    (colours : ∀ q, b₁.board q = if q = loc ∨ q ∈ rest then .empty else b.board q) :
    ∃ b', rest.foldlM (fun b p => if p ≠ loc then b.addUnsafe pla p else some b) b₁ = some b' ∧ b'.Sound ∧
      b'.xSize = b.xSize ∧ b'.ySize = b.ySize ∧ b'.board = Function.update b.board loc .empty := by
  induction rest generalizing b₁ with
  | nil =>
    refine ⟨b₁, rfl, sound, xSize, ySize, funext fun q => ?_⟩
    rw [colours q]
    by_cases here : q = loc <;> simp [here]
  | cons p rest ih =>
    obtain ⟨fresh, rest'⟩ := List.nodup_cons.1 nodup
    have other : p ≠ loc := fun same => absent (by simp [same])
    have mine := colour p (by simp)
    have fewer : ∀ q, b₁.board q = b.board q ∨ b₁.board q = .empty := by
      intro q
      rw [colours q]
      split_ifs <;> simp
    obtain ⟨b₂, run, sound₂, xSize₂, ySize₂, colours₂⟩ := addUnsafe_back alive sound xSize fewer (p := p)
      (by rw [colours p, if_pos (by simp)]) (by rw [mine]; exact player)
    rw [mine] at run colours₂
    obtain ⟨b', tail, result⟩ := ih (fun q member => colour q (by simp [member])) rest'
      (fun member => absent (by simp [member])) sound₂ (xSize₂.trans xSize) (ySize₂.trans ySize) (by
        intro q
        rw [colours₂]
        by_cases here : q = p
        · subst here
          simp [other, fresh, mine]
        · simp [colours q, here])
    refine ⟨b', ?_, result⟩
    rw [List.foldlM_cons, if_pos other, run]
    exact tail

/-- Removing one stone leaves all the other stones of its group. -/
theorem removeSingleStoneUnsafe_spec (sound : b.Sound) (stone : (b.board loc).IsStone) :
    ∃ b', b.removeSingleStoneUnsafe loc = some b' ∧ b'.Sound ∧ b'.xSize = b.xSize ∧ b'.ySize = b.ySize ∧
      b'.board = Function.update b.board loc .empty := by
  have regular := sound.regular
  obtain ⟨t, walked, ring, -⟩ := (regular.booked.group loc stone).groupLocs regular.booked.shape rfl
  obtain ⟨b₁, remove, regular₁, same, gone, kept⟩ := regular.removeUnsafe stone
  obtain ⟨absent, nodup⟩ := List.nodup_cons.1 ring.nodup
  have members : ∀ q, q ∈ loc :: t ↔ q ∈ b.component loc := fun q =>
    (ring.mem q).trans (regular.component loc q stone)
  have colours : ∀ q, b₁.board q = if q = loc ∨ q ∈ t then .empty else b.board q := by
    intro q
    split_ifs with inside
    · exact gone q ((members q).1 (List.mem_cons.2 inside))
    · exact kept q fun found => inside (List.mem_cons.1 ((members q).2 found))
  have sound₁ : b₁.Sound := by
    refine ⟨regular₁, allAlive_of_fewer sound.alive same.xSize fun q => ?_⟩
    rw [colours q]
    split_ifs <;> simp
  obtain ⟨b', back, result⟩ := putBack_spec sound.alive stone t
    (fun q member => Chain.label ((members q).1 (by simp [member]))) nodup absent sound₁ same.xSize same.ySize colours
  refine ⟨b', ?_, result⟩
  rw [removeSingleStoneUnsafe, walked]
  simp only [Option.bind_eq_bind, Option.bind_some, remove, List.foldlM_cons, ne_eq, not_true_eq_false, if_false]
  exact back

omit [ZobristStone] in
/-- The fields that no invariant mentions may be anything. -/
theorem Sound.congr (sound : b.Sound) (xSize : b'.xSize = b.xSize) (ySize : b'.ySize = b.ySize)
    (board : b'.board = b.board) (heads : b'.groupHead = b.groupHead)
    (counts : b'.groupStoneCount = b.groupStoneCount) (libertyCounts : b'.groupLibertyCount = b.groupLibertyCount)
    (nexts : b'.groupNext = b.groupNext) (prevs : b'.groupPrev = b.groupPrev) : b'.Sound := by
  refine ⟨sound.regular.congr xSize ySize board heads counts libertyCounts nexts prevs, ?_⟩
  intro p stone
  rw [board] at stone
  rw [liberties, board, xSize]
  exact sound.alive p stone

/-- The call returns or raises, and the board it leaves is in order. -/
def Keeps (b : Board) (result : Option (Except String Board)) : Prop :=
  (∃ message, result = some (.error message)) ∨
    ∃ b', result = some (.ok b') ∧ b'.Sound ∧ b'.xSize = b.xSize ∧ b'.ySize = b.ySize

/-- The four cases of `set_stone`, once its checks have passed. -/
def replaceStone (b : Board) (pla : Color) (loc : Loc) : Option Board :=
  if b.board loc = pla then some b
  else if b.board loc = .empty then b.addUnsafe pla loc
  else if pla = .empty then b.removeSingleStoneUnsafe loc
  else (b.removeSingleStoneUnsafe loc).bind fun b => b.addUnsafe pla loc

theorem setStone_eq (settable : pla ≠ .wall) (onBoard : b.isOnBoard loc = true) :
    b.setStone pla loc = (b.replaceStone pla loc).map fun b => .ok { b with simpleKoPoint := none } := by
  have ours : ¬ (pla ≠ .empty ∧ pla ≠ .black ∧ pla ≠ .white) := by
    revert settable
    cases pla <;> decide
  rw [setStone, if_neg ours, onBoard, replaceStone]
  simp only [Bool.not_true, Bool.false_eq_true, if_false]
  split_ifs
  · rfl
  · exact Option.map_eq_bind.symm
  · exact Option.map_eq_bind.symm
  · rw [Option.map_bind]
    exact congrArg _ (funext fun b' => Option.map_eq_bind.symm)

theorem replaceStone_spec (sound : b.Sound) (settable : pla ≠ .wall) (point : b.board loc ≠ .wall) :
    ∃ b', b.replaceStone pla loc = some b' ∧ b'.Sound ∧ b'.xSize = b.xSize ∧ b'.ySize = b.ySize := by
  have player : pla ≠ .empty → pla.IsStone := fun other => by
    by_contra none
    exact (cases_of_not_stone none).elim other settable
  have stone : b.board loc ≠ .empty → (b.board loc).IsStone := fun other => by
    by_contra none
    exact (cases_of_not_stone none).elim other point
  unfold replaceStone
  split_ifs with same blank erase
  · exact ⟨b, rfl, sound, rfl, rfl⟩
  · obtain ⟨b', run, played⟩ := addUnsafe_spec sound.regular sound.alive blank
      (player fun none => same (blank.trans none.symm))
    exact ⟨b', run, played.sound, played.xSize, played.ySize⟩
  · obtain ⟨b', run, sound', xSize, ySize, -⟩ := removeSingleStoneUnsafe_spec sound (stone blank)
    exact ⟨b', run, sound', xSize, ySize⟩
  · obtain ⟨b₁, remove, sound₁, xSize₁, ySize₁, colours⟩ := removeSingleStoneUnsafe_spec sound (stone blank)
    have free : b₁.board loc = .empty := by rw [colours, Function.update_self]
    obtain ⟨b', run, played⟩ := addUnsafe_spec sound₁.regular sound₁.alive free (player erase)
    exact ⟨b', by rw [remove]; exact run, played.sound, played.xSize.trans xSize₁, played.ySize.trans ySize₁⟩

theorem keeps_setStone (sound : b.Sound) (pla : Color) (loc : Loc) : b.Keeps (b.setStone pla loc) := by
  by_cases settable : pla ≠ .wall
  swap
  · rw [not_not] at settable
    exact Or.inl ⟨_, if_pos (by rw [settable]; decide)⟩
  by_cases onBoard : b.isOnBoard loc = true
  · have point := (sound.regular.booked.shape.wall_iff loc).not_left.2 (sound.regular.booked.shape.isOnBoard_iff.1 onBoard)
    obtain ⟨b', run, sound', xSize, ySize⟩ := replaceStone_spec sound settable point
    exact Or.inr ⟨{ b' with simpleKoPoint := none }, by rw [setStone_eq settable onBoard, run]; rfl,
      sound'.congr rfl rfl rfl rfl rfl rfl rfl rfl, xSize, ySize⟩
  · refine Or.inl ⟨"Invalid loc for board.set", ?_⟩
    rw [setStone, if_neg (by revert settable; cases pla <;> decide), if_pos (by simpa using onBoard)]

/-- A pass, or a stone put on an empty point. -/
theorem playUnsafe_spec (sound : b.Sound) (player : pla.IsStone) (open' : loc = passLoc ∨ b.board loc = .empty) :
    ∃ b', b.playUnsafe pla loc = some b' ∧ b'.Sound ∧ b'.xSize = b.xSize ∧ b'.ySize = b.ySize ∧
      (loc = passLoc → b'.board = b.board) ∧ (loc ≠ passLoc →
        b'.board = Labelling.play (grid b.xSize) .empty pla (getOpp pla) b.board loc) := by
  by_cases pass : loc = passLoc
  · exact ⟨{ b with simpleKoPoint := none, pla := getOpp pla }, if_pos pass,
      sound.congr rfl rfl rfl rfl rfl rfl rfl rfl, rfl, rfl, fun _ => rfl, fun other => absurd pass other⟩
  · obtain ⟨b', run, played⟩ := addUnsafe_spec sound.regular sound.alive (open'.resolve_left pass) player
    refine ⟨{ b' with pla := getOpp pla }, ?_, played.sound.congr rfl rfl rfl rfl rfl rfl rfl rfl,
      played.xSize, played.ySize, fun here => absurd here pass, fun _ => played.board⟩
    rw [playUnsafe, if_neg pass, run]
    rfl

omit [ZobristStone] in
/-- A move that `would_be_legal` accepts is a pass or goes to an empty point. -/
theorem open_of_legal (legal : b.wouldBeLegal pla loc = true) :
    pla.IsStone ∧ (loc = passLoc ∨ b.board loc = .empty) := by
  unfold wouldBeLegal at legal
  split_ifs at legal with stranger pass off filled suicide ko
  all_goals
    rw [not_and_or, not_not, not_not] at stranger
    refine ⟨stranger, ?_⟩
  · exact Or.inl pass
  · exact Or.inr (not_not.1 filled)

/-- `play` and `would_be_legal` accept the same moves. -/
theorem play_of_legal (legal : b.wouldBeLegal pla loc = true) :
    b.play pla loc = (b.playUnsafe pla loc).map .ok := by
  unfold wouldBeLegal at legal
  unfold play
  split_ifs at legal with stranger pass off filled suicide ko
  · simp only [if_neg stranger, pass, ne_eq, not_true_eq_false, false_and, if_false]
    exact Option.map_eq_bind.symm
  · simp only [if_neg stranger, ne_eq, pass, not_false_eq_true, true_and, if_neg off, if_neg filled, if_neg suicide,
      if_neg ko]
    exact Option.map_eq_bind.symm

theorem play_of_illegal (illegal : b.wouldBeLegal pla loc = false) :
    ∃ message, b.play pla loc = some (.error message) := by
  unfold wouldBeLegal at illegal
  unfold play
  split_ifs at illegal with stranger pass off filled suicide ko
  · exact ⟨_, if_pos stranger⟩
  · exact ⟨_, by rw [if_neg stranger, if_pos ⟨pass, off⟩]⟩
  · exact ⟨_, by rw [if_neg stranger, if_neg fun found => off found.2, if_pos ⟨pass, filled⟩]⟩
  · exact ⟨_, by rw [if_neg stranger, if_neg fun found => off found.2, if_neg fun found => filled found.2,
      if_pos ⟨pass, suicide⟩]⟩
  · exact ⟨_, by rw [if_neg stranger, if_neg fun found => off found.2, if_neg fun found => filled found.2,
      if_neg fun found => suicide found.2, if_pos ⟨pass, ko⟩]⟩

theorem keeps_play (sound : b.Sound) (pla : Color) (loc : Loc) : b.Keeps (b.play pla loc) := by
  cases legal : b.wouldBeLegal pla loc with
  | false => exact Or.inl (play_of_illegal legal)
  | true =>
    obtain ⟨player, open'⟩ := open_of_legal legal
    obtain ⟨b', run, sound', xSize, ySize, -, -⟩ := playUnsafe_spec sound player open'
    exact Or.inr ⟨b', by rw [play_of_legal legal, run]; rfl, sound', xSize, ySize⟩

end Board
end KataGo.Python
