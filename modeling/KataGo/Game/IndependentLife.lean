import KataGo.Game.UnconditionalLife
import KataGo.Lib.ComponentFill

/-! Areas that live on their own: the part of `cpp/game/board.cpp` that the tax rules score with.
A connected area of one colour is left out if it has a stone in atari or touches a neutral point. -/

namespace KataGo.Game
open KataGo.Lib Labelling

namespace Board

section Definitions

variable (b : Board) (basicArea : Loc → Color)

/-- A stone of its owner in atari, or a point next to a neutral one. -/
def touchesSeki (loc : Loc) : Bool :=
  (decide (b.colors loc = basicArea loc) && decide (b.getNumLiberties loc = 1)) ||
    (b.adj loc).any fun a => b.colors a = .empty ∧ basicArea a = .empty

/-- Label the rest of the area of `loc`. -/
def fillBasicArea {ι : Type} (i : ι) (labels : Loc → Option ι) (loc : Loc) : Option (Loc → Option ι) :=
  (Search.search b.adj (fun a => basicArea a = basicArea loc) i (fun _ _ => ()) (maxArrSize + 1) labels () loc).map
    Search.State.labels

def markSeki (isSeki : Loc → Option Unit) (loc : Loc) : Option (Loc → Option Unit) :=
  if basicArea loc ≠ .empty ∧ isSeki loc = none ∧ b.touchesSeki basicArea loc then
    b.fillBasicArea basicArea () isSeki loc
  else some isSeki

/-- Copy an area that is not in seki, and count it. The result holds nothing that is not in the
basic area, so a point is marked when it differs from `none`. -/
def markIndependent (isSeki : Loc → Option Unit) (s : (Loc → Option Color) × Int) (loc : Loc) :
    Option ((Loc → Option Color) × Int) :=
  if basicArea loc ≠ .empty ∧ isSeki loc = none ∧ s.1 loc ≠ some (basicArea loc) then do
    let result ← b.fillBasicArea basicArea (basicArea loc) s.1 loc
    return (result, s.2 + if basicArea loc = .white then 1 else -1)
  else some s

/-- The areas that live on their own, and how many more White has than Black. -/
def calculateIndependentLifeAreaHelper : Option ((Loc → Color) × Int) := do
  let isSeki ← b.locs.foldlM (b.markSeki basicArea) fun _ => none
  let (result, whiteMinusBlackIndependentLifeRegionCount) ←
    b.locs.foldlM (b.markIndependent basicArea isSeki) (fun _ => none, 0)
  return (fun loc => (result loc).getD .empty, whiteMinusBlackIndependentLifeRegionCount)

/-- Copy the points of the area for which a test holds. -/
def keepArea (keep : Loc → Bool) (result : Loc → Color) : Loc → Color :=
  b.locs.foldl (fun result loc => if keep loc then Function.update result loc (basicArea loc) else result) result

end Definitions

/-- The basic area is the area of `calculateArea` with all three flags. -/
def calculateIndependentLifeArea (b : Board) (keepTerritories keepStones isMultiStoneSuicideLegal : Bool) :
    Option ((Loc → Color) × Int) := do
  let basicArea ← b.calculateArea true true true isMultiStoneSuicideLegal
  let (result, whiteMinusBlackIndependentLifeRegionCount) ← b.calculateIndependentLifeAreaHelper basicArea
  let result := if keepTerritories then
      b.keepArea basicArea (fun loc => basicArea loc ≠ .empty ∧ basicArea loc ≠ b.colors loc) result
    else result
  let result := if keepStones then
      b.keepArea basicArea (fun loc => basicArea loc ≠ .empty ∧ basicArea loc = b.colors loc) result
    else result
  return (result, whiteMinusBlackIndependentLifeRegionCount)

variable {b : Board} {basicArea : Loc → Color} {loc x : Loc}

/-- An area of points of the board. -/
structure IsArea (b : Board) (area : Loc → Color) : Prop where
  inside : ∀ p, area p ≠ .empty → p ∈ b.locs
  solid : ∀ p, area p ≠ .wall

section Filling

variable {ι : Type} {i : ι} {labels : Loc → Option ι}

/-- Filling labels the area of a point, keeping the labels there are. -/
theorem fillBasicArea_spec (shape : b.Shape) (area : b.IsArea basicArea) (owned : basicArea loc ≠ .empty)
    (fresh : labels loc = none) : ∃ labels', b.fillBasicArea basicArea i labels loc = some labels' ∧
      labels' loc = some i ∧ ∀ p, labels' p = labels p ∨ labels' p = some i ∧ basicArea p = basicArea loc := by
  have enough : b.locs.toFinset.card < maxArrSize + 1 :=
    Nat.lt_succ_of_le (card_boardLocs_le shape.wide.2 shape.high.2)
  obtain ⟨l, run, -, found⟩ := @Search.search_spec Loc ι Unit _ b.adj (fun a => decide (basicArea a = basicArea loc)) i
    (fun _ _ => ()) labels () loc b.locs.toFinset (by simp) fresh
    (fun a want => List.mem_toFinset.mpr (area.inside a ((of_decide_eq_true want).trans_ne owned))) _ enough
  refine ⟨_, by rw [fillBasicArea, run]; rfl, by simp, fun p => ?_⟩
  by_cases reached : p ∈ loc :: l
  · refine .inr ⟨if_pos reached, ?_⟩
    rcases Relation.ReflTransGen.cases_tail ((found p).mp reached) with rfl | ⟨_, -, -, want, -⟩
    · rfl
    · exact of_decide_eq_true want
  · exact .inl (if_neg reached)

end Filling

theorem markSeki_foldlM (shape : b.Shape) (area : b.IsArea basicArea) :
    ∃ isSeki, b.locs.foldlM (b.markSeki basicArea) (fun _ => none) = some isSeki := by
  have body : ∀ (isSeki : Loc → Option Unit) loc, loc ∈ b.locs → True →
      ∃ isSeki', b.markSeki basicArea isSeki loc = some isSeki' ∧ True := by
    intro isSeki loc _ _
    unfold markSeki
    split_ifs with marks
    · obtain ⟨isSeki', run, -⟩ := fillBasicArea_spec (i := ()) shape area marks.1 marks.2.1
      exact ⟨isSeki', run, trivial⟩
    · exact ⟨isSeki, rfl, trivial⟩
  obtain ⟨isSeki, run, -⟩ := foldlM_invariant _ (fun _ => True) body trivial
  exact ⟨isSeki, run⟩

/-- The marks are those of the basic area, and every area counted for a player has a mark. -/
structure Counted (b : Board) (basicArea : Loc → Color) (s : (Loc → Option Color) × Int) : Prop where
  marks : ∀ p c, s.1 p = some c → c = basicArea p
  count : ∃ white black : Nat, s.2 = white - black ∧ white ≤ b.locs.countP (fun p => s.1 p = some .white) ∧
    black ≤ b.locs.countP fun p => s.1 p = some .black

theorem Counted.step {isSeki : Loc → Option Unit} {s : (Loc → Option Color) × Int} (counted : Counted b basicArea s)
    (shape : b.Shape) (area : b.IsArea basicArea) (onBoard : loc ∈ b.locs) :
    ∃ s', b.markIndependent basicArea isSeki s loc = some s' ∧ Counted b basicArea s' := by
  unfold markIndependent
  by_cases marks : basicArea loc ≠ .empty ∧ isSeki loc = none ∧ s.1 loc ≠ some (basicArea loc)
  · rw [if_pos marks]
    obtain ⟨mine, -, other⟩ := marks
    have fresh : s.1 loc = none := by
      cases known : s.1 loc with
      | none => rfl
      | some c => exact absurd (known.trans (congrArg some (counted.marks loc c known))) other
    obtain ⟨labels, run, marked, kept⟩ := fillBasicArea_spec (i := basicArea loc) shape area mine fresh
    refine ⟨_, by rw [run]; rfl, fun p c label => ?_, ?_⟩
    · rcases kept p with same | ⟨here, same⟩
      · exact counted.marks p c (same.symm.trans label)
      · exact (Option.some.inj (label.symm.trans here)).trans same.symm
    · have keep : ∀ c, ∀ p ∈ b.locs, decide (s.1 p = some c) = true → decide (labels p = some c) = true := by
        intro c p _ before
        have before := of_decide_eq_true before
        refine decide_eq_true ?_
        rcases kept p with same | ⟨here, same⟩
        · exact same.trans before
        · rw [here, ← same, ← counted.marks p c before]
      have one : b.locs.countP (fun p => s.1 p = some (basicArea loc)) < b.locs.countP fun p => labels p = some (basicArea loc) :=
        countP_lt_of_mem onBoard (keep _) (by simp [fresh]) (by simp [marked])
      obtain ⟨white, black, number, whites, blacks⟩ := counted.count
      have moreWhites := List.countP_mono_left (keep .white)
      have moreBlacks := List.countP_mono_left (keep .black)
      cases color : basicArea loc with
      | empty => exact absurd color mine
      | wall => exact absurd color (area.solid loc)
      | white =>
        rw [color] at one
        refine ⟨white + 1, black, ?_, (Nat.succ_le_succ whites).trans one, blacks.trans moreBlacks⟩
        simp only [if_true, number]
        omega
      | black =>
        rw [color] at one
        refine ⟨white, black + 1, ?_, whites.trans moreWhites, (Nat.succ_le_succ blacks).trans one⟩
        simp only [reduceCtorEq, if_false, number]
        omega
  · exact ⟨s, if_neg marks, counted⟩

theorem calculateIndependentLifeAreaHelper_spec (shape : b.Shape) (area : b.IsArea basicArea) : ∃ s, Counted b basicArea s ∧
      b.calculateIndependentLifeAreaHelper basicArea = some (fun p => (s.1 p).getD .empty, s.2) := by
  obtain ⟨isSeki, first⟩ := markSeki_foldlM shape area
  have start : Counted b basicArea (fun _ => none, 0) := ⟨fun _ _ none => (nomatch none), 0, 0, rfl, by omega, by omega⟩
  obtain ⟨s, second, counted⟩ := foldlM_invariant (b.markIndependent basicArea isSeki) (Counted b basicArea)
    (fun s loc onBoard counted => counted.step shape area onBoard) start
  refine ⟨s, counted, ?_⟩
  rw [calculateIndependentLifeAreaHelper, first]
  show (b.locs.foldlM (b.markIndependent basicArea isSeki) (fun _ => none, 0) >>= _) = _
  rw [second]
  rfl

/-- An area is copied unless one of its points touches seki. -/
theorem calculateIndependentLifeAreaHelper_exact (shape : b.Shape) (area : b.IsArea basicArea) :
    ∃ result count, b.calculateIndependentLifeAreaHelper basicArea = some (result, count) ∧ ∀ p,
      ((¬ ∃ q, Chain (grid b.xSize) basicArea p q ∧ b.touchesSeki basicArea q = true) → result p = basicArea p) ∧
      ((∃ q, Chain (grid b.xSize) basicArea p q ∧ b.touchesSeki basicArea q = true) → result p = .empty) := by
  obtain ⟨isSeki, s, marking, copying, copied⟩ := ComponentFill.foldlM_unmarked (G := grid b.xSize) (c := basicArea)
    (U := b.locs.toFinset) (n := maxArrSize + 1) (l := b.locs) (s := ((fun _ => none : Loc → Option Color), (0 : Int)))
    (fun p q => grid_adj) (fun color => decide (color ≠ .empty)) (b.touchesSeki basicArea) (fun color => color) Prod.fst
    (b.markSeki basicArea) (b.markIndependent basicArea) rfl
    (fun v mine => ⟨area.inside v (of_decide_eq_true mine), List.mem_toFinset.mpr (area.inside v (of_decide_eq_true mine))⟩)
    (Nat.lt_succ_of_le (card_boardLocs_le shape.wide.2 shape.high.2))
    (fun v _ isSeki isSeki' passes fresh filled => by
      simp only [Bool.and_eq_true, decide_eq_true_eq] at passes
      rw [markSeki, if_pos ⟨passes.1, fresh, passes.2⟩]
      exact filled)
    (fun v _ isSeki skip => by
      rw [markSeki, if_neg]
      rintro ⟨mine, fresh, passes⟩
      rcases skip with fails | marked
      · simp [mine, passes] at fails
      · cases fresh.symm.trans marked)
    (fun v _ isSeki s labels' passes fresh filled => by
      simp only [Bool.and_eq_true, decide_eq_true_eq, Option.isNone_iff_eq_none] at passes
      have filled : b.fillBasicArea basicArea (basicArea v) s.1 v = some labels' := filled
      refine ⟨(labels', s.2 + if basicArea v = .white then 1 else -1), ?_, rfl⟩
      rw [markIndependent, if_pos ⟨passes.1, passes.2, by rw [fresh]; exact (Option.some_ne_none _).symm⟩, filled]
      rfl)
    (fun v _ isSeki s skip => by
      refine ⟨s, ?_, rfl⟩
      rw [markIndependent, if_neg]
      rintro ⟨mine, free, other⟩
      rcases skip with fails | marked
      · simp [mine, free] at fails
      · exact other marked)
  refine ⟨_, s.2, by rw [calculateIndependentLifeAreaHelper, marking]; exact congrArg (Option.bind · _) copying, fun p => ?_⟩
  constructor
  · intro calm
    show (s.1 p).getD .empty = basicArea p
    by_cases mine : basicArea p = .empty
    · rw [(copied p).2 (.inl (by simp [mine])), mine]
      rfl
    · rw [(copied p).1 (decide_eq_true mine) calm]
      rfl
  · intro touching
    show (s.1 p).getD .empty = .empty
    rw [(copied p).2 (.inr touching)]
    rfl

theorem keepArea_apply (keep : Loc → Bool) (result : Loc → Color) (p : Loc) :
    b.keepArea basicArea keep result p = if p ∈ b.locs ∧ keep p then basicArea p else result p :=
  foldl_write_apply (fun v _ => keep v) (fun v _ => basicArea v) (boardLocs_nodup b.xSize b.ySize) result p

theorem space_mem_locs (shape : b.Shape) {pla : Player} (player : pla.IsStone)
    (space : Benson.Space (side pla player) b.colors x) : x ∈ b.locs :=
  shape.mem_locs (isEmptyOrOpp_ne_wall player ((isEmptyOrOpp_iff player).mpr space))

theorem Owned.mem_locs (shape : b.Shape) {pla : Player} {player : pla.IsStone} {suicide safe : Bool}
    (owned : b.Owned pla player suicide safe x) : x ∈ b.locs := by
  rcases owned with alive | ⟨enclosed, -⟩
  · have mine : b.colors x = pla := alive.label
    exact shape.stone_mem_locs (by rw [mine]; exact player)
  · exact space_mem_locs shape player enclosed.1

theorem IsArea.withArea {area : Loc → Color} {pla : Player} {player : pla.IsStone} (isArea : b.IsArea area) (shape : b.Shape)
    (safe loose suicide : Bool) : b.IsArea (b.withArea pla player safe loose suicide area) := by
  refine ⟨fun x => ?_, fun x => ?_⟩
  all_goals unfold Board.withArea
  all_goals split_ifs with owned surrounded
  · exact fun _ => Owned.mem_locs shape owned
  · exact fun _ => space_mem_locs shape player surrounded.2.1.1
  · exact isArea.inside x
  · exact player.ne_wall
  · exact player.ne_wall
  · exact isArea.solid x

theorem IsArea.markNonPassAliveStones {area : Loc → Color} (isArea : b.IsArea area) (shape : b.Shape) :
    b.IsArea (b.markNonPassAliveStones area) := by
  refine ⟨fun p => ?_, fun p => ?_⟩
  all_goals rw [markNonPassAliveStones_apply]
  all_goals split_ifs with inside
  · exact fun _ => inside.1
  · exact isArea.inside p
  · exact fun wall => (shape.wall_iff p).mp wall inside.1
  · exact isArea.solid p

variable [Zobrist]

theorem calculateArea_isArea (consistent : b.Consistent) (safe loose suicide : Bool) :
    ∃ area, b.calculateArea true safe loose suicide = some area ∧ b.IsArea area := by
  refine ⟨_, calculateAreaInOrder_eq consistent (.inl rfl) (.inr rfl) _ _ _ _, ?_⟩
  have none : b.IsArea fun _ => .empty := ⟨fun _ owned => absurd rfl owned, fun _ => Color.noConfusion⟩
  exact ((none.withArea consistent.shape ..).withArea consistent.shape ..).markNonPassAliveStones consistent.shape

/-- Every area counted for a player has a point in the result. -/
theorem calculateIndependentLifeArea_spec (consistent : b.Consistent) (keepTerritories keepStones suicide : Bool) :
    ∃ (area : Loc → Color) (white black : Nat), b.calculateIndependentLifeArea keepTerritories keepStones suicide =
      some (area, (white : Int) - black) ∧ white ≤ b.locs.countP (fun p => area p = .white) ∧
        black ≤ b.locs.countP fun p => area p = .black := by
  obtain ⟨basicArea, basic, isArea⟩ := calculateArea_isArea consistent true true suicide
  obtain ⟨s, ⟨marks, white, black, number, whites, blacks⟩, run⟩ :=
    calculateIndependentLifeAreaHelper_spec consistent.shape isArea
  obtain ⟨area, returned, kept⟩ : ∃ area, b.calculateIndependentLifeArea keepTerritories keepStones suicide =
      some (area, s.2) ∧ ∀ p, area p = (s.1 p).getD .empty ∨ area p = basicArea p := by
    rw [calculateIndependentLifeArea, basic]
    dsimp only [Option.bind_eq_bind, Option.bind_some]
    rw [run]
    refine ⟨_, rfl, fun p => ?_⟩
    have keep : ∀ (test : Loc → Bool) (result : Loc → Color), (∀ p, result p = (s.1 p).getD .empty ∨ result p = basicArea p) →
        ∀ p, b.keepArea basicArea test result p = (s.1 p).getD .empty ∨ b.keepArea basicArea test result p = basicArea p := by
      intro test result before p
      rw [keepArea_apply]
      split_ifs
      · exact .inr rfl
      · exact before p
    dsimp only
    split_ifs
    · exact keep _ _ (keep _ _ fun _ => .inl rfl) p
    · exact keep _ _ (fun _ => .inl rfl) p
    · exact keep _ _ (fun _ => .inl rfl) p
    · exact .inl rfl
  have same : ∀ c, c ≠ .empty → ∀ p ∈ b.locs, decide (s.1 p = some c) = true → decide (area p = c) = true := by
    intro c colored p _ marked
    have marked := of_decide_eq_true marked
    refine decide_eq_true ?_
    rcases kept p with same | same
    · rw [same, marked]
      rfl
    · exact same.trans (marks p c marked).symm
  exact ⟨area, white, black, by rw [returned, number], whites.trans (List.countP_mono_left (same _ Color.noConfusion)),
    blacks.trans (List.countP_mono_left (same _ Color.noConfusion))⟩

end Board
end KataGo.Game
