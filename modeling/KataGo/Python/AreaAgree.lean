import KataGo.Game.IndependentLife
import KataGo.Game.AreaSymmetry
import KataGo.Python.AreaLife
import KataGo.Python.Lockstep

/-! `calculateNonDameTouchingArea` against the C++ `calculateIndependentLifeArea`. -/

namespace KataGo.Python
open KataGo.Lib CircularList Labelling
open KataGo.Game (Color Player getOpp Loc Zobrist grid)

namespace Board

variable [Zobrist] {b : Board} {basicArea area : Loc → Color} {safe loose suicide keepTerritories keepStones : Bool} {loc p q x : Loc}

section Copies

omit [Zobrist] in
theorem addStones_apply (b : Board) (basicArea : Loc → Color) (p : Loc) :
    b.addStones basicArea p = if p ∈ b.locs ∧ basicArea p = .empty then b.board p else basicArea p := by
  have loop := foldl_write_apply (fun _ color => decide (color = Color.empty)) (fun loc _ => b.board loc)
    (KataGo.Game.boardLocs_nodup b.xSize b.ySize) basicArea p
  simp only [decide_eq_true_eq] at loop
  exact loop

omit [Zobrist] in
theorem keepArea_apply (b : Board) (basicArea : Loc → Color) (keep : Loc → Bool) (result : Loc → Color) (p : Loc) :
    b.keepArea basicArea keep result p = if p ∈ b.locs ∧ keep p then basicArea p else result p :=
  foldl_write_apply (fun v _ => keep v) (fun v _ => basicArea v) (KataGo.Game.boardLocs_nodup b.xSize b.ySize) result p

omit [Zobrist] in
/-- An area is copied unless one of its points touches a neutral one. -/
theorem calculateNonDameTouchingAreaHelper_exact (b : Board) (inside : ∀ p, basicArea p ≠ .empty → p ∈ b.locs) :
    ∃ result, b.calculateNonDameTouchingAreaHelper basicArea = some result ∧ ∀ p,
      ((¬ ∃ q, Chain (grid b.xSize) basicArea p q ∧ b.touchesDame basicArea q = true) → result p = basicArea p) ∧
      ((∃ q, Chain (grid b.xSize) basicArea p q ∧ b.touchesDame basicArea q = true) → result p = .empty) := by
  obtain ⟨isDameTouching, s, marking, copying, copied⟩ := ComponentFill.foldlM_unmarked (G := grid b.xSize) (c := basicArea)
    (U := b.locs.toFinset) (n := b.arrsize + 1) (l := b.locs) (s := (fun _ => none : Loc → Option Color))
    (fun p q => KataGo.Game.grid_adj) (fun color => decide (color ≠ .empty)) (b.touchesDame basicArea) (fun color => color)
    (fun result => result) (b.markDameTouching basicArea) (b.copyArea basicArea) rfl
    (fun v mine => ⟨inside v (of_decide_eq_true mine), List.mem_toFinset.mpr (inside v (of_decide_eq_true mine))⟩)
    (Nat.lt_succ_of_le b.card_locs_le)
    (fun v _ marks marks' passes fresh filled => by
      simp only [Bool.and_eq_true, decide_eq_true_eq] at passes
      rw [markDameTouching, if_pos ⟨passes.1, fresh, passes.2⟩]
      exact filled)
    (fun v _ marks skip => by
      rw [markDameTouching, if_neg]
      rintro ⟨mine, fresh, passes⟩
      rcases skip with fails | marked
      · simp [mine, passes] at fails
      · cases fresh.symm.trans marked)
    (fun v _ marks result labels' passes fresh filled => by
      simp only [Bool.and_eq_true, decide_eq_true_eq, Option.isNone_iff_eq_none] at passes
      refine ⟨labels', ?_, rfl⟩
      rw [copyArea, if_pos ⟨passes.1, passes.2, by rw [fresh]; exact (Option.some_ne_none _).symm⟩]
      exact filled)
    (fun v _ marks result skip => by
      refine ⟨result, ?_, rfl⟩
      rw [copyArea, if_neg]
      rintro ⟨mine, free, other⟩
      rcases skip with fails | marked
      · simp [mine, free] at fails
      · exact other marked)
  refine ⟨_, by rw [calculateNonDameTouchingAreaHelper, marking]; exact congrArg (Option.bind · _) copying, fun p => ?_⟩
  constructor
  · intro calm
    show (s p).getD .empty = basicArea p
    by_cases mine : basicArea p = .empty
    · rw [(copied p).2 (.inl (by simp [mine])), mine]
      rfl
    · rw [(copied p).1 (decide_eq_true mine) calm]
      rfl
  · intro touching
    show (s p).getD .empty = .empty
    rw [(copied p).2 (.inr touching)]
    rfl

/-- A point of the area that the flags keep whatever becomes of its area. -/
def Kept (keepTerritories keepStones : Bool) (colors basicArea : Loc → Color) (p : Loc) : Prop :=
  basicArea p ≠ .empty ∧ if basicArea p = colors p then keepStones = true else keepTerritories = true

omit [Zobrist] in
/-- What `keepTerritories` and `keepStones` do to a result. -/
theorem keeps_apply (keepTerritories keepStones : Bool) (colors result : Loc → Color)
    {keepArea : (Loc → Bool) → (Loc → Color) → Loc → Color} {l : List Loc}
    (apply : ∀ keep result p, keepArea keep result p = if p ∈ l ∧ keep p = true then basicArea p else result p)
    {result₁ result₂ : Loc → Color} (first : result₁ = if keepTerritories = true then
        keepArea (fun loc => basicArea loc ≠ .empty ∧ basicArea loc ≠ colors loc) result else result)
    (second : result₂ = if keepStones = true then
        keepArea (fun loc => basicArea loc ≠ .empty ∧ basicArea loc = colors loc) result₁ else result₁)
    (inside : basicArea p ≠ .empty → p ∈ l) :
    (Kept keepTerritories keepStones colors basicArea p → result₂ p = basicArea p) ∧
      (¬ Kept keepTerritories keepStones colors basicArea p → result₂ p = result p) := by
  unfold Kept
  subst first second
  by_cases neutral : basicArea p = .empty
  · have skips : ∀ (test : Loc → Prop) [DecidablePred test] (result : Loc → Color),
        keepArea (fun loc => basicArea loc ≠ .empty ∧ test loc) result p = result p := by
      intro test _ result
      rw [apply, if_neg]
      simp [neutral]
    refine ⟨fun kept => absurd neutral kept.1, fun _ => ?_⟩
    split_ifs
    · rw [skips, skips]
    · rw [skips]
    · rw [skips]
    · rfl
  · have member := inside neutral
    by_cases own : basicArea p = colors p
    · cases keepTerritories <;> cases keepStones <;> simp [apply, member, eq_true own, neutral]
    · cases keepTerritories <;> cases keepStones <;> simp [apply, member, eq_false own, neutral]

end Copies

section Areas

open KataGo.Game.Board (IsArea owned_disjoint surrounded_disjoint)

/-- The area before the stones are added: White's area is written over Black's. -/
noncomputable def bothAreas (b : Board) (safe loose suicide : Bool) : Loc → Color :=
  b.withWholeArea .white (.inr rfl) safe loose suicide
    (b.withWholeArea .black (.inl rfl) safe loose suicide fun _ => .empty)

/-- The same for the C++ side. -/
noncomputable def engineAreas (c : KataGo.Game.Board) (safe loose suicide : Bool) : Loc → Color :=
  c.withArea .white (.inr rfl) safe loose suicide (c.withArea .black (.inl rfl) safe loose suicide fun _ => .empty)

/-- The basic area of the C++ side. -/
noncomputable def engineBasicArea (c : KataGo.Game.Board) (suicide : Bool) : Loc → Color :=
  c.markNonPassAliveStones (engineAreas c true true suicide)

/-- White surrounds a point that is Black's for good. -/
def Claimed (c : KataGo.Game.Board) (safe suicide : Bool) (p : Loc) : Prop :=
  c.Owned .black (.inl rfl) suicide safe p ∧ c.Surrounded .white (.inr rfl) p

theorem bothAreas_inside (consistent : b.engine.Consistent) (colored : b.bothAreas safe loose suicide p ≠ .empty) :
    p ∈ b.locs := by
  have owned : ∀ {pla : Player} {player : pla.IsStone},
      b.engine.Owned pla player suicide safe p ∨ loose = true ∧ b.engine.Surrounded pla player p → p ∈ b.locs := by
    rintro pla player (own | around)
    · exact KataGo.Game.Board.Owned.mem_locs consistent.shape own
    · exact KataGo.Game.Board.space_mem_locs consistent.shape player around.2.1
  unfold bothAreas withWholeArea at colored
  split_ifs at colored with white black
  · exact owned white
  · exact owned black
  · exact absurd rfl colored

/-- Where White claims nothing that is Black's, both sides find the same area. -/
theorem areas_eq (consistent : b.engine.Consistent) (p : Loc) :
    (¬ (loose = true ∧ Claimed b.engine safe suicide p) →
        b.bothAreas safe loose suicide p = engineAreas b.engine safe loose suicide p) ∧
      (loose = true ∧ Claimed b.engine safe suicide p →
        b.bothAreas safe loose suicide p = .white ∧ engineAreas b.engine safe loose suicide p = .black) := by
  have apart : b.engine.Owned .black (.inl rfl) suicide safe p → ¬ b.engine.Owned .white (.inr rfl) suicide safe p :=
    owned_disjoint consistent (.inl rfl)
  have around : b.engine.Surrounded .black (.inl rfl) p → ¬ b.engine.Surrounded .white (.inr rfl) p :=
    surrounded_disjoint consistent (.inl rfl)
  unfold engineAreas Claimed bothAreas withWholeArea KataGo.Game.Board.withArea
  constructor
  · intro free
    by_cases white : b.engine.Owned .white (.inr rfl) suicide safe p
    · simp [white]
    · by_cases black : b.engine.Owned .black (.inl rfl) suicide safe p
      · have clear : ¬ (loose = true ∧ b.engine.Surrounded .white (.inr rfl) p) :=
          fun surrounded => free ⟨surrounded.1, black, surrounded.2⟩
        rw [if_neg (fun either => either.elim white clear), if_pos (.inl black), if_neg white,
          if_neg (fun all => clear ⟨all.1, all.2.1⟩), if_pos black]
      · by_cases claims : loose = true ∧ b.engine.Surrounded .white (.inr rfl) p
        · have other : ¬ b.engine.Surrounded .black (.inl rfl) p := fun mine => around mine claims.2
          simp [white, black, claims, other]
        · cases loose with
          | false => simp [white, black]
          | true =>
            have calm : ¬ b.engine.Surrounded .white (.inr rfl) p := fun around => claims ⟨rfl, around⟩
            by_cases mine : b.engine.Surrounded .black (.inl rfl) p
            · simp [white, black, calm, mine]
            · simp only [white, black, calm, mine, and_false, or_false, if_false, false_and]
  · rintro ⟨rfl, black, claims⟩
    simp [black, claims, apart black]

theorem addStones_eq (consistent : b.engine.Consistent) (p : Loc) :
    (¬ (loose = true ∧ Claimed b.engine safe suicide p) → b.addStones (b.bothAreas safe loose suicide) p =
        b.engine.markNonPassAliveStones (engineAreas b.engine safe loose suicide) p) ∧
      (loose = true ∧ Claimed b.engine safe suicide p → b.addStones (b.bothAreas safe loose suicide) p = .white ∧
        b.engine.markNonPassAliveStones (engineAreas b.engine safe loose suicide) p = .black) := by
  rw [addStones_apply, KataGo.Game.Board.markNonPassAliveStones_apply]
  refine ⟨fun free => ?_, fun claimed => ?_⟩
  · rw [(areas_eq consistent p).1 free]
    rfl
  · obtain ⟨white, black⟩ := (areas_eq consistent p).2 claimed
    rw [white, black, if_neg (fun both => Color.noConfusion both.2), if_neg (fun both => Color.noConfusion both.2)]
    exact ⟨rfl, rfl⟩

/-- What is Black's for good is claimed by somebody, and his living stones by himself. -/
theorem bothAreas_of_owned (consistent : b.engine.Consistent) (own : b.engine.Owned .black (.inl rfl) suicide safe p) :
    b.addStones (b.bothAreas safe loose suicide) p ≠ .empty ∧
      (b.board p = .black → b.addStones (b.bothAreas safe loose suicide) p = .black) := by
  have apart : ¬ b.engine.Owned .white (.inr rfl) suicide safe p := owned_disjoint consistent (.inl rfl) own
  have claimed : loose = true ∧ b.engine.Surrounded .white (.inr rfl) p → b.bothAreas safe loose suicide p = .white := by
    intro claims
    unfold bothAreas withWholeArea
    rw [if_pos (.inr claims)]
  have unclaimed : ¬ (loose = true ∧ b.engine.Surrounded .white (.inr rfl) p) →
      b.bothAreas safe loose suicide p = .black := by
    intro clear
    unfold bothAreas withWholeArea
    rw [if_neg (fun either => either.elim apart clear), if_pos (.inl own)]
  have colored : b.bothAreas safe loose suicide p ≠ .empty := by
    by_cases claims : loose = true ∧ b.engine.Surrounded .white (.inr rfl) p
    · rw [claimed claims]
      decide
    · rw [unclaimed claims]
      decide
  rw [addStones_apply, if_neg fun both => colored both.2]
  refine ⟨colored, fun mine => unclaimed ?_⟩
  rintro ⟨-, -, clear, -⟩
  exact clear p (Benson.Region.refl p) mine

omit [Zobrist] in
/-- A C++ board with the stones of a Python board has its areas. -/
theorem engineAreas_congr {c c' : KataGo.Game.Board} (wide : c.xSize = c'.xSize) (high : c.ySize = c'.ySize)
    (stones : c.colors = c'.colors) (safe loose suicide : Bool) :
    engineAreas c safe loose suicide = engineAreas c' safe loose suicide ∧
      (∀ p, Claimed c safe suicide p ↔ Claimed c' safe suicide p) ∧
      ∀ result, c.markNonPassAliveStones result = c'.markNonPassAliveStones result := by
  refine ⟨?_, fun p => ?_, fun result => ?_⟩
  · unfold engineAreas KataGo.Game.Board.withArea KataGo.Game.Board.Owned KataGo.Game.Board.Surrounded
    rw [wide, stones]
  · unfold Claimed KataGo.Game.Board.Owned KataGo.Game.Board.Surrounded
    rw [wide, stones]
  · unfold KataGo.Game.Board.markNonPassAliveStones KataGo.Game.Board.locs
    rw [wide, high, stones]

/-- Area scoring gives every point the same owner on both sides exactly when no territory is marked that
White surrounds inside what is Black's for good. -/
theorem calculateArea_eq_iff (b : Board) (c : KataGo.Game.Board)
    (nonPassAliveStones safeBigTerritories unsafeBigTerritories isMultiStoneSuicideLegal : Bool) (sound : b.Sound)
    (consistent : c.Consistent) (wide : c.xSize = b.xSize) (high : c.ySize = b.ySize) (stones : c.colors = b.board) :
    ∃ result result',
      b.calculateArea nonPassAliveStones safeBigTerritories unsafeBigTerritories isMultiStoneSuicideLegal = some result ∧
      c.calculateArea nonPassAliveStones safeBigTerritories unsafeBigTerritories isMultiStoneSuicideLegal = some result' ∧
      ((∀ p ∈ b.locs, result p = result' p) ↔
        (unsafeBigTerritories = true → ∀ p, ¬ Claimed c safeBigTerritories isMultiStoneSuicideLegal p)) := by
  have engine : b.engine.Consistent := sound.engine (wide ▸ consistent.wide.2) (high ▸ consistent.high.2)
  obtain ⟨areas, claims, marks⟩ := @engineAreas_congr c b.engine wide high stones safeBigTerritories
    unsafeBigTerritories isMultiStoneSuicideLegal
  refine ⟨if nonPassAliveStones = true then
      b.addStones (b.bothAreas safeBigTerritories unsafeBigTerritories isMultiStoneSuicideLegal)
    else b.bothAreas safeBigTerritories unsafeBigTerritories isMultiStoneSuicideLegal, _, ?_,
    KataGo.Game.Board.calculateAreaInOrder_eq consistent (.inl rfl) (.inr rfl) _ _ _ _, ?_⟩
  · rw [calculateArea, calculateAreaForPla_eq sound engine (.inl rfl)]
    show (b.calculateAreaForPla .white _ _ _ _ >>= _) = _
    rw [calculateAreaForPla_eq sound engine (.inr rfl)]
    rfl
  have values : ∀ p, (¬ (unsafeBigTerritories = true ∧ Claimed c safeBigTerritories isMultiStoneSuicideLegal p) →
      (if nonPassAliveStones = true then
          b.addStones (b.bothAreas safeBigTerritories unsafeBigTerritories isMultiStoneSuicideLegal)
        else b.bothAreas safeBigTerritories unsafeBigTerritories isMultiStoneSuicideLegal) p =
      (if nonPassAliveStones = true then
          c.markNonPassAliveStones (engineAreas c safeBigTerritories unsafeBigTerritories isMultiStoneSuicideLegal)
        else engineAreas c safeBigTerritories unsafeBigTerritories isMultiStoneSuicideLegal) p) ∧
    (unsafeBigTerritories = true ∧ Claimed c safeBigTerritories isMultiStoneSuicideLegal p →
      (if nonPassAliveStones = true then
          b.addStones (b.bothAreas safeBigTerritories unsafeBigTerritories isMultiStoneSuicideLegal)
        else b.bothAreas safeBigTerritories unsafeBigTerritories isMultiStoneSuicideLegal) p = .white ∧
      (if nonPassAliveStones = true then
          c.markNonPassAliveStones (engineAreas c safeBigTerritories unsafeBigTerritories isMultiStoneSuicideLegal)
        else engineAreas c safeBigTerritories unsafeBigTerritories isMultiStoneSuicideLegal) p = .black) := by
    intro p
    rw [areas, marks, claims]
    cases nonPassAliveStones with
    | true => exact addStones_eq engine p
    | false => exact areas_eq engine p
  constructor
  · intro same loose p claimed
    obtain ⟨white, black⟩ := (values p).2 ⟨loose, claimed⟩
    have point : p ∈ b.locs :=
      KataGo.Game.Board.Owned.mem_locs engine.shape (((claims p).mp claimed).1)
    have both := same p point
    rw [white] at both
    exact Color.noConfusion (both.trans black)
  · intro free p _
    exact (values p).1 fun claimed => free claimed.1 p claimed.2

section Sample

omit [Zobrist]

/-- A dead white shape around a point in the corner, inside Black's living group. -/
def deadShape : List Lockstep.Turn :=
  [⟨.black, some (2, 0)⟩, ⟨.black, some (1, 1)⟩, ⟨.black, some (2, 1)⟩, ⟨.black, some (3, 1)⟩, ⟨.black, some (0, 2)⟩,
    ⟨.black, some (1, 2)⟩, ⟨.black, some (3, 2)⟩, ⟨.white, some (1, 0)⟩, ⟨.white, some (0, 1)⟩]

/-- The corner is White's on the Python side and Black's on the C++ side. -/
theorem calculateArea_ne :
    letI : ZobristStone := ⟨fun _ _ => 0⟩
    letI := Zobrist.blank
    ∃ (c : KataGo.Game.Board) (s : Lockstep.Pair) (result result' : Loc → Color), KataGo.Game.init 4 3 = some c ∧
      (⟨emptyBoard 4 3, c⟩ : Lockstep.Pair).tryMoves deadShape = some s ∧ s.Agree ∧
      s.board.calculateArea false false true true = some result ∧
      s.engine.calculateArea false false true true = some result' ∧
      locOf 4 0 0 ∈ s.board.locs ∧ result (locOf 4 0 0) = .white ∧ result' (locOf 4 0 0) = .black := by
  let _ : ZobristStone := ⟨fun _ _ => 0⟩
  let _ := Zobrist.blank
  obtain ⟨c, start, -⟩ := KataGo.Game.Board.init_consistent 4 3 (by decide) (by decide)
  obtain ⟨s, run, agree⟩ := (Lockstep.Pair.agree_empty (by decide) (by decide) start).tryMoves deadShape
  have python : (KataGo.Game.init 4 3).bind (fun c =>
      ((⟨emptyBoard 4 3, c⟩ : Lockstep.Pair).tryMoves deadShape).bind fun s =>
        (s.board.calculateArea false false true true).map fun result =>
          (result (locOf 4 0 0), decide (locOf 4 0 0 ∈ s.board.locs))) = some (.white, true) := by
    decide +kernel
  have engine : (KataGo.Game.init 4 3).bind (fun c =>
      ((⟨emptyBoard 4 3, c⟩ : Lockstep.Pair).tryMoves deadShape).bind fun s =>
        (s.engine.calculateArea false false true true).map fun result => result (locOf 4 0 0)) = some .black := by
    decide +kernel
  rw [start, Option.bind_some, run, Option.bind_some, Option.map_eq_some_iff] at python engine
  obtain ⟨result, area, white⟩ := python
  obtain ⟨result', area', black⟩ := engine
  obtain ⟨white, point⟩ := Prod.mk.inj white
  exact ⟨c, s, result, result', start, run, agree, area, area', of_decide_eq_true point, white, black⟩

theorem calculateArea_eq_iff_deadShape :
    letI : ZobristStone := ⟨fun _ _ => 0⟩
    letI := Zobrist.blank
    ∃ (c : KataGo.Game.Board) (s : Lockstep.Pair) (result result' : Loc → Color), KataGo.Game.init 4 3 = some c ∧
      (⟨emptyBoard 4 3, c⟩ : Lockstep.Pair).tryMoves deadShape = some s ∧
      s.board.calculateArea true true false true = some result ∧
      s.engine.calculateArea true true false true = some result' ∧ ∀ p ∈ s.board.locs, result p = result' p := by
  let _ : ZobristStone := ⟨fun _ _ => 0⟩
  let _ := Zobrist.blank
  obtain ⟨c, start, -⟩ := KataGo.Game.Board.init_consistent 4 3 (by decide) (by decide)
  obtain ⟨s, run, agree⟩ := (Lockstep.Pair.agree_empty (by decide) (by decide) start).tryMoves deadShape
  obtain ⟨result, result', area, area', same⟩ := calculateArea_eq_iff s.board s.engine true true false true agree.sound
    agree.consistent agree.xSize agree.ySize agree.colors
  exact ⟨c, s, result, result', start, run, area, area', same.mpr fun loose => Bool.noConfusion loose⟩

end Sample

/-- A point of Black's that White claims is in an area that touches no neutral point. -/
theorem Claimed.untouched (consistent : b.engine.Consistent) (claimed : Claimed b.engine true suicide p) :
    ¬ ∃ q, Chain (grid b.xSize) (b.addStones (b.bothAreas true true suicide)) p q ∧
      b.touchesDame (b.addStones (b.bothAreas true true suicide)) q = true := by
  obtain ⟨own, surrounded⟩ := claimed
  have white := ((addStones_eq consistent p).2 ⟨rfl, own, surrounded⟩).1
  obtain ⟨enclosed, territory, stone⟩ : Benson.Enclosed (grid b.xSize) (KataGo.Game.side .black (.inl rfl)) (suicide = true)
      b.board p ∧ (Benson.Small (grid b.xSize) (KataGo.Game.side .black (.inl rfl)) b.board p ∨
        true = true ∧ Benson.Clear (grid b.xSize) (KataGo.Game.side .black (.inl rfl)) b.board p) ∧ ∃ x, b.board x = .black := by
    rcases own with alive | territory
    · exact absurd alive.label (surrounded.2.1 p (Benson.Region.refl p))
    · exact territory
  let region := Benson.Region (grid b.xSize) (KataGo.Game.side .black (.inl rfl)) b.board p
  -- Black's region around the point is his for good, and so are the stones around the region.
  have owned : ∀ a, region a → b.engine.Owned .black (.inl rfl) suicide true a := fun a inside =>
    .inr ⟨enclosed.of_region inside, territory.imp (·.of_region inside) fun both => ⟨rfl, both.2.of_region inside⟩, stone⟩
  have next : ∀ q a, region q → (grid b.xSize).Adj q a → b.board a ≠ .wall →
      region a ∨ b.board a = .black ∧ b.engine.Owned .black (.inl rfl) suicide true a := by
    intro q a inside adjacent point
    by_cases mine : b.board a = .black
    · exact .inr ⟨mine, .inl (enclosed.2 a ⟨mine, q, inside, adjacent⟩)⟩
    · refine .inl (inside.trans (Benson.Region.step (inside.space.mpr enclosed.1) ?_ adjacent))
      cases colour : b.board a with
      | empty => exact .inl colour
      | white => exact .inr colour
      | black => exact absurd colour mine
      | wall => exact absurd colour point
  rintro ⟨q, chain, touching⟩
  have inside : region q := by
    refine (Chain.mem_of_closed (S := fun q => region q ∧ b.addStones (b.bothAreas true true suicide) q = .white)
      ⟨Benson.Region.refl p, white⟩ ?_ chain).1
    rintro x a ⟨within, label⟩ adjacent same
    have still := same.trans label
    have point : b.board a ≠ .wall := by
      intro wall
      have off := (consistent.shape.wall_iff a).mp wall
      have none : b.addStones (b.bothAreas true true suicide) a = .empty := by
        rw [addStones_apply, if_neg fun both => off both.1]
        by_contra colored
        exact off (bothAreas_inside consistent colored)
      rw [none] at still
      cases still
    rcases next x a within adjacent point with there | ⟨mine, own'⟩
    · exact ⟨there, still⟩
    · rw [(bothAreas_of_owned consistent own').2 mine] at still
      cases still
  obtain ⟨a, near, neutral⟩ := List.any_eq_true.mp touching
  obtain ⟨free, unclaimed⟩ := of_decide_eq_true neutral
  rcases next q a inside near (by rw [free]; decide) with there | ⟨mine, -⟩
  · exact (bothAreas_of_owned consistent (owned a there)).1 unclaimed
  · cases free.symm.trans mine

/-- Some stone of the owner of the area of `p` is in atari. -/
def InAtari (c : KataGo.Game.Board) (basicArea : Loc → Color) (p : Loc) : Prop :=
  ∃ q, Chain (grid c.xSize) basicArea p q ∧ c.colors q = basicArea q ∧ c.getNumLiberties q = 1

/-- The area of `p` touches a neutral point. -/
def Touching (c : KataGo.Game.Board) (basicArea : Loc → Color) (p : Loc) : Prop :=
  ∃ q, Chain (grid c.xSize) basicArea p q ∧ ∃ a ∈ c.adj q, c.colors a = .empty ∧ basicArea a = .empty

/-- A result that holds the areas for which a test fails, and what the flags keep. -/
structure Copied (kept fails : Loc → Prop) (basicArea result : Loc → Color) : Prop where
  copies : ∀ p, kept p → result p = basicArea p
  passes : ∀ p, ¬ fails p → result p = basicArea p
  drops : ∀ p, ¬ kept p → fails p → result p = .empty

theorem calculateNonDameTouchingArea_copied {c : KataGo.Game.Board} (sound : b.Sound) (consistent : b.engine.Consistent)
    (wide : c.xSize = b.xSize) (stones : c.colors = b.board) (keepTerritories keepStones suicide : Bool) :
    ∃ marked, b.calculateNonDameTouchingArea keepTerritories keepStones suicide = some marked ∧
      Copied (Kept keepTerritories keepStones c.colors (b.addStones (b.bothAreas true true suicide)))
        (Touching c (b.addStones (b.bothAreas true true suicide))) (b.addStones (b.bothAreas true true suicide)) marked := by
  have inside : ∀ p, b.addStones (b.bothAreas true true suicide) p ≠ .empty → p ∈ b.locs := by
    intro p colored
    by_contra off
    rw [addStones_apply, if_neg fun both => off both.1] at colored
    exact off (bothAreas_inside consistent colored)
  obtain ⟨result, helped, exact⟩ := b.calculateNonDameTouchingAreaHelper_exact inside
  have touching : ∀ p, Touching c (b.addStones (b.bothAreas true true suicide)) p ↔ ∃ q,
      Chain (grid b.xSize) (b.addStones (b.bothAreas true true suicide)) p q ∧
        b.touchesDame (b.addStones (b.bothAreas true true suicide)) q = true := by
    intro p
    unfold Touching touchesDame KataGo.Game.Board.adj adj
    rw [wide, stones]
    simp only [List.any_eq_true, decide_eq_true_eq]
  have keeps := fun p => keeps_apply keepTerritories keepStones b.board result
    (b.keepArea_apply (b.addStones (b.bothAreas true true suicide))) rfl rfl (inside p)
  refine ⟨_, ?_, ⟨fun p kept => (keeps p).1 (stones ▸ kept), fun p free => ?_, fun p lost left => ?_⟩⟩
  · rw [calculateNonDameTouchingArea, calculateAreaForPla_eq sound consistent (.inl rfl)]
    show (b.calculateAreaForPla .white true true suicide _ >>= _) = _
    rw [calculateAreaForPla_eq sound consistent (.inr rfl)]
    show (b.calculateNonDameTouchingAreaHelper (b.addStones (b.bothAreas true true suicide)) >>= _) = _
    rw [helped]
    rfl
  · by_cases kept : Kept keepTerritories keepStones b.board (b.addStones (b.bothAreas true true suicide)) p
    · exact (keeps p).1 kept
    · rw [(keeps p).2 kept]
      exact (exact p).1 fun touched => free ((touching p).mpr touched)
  · rw [(keeps p).2 (stones ▸ lost)]
    exact (exact p).2 ((touching p).mp left)

theorem calculateIndependentLifeArea_copied {c : KataGo.Game.Board} (consistent : c.Consistent)
    (keepTerritories keepStones suicide : Bool) :
    ∃ area count, c.calculateIndependentLifeArea keepTerritories keepStones suicide = some (area, count) ∧
      Copied (Kept keepTerritories keepStones c.colors (engineBasicArea c suicide))
        (fun p => InAtari c (engineBasicArea c suicide) p ∨ Touching c (engineBasicArea c suicide) p) (engineBasicArea c suicide) area := by
  have blank : c.IsArea fun _ => .empty := ⟨fun _ owned => absurd rfl owned, fun _ => Color.noConfusion⟩
  have isArea : c.IsArea (engineBasicArea c suicide) :=
    ((blank.withArea consistent.shape ..).withArea consistent.shape ..).markNonPassAliveStones consistent.shape
  obtain ⟨result, count, helped, exact⟩ :=
    KataGo.Game.Board.calculateIndependentLifeAreaHelper_exact consistent.shape isArea
  have seki : ∀ p, (InAtari c (engineBasicArea c suicide) p ∨ Touching c (engineBasicArea c suicide) p) ↔ ∃ q,
      Chain (grid c.xSize) (engineBasicArea c suicide) p q ∧ c.touchesSeki (engineBasicArea c suicide) q = true := by
    intro p
    unfold InAtari Touching KataGo.Game.Board.touchesSeki
    simp only [List.any_eq_true, decide_eq_true_eq, Bool.or_eq_true, Bool.and_eq_true, and_or_left, exists_or]
  have keeps := fun p => keeps_apply keepTerritories keepStones c.colors result
    (KataGo.Game.Board.keepArea_apply (b := c)) rfl rfl (isArea.inside p)
  refine ⟨_, count, ?_, ⟨fun p kept => (keeps p).1 kept, fun p free => ?_, fun p lost left => ?_⟩⟩
  · rw [KataGo.Game.Board.calculateIndependentLifeArea, KataGo.Game.Board.calculateArea,
      KataGo.Game.Board.calculateAreaInOrder_eq consistent (.inl rfl) (.inr rfl)]
    show (c.calculateIndependentLifeAreaHelper (engineBasicArea c suicide) >>= _) = _
    rw [helped]
    rfl
  · by_cases kept : Kept keepTerritories keepStones c.colors (engineBasicArea c suicide) p
    · exact (keeps p).1 kept
    · rw [(keeps p).2 kept]
      exact (exact p).1 fun touched => free ((seki p).mpr touched)
  · rw [(keeps p).2 lost]
    exact (exact p).2 ((seki p).mp left)

/-- Both sides mark the same areas exactly when White claims nothing that is Black's for good, and
the flags keep every area with a stone in atari that touches no neutral point. -/
theorem calculateNonDameTouchingArea_eq_iff (b : Board) (c : KataGo.Game.Board)
    (keepTerritories keepStones isMultiStoneSuicideLegal : Bool) (sound : b.Sound) (consistent : c.Consistent)
    (wide : c.xSize = b.xSize) (high : c.ySize = b.ySize) (stones : c.colors = b.board) :
    ∃ marked area count,
      b.calculateNonDameTouchingArea keepTerritories keepStones isMultiStoneSuicideLegal = some marked ∧
      c.calculateIndependentLifeArea keepTerritories keepStones isMultiStoneSuicideLegal = some (area, count) ∧
      (marked = area ↔ (∀ p, ¬ Claimed c true isMultiStoneSuicideLegal p) ∧
        ∀ p, engineBasicArea c isMultiStoneSuicideLegal p ≠ .empty → InAtari c (engineBasicArea c isMultiStoneSuicideLegal) p →
          ¬ Touching c (engineBasicArea c isMultiStoneSuicideLegal) p →
            Kept keepTerritories keepStones c.colors (engineBasicArea c isMultiStoneSuicideLegal) p) := by
  have engine : b.engine.Consistent := sound.engine (wide ▸ consistent.wide.2) (high ▸ consistent.high.2)
  obtain ⟨marked, run, copied⟩ := calculateNonDameTouchingArea_copied sound engine wide stones keepTerritories
    keepStones isMultiStoneSuicideLegal
  obtain ⟨area, count, run', copied'⟩ := calculateIndependentLifeArea_copied consistent keepTerritories
    keepStones isMultiStoneSuicideLegal
  refine ⟨marked, area, count, run, run', ?_⟩
  obtain ⟨same, claimed_iff, marks⟩ := @engineAreas_congr c b.engine wide high stones true true
    isMultiStoneSuicideLegal
  have areas : engineBasicArea c isMultiStoneSuicideLegal = engineBasicArea b.engine isMultiStoneSuicideLegal := by
    unfold engineBasicArea
    rw [same, marks]
  constructor
  · rintro rfl
    have free : ∀ p, ¬ Claimed c true isMultiStoneSuicideLegal p := by
      intro p claimed
      have claimed := (claimed_iff p).mp claimed
      obtain ⟨white, black⟩ := (addStones_eq engine p).2 ⟨rfl, claimed⟩
      have untouched : ¬ Touching c (b.addStones (b.bothAreas true true isMultiStoneSuicideLegal)) p := by
        rintro ⟨q, chain, a, near, neutral⟩
        rw [wide] at chain
        rw [stones] at neutral
        refine claimed.untouched engine ⟨q, chain, List.any_eq_true.mpr ⟨a, ?_, decide_eq_true neutral⟩⟩
        rw [KataGo.Game.Board.adj, wide] at near
        exact near
      have mine := (copied.passes p untouched).trans white
      by_cases kept : Kept keepTerritories keepStones c.colors (engineBasicArea c isMultiStoneSuicideLegal) p
      · have theirs := copied'.copies p kept
        rw [mine, areas] at theirs
        exact Color.noConfusion (theirs.trans black)
      · by_cases seki : InAtari c (engineBasicArea c isMultiStoneSuicideLegal) p ∨
            Touching c (engineBasicArea c isMultiStoneSuicideLegal) p
        · cases mine.symm.trans (copied'.drops p kept seki)
        · have theirs := copied'.passes p seki
          rw [mine, areas] at theirs
          exact Color.noConfusion (theirs.trans black)
    refine ⟨free, fun p colored atari untouched => ?_⟩
    have same : b.addStones (b.bothAreas true true isMultiStoneSuicideLegal) = engineBasicArea c isMultiStoneSuicideLegal := by
      rw [areas]
      exact funext fun p => (addStones_eq engine p).1 fun claimed => free p ((claimed_iff p).mpr claimed.2)
    rw [same] at copied
    by_contra lost
    exact colored ((copied.passes p untouched).symm.trans (copied'.drops p lost (.inl atari)))
  · rintro ⟨free, kept⟩
    have same : b.addStones (b.bothAreas true true isMultiStoneSuicideLegal) = engineBasicArea c isMultiStoneSuicideLegal := by
      rw [areas]
      exact funext fun p => (addStones_eq engine p).1 fun claimed => free p ((claimed_iff p).mpr claimed.2)
    rw [same] at copied
    funext p
    by_cases keeps : Kept keepTerritories keepStones c.colors (engineBasicArea c isMultiStoneSuicideLegal) p
    · exact (copied.copies p keeps).trans (copied'.copies p keeps).symm
    · by_cases touching : Touching c (engineBasicArea c isMultiStoneSuicideLegal) p
      · exact (copied.drops p keeps touching).trans (copied'.drops p keeps (.inr touching)).symm
      · refine (copied.passes p touching).trans ?_
        by_cases atari : InAtari c (engineBasicArea c isMultiStoneSuicideLegal) p
        · by_cases colored : engineBasicArea c isMultiStoneSuicideLegal p = .empty
          · exact colored.trans (copied'.drops p keeps (.inl atari)).symm
          · exact absurd (kept p colored atari touching) keeps
        · exact (copied'.passes p (by simp [atari, touching])).symm

omit [Zobrist] in
/-- Three points of four: Black's only stones are in atari and touch no neutral point, so that the Python
side marks all the board and the C++ side marks nothing. -/
theorem calculateNonDameTouchingArea_ne :
    letI : ZobristStone := ⟨fun _ _ => 0⟩
    letI := Zobrist.blank
    ∃ (c : KataGo.Game.Board) (s : Lockstep.Pair) (marked area : Loc → Color) (count : Int),
      KataGo.Game.init 2 2 = some c ∧ (⟨emptyBoard 2 2, c⟩ : Lockstep.Pair).tryMoves
        [⟨.black, some (0, 0)⟩, ⟨.black, some (1, 0)⟩, ⟨.black, some (0, 1)⟩] = some s ∧ s.Agree ∧
      s.board.calculateNonDameTouchingArea false false true = some marked ∧
      s.engine.calculateIndependentLifeArea false false true = some (area, count) ∧ marked ≠ area := by
  let _ : ZobristStone := ⟨fun _ _ => 0⟩
  let _ := Zobrist.blank
  obtain ⟨c, start, -⟩ := KataGo.Game.Board.init_consistent 2 2 (by decide) (by decide)
  obtain ⟨s, run, agree⟩ := (Lockstep.Pair.agree_empty (by decide) (by decide) start).tryMoves
    [⟨.black, some (0, 0)⟩, ⟨.black, some (1, 0)⟩, ⟨.black, some (0, 1)⟩]
  have python : (KataGo.Game.init 2 2).bind (fun c => ((⟨emptyBoard 2 2, c⟩ : Lockstep.Pair).tryMoves
      [⟨.black, some (0, 0)⟩, ⟨.black, some (1, 0)⟩, ⟨.black, some (0, 1)⟩]).bind fun s =>
        (s.board.calculateNonDameTouchingArea false false true).map fun marked => marked 4) = some .black := by
    decide +kernel
  have engine : (KataGo.Game.init 2 2).bind (fun c => ((⟨emptyBoard 2 2, c⟩ : Lockstep.Pair).tryMoves
      [⟨.black, some (0, 0)⟩, ⟨.black, some (1, 0)⟩, ⟨.black, some (0, 1)⟩]).bind fun s =>
        (s.engine.calculateIndependentLifeArea false false true).map fun area => area.1 4) = some .empty := by
    decide +kernel
  rw [start, Option.bind_some, run, Option.bind_some, Option.map_eq_some_iff] at python engine
  obtain ⟨marked, marks, black⟩ := python
  obtain ⟨⟨area, count⟩, areas, empty⟩ := engine
  refine ⟨c, s, marked, area, count, start, run, agree, marks, areas, ?_⟩
  rintro rfl
  cases black.symm.trans empty

omit [Zobrist] in
theorem calculateNonDameTouchingArea_eq_iff_three :
    letI : ZobristStone := ⟨fun _ _ => 0⟩
    letI := Zobrist.blank
    ∃ (c : KataGo.Game.Board) (s : Lockstep.Pair) (marked area : Loc → Color) (count : Int),
      KataGo.Game.init 2 2 = some c ∧ (⟨emptyBoard 2 2, c⟩ : Lockstep.Pair).tryMoves
        [⟨.black, some (0, 0)⟩, ⟨.black, some (1, 0)⟩, ⟨.black, some (0, 1)⟩] = some s ∧
      s.board.calculateNonDameTouchingArea false false true = some marked ∧
      s.engine.calculateIndependentLifeArea false false true = some (area, count) ∧
      (marked = area ↔ (∀ p, ¬ Claimed s.engine true true p) ∧ ∀ p, engineBasicArea s.engine true p ≠ .empty →
        InAtari s.engine (engineBasicArea s.engine true) p → ¬ Touching s.engine (engineBasicArea s.engine true) p →
          Kept false false s.engine.colors (engineBasicArea s.engine true) p) := by
  let _ : ZobristStone := ⟨fun _ _ => 0⟩
  let _ := Zobrist.blank
  obtain ⟨c, start, -⟩ := KataGo.Game.Board.init_consistent 2 2 (by decide) (by decide)
  obtain ⟨s, run, agree⟩ := (Lockstep.Pair.agree_empty (by decide) (by decide) start).tryMoves
    [⟨.black, some (0, 0)⟩, ⟨.black, some (1, 0)⟩, ⟨.black, some (0, 1)⟩]
  obtain ⟨marked, area, count, marks, areas, same⟩ := calculateNonDameTouchingArea_eq_iff s.board s.engine false false
    true agree.sound agree.consistent agree.xSize agree.ySize agree.colors
  exact ⟨c, s, marked, area, count, start, run, marks, areas, same⟩

end Areas

end Board
end KataGo.Python
