import KataGo.Game.AreaLife
import KataGo.Lib.Loops

/-! What area scoring marks, in terms of the colours alone. -/

namespace KataGo.Game
open KataGo.Lib CircularList Labelling
open scoped Classical

namespace Board

variable [Zobrist] {b : Board} {pla : Player} {player : pla.IsStone} {suicide safe loose : Bool} {scan : RegionScan}
  {s : Elimination} {x : Loc} {result : Loc → Color}

/-- What belongs to a player for good. -/
def Owned (b : Board) (pla : Player) (player : pla.IsStone) (suicide safe : Bool) (x : Loc) : Prop :=
  Benson.Owned (grid b.xSize) (side pla player) (suicide = true) b.colors (safe = true) x

/-- What a player surrounds as things stand. -/
def Surrounded (b : Board) (pla : Player) (player : pla.IsStone) (x : Loc) : Prop :=
  Benson.Surrounded (grid b.xSize) (side pla player) b.colors x

/-- The result with the area of one player added. -/
noncomputable def withArea (b : Board) (pla : Player) (player : pla.IsStone) (safe loose suicide : Bool)
    (result : Loc → Color) (x : Loc) : Color :=
  if b.Owned pla player suicide safe x then pla
  else if loose = true ∧ b.Surrounded pla player x ∧ result x = .empty then pla
  else result x

/-- Living stones are marked. -/
theorem markAlive_spec (consistent : b.Consistent) (scanned : b.Scanned pla player suicide b.locs scan)
    (eliminating : b.Eliminating pla player suicide scan s)
    (final : ∀ h ∈ b.allPlaHeads pla, s.plaHasBeenKilled h = true ∨ 2 ≤ s.vitalCountByPlaHead h)
    (result : Loc → Color) :
    (b.allPlaHeads pla).foldlM (b.markAlive pla s) result =
      some fun x => if b.PassAlive pla player suicide x then pla else result x := by
  have loop : ∀ (rest : List Loc) (result : Loc → Color), (∀ h ∈ rest, h ∈ b.allPlaHeads pla) →
      rest.foldlM (b.markAlive pla s) result =
        some fun x => if b.chainHead x ∈ rest ∧ b.PassAlive pla player suicide x then pla else result x := by
    intro rest
    induction rest with
    | nil =>
      intro result _
      simp
    | cons h rest ih =>
      intro result heads
      obtain ⟨mine, self⟩ := (mem_allPlaHeads consistent.shape player).mp (heads h List.mem_cons_self)
      have stone : (b.colors h).IsStone := by
        rw [mine]
        exact player
      have later := fun x member => heads x (List.mem_cons_of_mem h member)
      have step : b.markAlive pla s result h =
          some fun x => if b.chainHead x = h ∧ b.PassAlive pla player suicide x then pla else result x := by
        have chain : ∀ x, b.InChain h x → b.colors x = pla := fun x inside =>
          ((consistent.inChain_iff stone).mp (self.symm ▸ inside)).label.trans mine
        unfold markAlive
        by_cases killed : s.plaHasBeenKilled h = true
        · rw [if_pos killed]
          congr 1
          funext x
          refine (if_neg ?_).symm
          rintro ⟨rfl, alive⟩
          cases killed.symm.trans ((eliminating.passAlive consistent scanned final alive.label).mpr alive)
        · have ok := consistent.regular.chainOk stone
          rw [self] at ok
          obtain ⟨t, walked, ring, -⟩ := ok.chainLocs consistent.shape ⟨stone, self⟩
          rw [if_neg killed, walked]
          refine congrArg some (funext fun x => ?_)
          rw [foldl_update_apply]
          refine if_congr ((ring.mem x).trans ⟨fun inside => ⟨inside.2, ?_⟩, ?_⟩) rfl rfl
          · refine (eliminating.passAlive consistent scanned final (chain x inside)).mp ?_
            rw [inside.2]
            exact Bool.eq_false_iff.mpr killed
          · rintro ⟨head, alive⟩
            have label : b.colors x = pla := alive.label
            refine ⟨?_, head⟩
            rw [label]
            exact player
      rw [List.foldlM_cons, step]
      show rest.foldlM _ _ = _
      rw [ih _ later]
      congr 1
      funext x
      by_cases here : b.chainHead x = h
      · by_cases alive : b.PassAlive pla player suicide x
        · simp [here, alive]
        · simp [alive]
      · simp [here]
  rw [loop (b.allPlaHeads pla) result fun h member => member]
  congr 1
  funext x
  have head : b.PassAlive pla player suicide x → b.chainHead x ∈ b.allPlaHeads pla := by
    intro alive
    have mine : b.colors x = pla := alive.label
    have stone : (b.colors x).IsStone := by
      rw [mine]
      exact player
    have headChain : Chain (grid b.xSize) b.colors x (b.chainHead x) := consistent.head x stone
    rw [mem_allPlaHeads consistent.shape player]
    exact ⟨headChain.label.trans mine, consistent.shared x _ stone headChain⟩
  by_cases alive : b.PassAlive pla player suicide x
  · simp [alive, head alive]
  · simp [alive]

/-- What becomes of a point of a region. -/
def regionMark (pla : Player) (safe loose : Bool) (scan : RegionScan) (s : Elimination) (region : Region)
    (color : Color) : Color :=
  let bordersAlive := !s.bordersNonPassAlivePlaByHead region.head && scan.atLeastOnePla
  if (decide (region.numInternalSpacesMax2 ≤ 1) && bordersAlive) || (safe && !region.containsOpp && bordersAlive) then pla
  else if (loose && !region.containsOpp && scan.atLeastOnePla) ∧ color = .empty then pla
  else color

omit [Zobrist] in
theorem foldl_updateIfEmpty (l : List Loc) (result : Loc → Color) (nodup : l.Nodup) (x : Loc) :
    l.foldl (fun result cur => if result cur = .empty then Function.update result cur pla else result) result x =
      if x ∈ l ∧ result x = .empty then pla else result x := by
  induction l generalizing result with
  | nil => simp
  | cons cur l ih =>
    rw [List.foldl_cons, ih _ (List.nodup_cons.mp nodup).2]
    have absent := (List.nodup_cons.mp nodup).1
    by_cases here : x = cur
    · subst here
      by_cases blank : result x = .empty
      · simp [blank, absent]
      · simp [blank]
    · by_cases blank : result cur = .empty
      · simp [blank, here]
      · simp [blank, here]

omit [Zobrist] in
/-- The points of a region are marked, and no others. -/
theorem markRegion_spec (safe loose : Bool) (s : Elimination) (shape : b.Shape)
    (scanned : b.Scanned pla player suicide b.locs scan) {region : Region} (member : region ∈ scan.regions)
    (result : Loc → Color) :
    markRegion pla safe loose scan s result region =
      some fun x => if b.SameRegion pla player region.head x then regionMark pla safe loose scan s region (result x)
        else result x := by
  have ok := scanned.regions region member
  obtain ⟨l, nodup, mem, linked⟩ := ok.points
  have bound : l.length ≤ maxArrSize := by
    calc l.length = l.toFinset.card := (List.toFinset_card_of_nodup nodup).symm
      _ ≤ b.locs.toFinset.card := by
        refine Finset.card_le_card fun x inside => List.mem_toFinset.mpr (shape.mem_locs ?_)
        refine isEmptyOrOpp_ne_wall player ((isEmptyOrOpp_iff player).mpr ?_)
        exact ((mem x).mp (List.mem_toFinset.mp inside)).space.mpr (.inl ok.head)
      _ ≤ maxArrSize := card_boardLocs_le shape.wide.2 shape.high.2
  obtain ⟨t, walked, rotated⟩ := walk_of_linked linked nodup ((mem region.head).mpr (Benson.Region.refl _)) bound
  have points : ∀ x, x ∈ region.head :: t ↔ b.SameRegion pla player region.head x := fun x =>
    rotated.mem_iff.symm.trans (mem x)
  have distinct : (region.head :: t).Nodup := rotated.nodup_iff.mp nodup
  unfold markRegion regionMark
  simp only [walked, Option.bind_eq_bind, Option.bind_some]
  split_ifs with sure unsure
  · refine congrArg some (funext fun x => ?_)
    rw [foldl_update_apply]
    exact if_congr (points x) rfl rfl
  · refine congrArg some (funext fun x => ?_)
    rw [foldl_updateIfEmpty _ _ distinct]
    simp only [points x]
    by_cases inside : b.SameRegion pla player region.head x
    · simp [inside, unsure]
    · simp [inside]
  · refine congrArg some (funext fun x => ?_)
    simp [unsure]

omit [Zobrist] in
theorem Scanned.pairwise (scanned : b.Scanned pla player suicide b.locs scan) :
    scan.regions.Pairwise fun r r' => ¬ b.SameRegion pla player r.head r'.head := by
  rw [List.pairwise_iff_getElem]
  intro i j boundI boundJ less same
  have equal := scanned.index_unique (List.getElem?_eq_getElem boundI) (List.getElem?_eq_getElem boundJ) same
  omega

omit [Zobrist] in
/-- All regions are marked, each as if it were the only one. -/
theorem markRegions_spec (safe loose : Bool) (s : Elimination) (shape : b.Shape) (scanned : b.Scanned pla player suicide b.locs scan)
    (result : Loc → Color) :
    ∃ result', scan.regions.foldlM (markRegion pla safe loose scan s) result = some result' ∧
      (∀ region ∈ scan.regions, ∀ x, b.SameRegion pla player region.head x →
        result' x = regionMark pla safe loose scan s region (result x)) ∧
      ∀ x, (∀ region ∈ scan.regions, ¬ b.SameRegion pla player region.head x) → result' x = result x := by
  have loop : ∀ (rest : List Region) (result : Loc → Color), (∀ region ∈ rest, region ∈ scan.regions) →
      rest.Pairwise (fun r r' => ¬ b.SameRegion pla player r.head r'.head) →
      ∃ result', rest.foldlM (markRegion pla safe loose scan s) result = some result' ∧
        (∀ region ∈ rest, ∀ x, b.SameRegion pla player region.head x →
          result' x = regionMark pla safe loose scan s region (result x)) ∧
        ∀ x, (∀ region ∈ rest, ¬ b.SameRegion pla player region.head x) → result' x = result x := by
    intro rest
    induction rest with
    | nil =>
      intro result _ _
      exact ⟨result, rfl, by simp, by simp⟩
    | cons region rest ih =>
      intro result members apart
      rw [List.pairwise_cons] at apart
      have step := markRegion_spec safe loose s shape scanned (members region List.mem_cons_self) result
      obtain ⟨result', steps, inside, outside⟩ := ih
        (fun x => if b.SameRegion pla player region.head x then regionMark pla safe loose scan s region (result x)
          else result x) (fun r member => members r (List.mem_cons_of_mem _ member)) apart.2
      refine ⟨result', ?_, ?_, ?_⟩
      · rw [List.foldlM_cons, step]
        exact steps
      · intro r member x there
        rcases List.mem_cons.mp member with rfl | later
        · rw [outside x fun r' member' there' => apart.1 r' member' (there.trans there'.symm)]
          exact if_pos there
        · rw [inside r later x there]
          rw [if_neg fun here => apart.1 r later (here.trans there.symm)]
      · intro x none
        rw [outside x fun r member => none r (List.mem_cons_of_mem _ member)]
        exact if_neg (none region List.mem_cons_self)
  exact loop scan.regions result (fun region member => member) scanned.pairwise

omit [Zobrist] in
theorem exists_pla_iff (shape : b.Shape) (player : pla.IsStone) :
    (∃ x ∈ b.locs, b.colors x = pla) ↔ ∃ x, b.colors x = pla := by
  constructor
  · rintro ⟨x, -, mine⟩
    exact ⟨x, mine⟩
  · rintro ⟨x, mine⟩
    exact ⟨x, shape.mem_locs (by rw [mine]; exact player.ne_wall), mine⟩

/-- The mark of a region, in terms of the colours. -/
theorem regionMark_eq (consistent : b.Consistent) (scanned : b.Scanned pla player suicide b.locs scan)
    (eliminating : b.Eliminating pla player suicide scan s)
    (final : ∀ h ∈ b.allPlaHeads pla, s.plaHasBeenKilled h = true ∨ 2 ≤ s.vitalCountByPlaHead h) {region : Region}
    (member : region ∈ scan.regions) (inside : b.SameRegion pla player region.head x) :
    regionMark pla safe loose scan s region (result x) = b.withArea pla player safe loose suicide result x := by
  have ok := scanned.regions region member
  have space : Benson.Space (side pla player) b.colors x := inside.space.mpr (.inl ok.head)
  have notMine : b.colors x ≠ pla := by
    rcases space with free | theirs
    · rw [free]
      exact player.ne_empty.symm
    · rw [theirs]
      exact player.opp_ne
  have stones : scan.atLeastOnePla = true ↔ ∃ x, b.colors x = pla :=
    scanned.pla.trans (exists_pla_iff consistent.shape player)
  have enclosed : s.bordersNonPassAlivePlaByHead region.head = false ↔
      Benson.Enclosed (grid b.xSize) (side pla player) (suicide = true) b.colors x :=
    (eliminating.enclosed consistent scanned final member).trans
      ⟨fun all => all.of_region inside, fun all => all.of_region inside.symm⟩
  have small : region.numInternalSpacesMax2 ≤ 1 ↔ Benson.Small (grid b.xSize) (side pla player) b.colors x :=
    ok.small.trans ⟨fun few => few.of_region inside, fun few => few.of_region inside.symm⟩
  have clear : region.containsOpp = false ↔ Benson.Clear (grid b.xSize) (side pla player) b.colors x :=
    ok.clear.trans ⟨fun none => none.of_region inside, fun none => none.of_region inside.symm⟩
  unfold regionMark withArea
  refine if_congr ?_ rfl (if_congr ?_ rfl rfl)
  · simp only [Bool.or_eq_true, Bool.and_eq_true, decide_eq_true_eq, Bool.not_eq_true', stones, enclosed, small, clear]
    constructor
    · rintro (⟨few, all, stone⟩ | ⟨⟨allowed, none⟩, all, stone⟩)
      · exact .inr ⟨all, .inl few, stone⟩
      · exact .inr ⟨all, .inr ⟨allowed, none⟩, stone⟩
    · rintro (alive | ⟨all, few | ⟨allowed, none⟩, stone⟩)
      · exact absurd alive.label notMine
      · exact .inl ⟨few, all, stone⟩
      · exact .inr ⟨⟨allowed, none⟩, all, stone⟩
  · simp only [Bool.and_eq_true, Bool.not_eq_true', stones, clear]
    constructor
    · rintro ⟨⟨⟨allowed, none⟩, stone⟩, blank⟩
      exact ⟨allowed, ⟨space, none, stone⟩, blank⟩
    · rintro ⟨allowed, ⟨-, none, stone⟩, blank⟩
      exact ⟨⟨⟨allowed, none⟩, stone⟩, blank⟩

/-- Area scoring for one player adds his area to the result. -/
theorem calculateAreaForPla_eq (consistent : b.Consistent) (player : pla.IsStone) (safe loose suicide : Bool)
    (result : Loc → Color) : b.calculateAreaForPla pla safe loose suicide result =
      some (b.withArea pla player safe loose suicide result) := by
  obtain ⟨scan, found, scanned⟩ := findRegions_spec consistent player suicide
  obtain ⟨s, eliminated, eliminating, final⟩ := elimination_spec consistent scanned
  obtain ⟨marked, marks, inside, outside⟩ := markRegions_spec safe loose s consistent.shape
    scanned fun x => if b.PassAlive pla player suicide x then pla else result x
  rw [calculateAreaForPla, found]
  show (b.eliminate pla scan maxArrSize (startElimination scan) >>= _) = _
  rw [eliminated]
  show ((b.allPlaHeads pla).foldlM (b.markAlive pla s) result >>= _) = _
  rw [markAlive_spec consistent scanned eliminating final]
  show scan.regions.foldlM _ _ = _
  rw [marks]
  refine congrArg some (funext fun x => ?_)
  by_cases space : Benson.Space (side pla player) b.colors x
  · obtain ⟨i, region, at_, -, there⟩ := scanned.exists_region consistent space
    have member := List.mem_of_getElem? at_
    rw [inside region member x there, ← regionMark_eq consistent scanned eliminating final member there]
    rw [if_neg]
    intro alive
    have mine : b.colors x = pla := alive.label
    rcases space with free | theirs
    · exact player.ne_empty (mine.symm.trans free)
    · exact player.opp_ne (theirs.symm.trans mine)
  · rw [outside x]
    · unfold withArea
      refine if_congr ⟨.inl, ?_⟩ rfl (if_neg ?_).symm
      · rintro (alive | ⟨enclosed, -⟩)
        · exact alive
        · exact absurd enclosed.1 space
      · rintro ⟨-, surrounded, -⟩
        exact space surrounded.1
    · intro region member there
      exact space (there.space.mpr (.inl (scanned.regions region member).head))

omit [Zobrist] in
theorem markNonPassAliveStones_apply (b : Board) (result : Loc → Color) (p : Loc) :
    b.markNonPassAliveStones result p = if p ∈ b.locs ∧ result p = .empty then b.colors p else result p := by
  have loop := foldl_write_apply (fun _ color => decide (color = Color.empty)) (fun loc _ => b.colors loc)
    (boardLocs_nodup b.xSize b.ySize) result p
  simp only [decide_eq_true_eq] at loop
  exact loop

end Board
end KataGo.Game
