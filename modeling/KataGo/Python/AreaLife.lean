import KataGo.Game.AreaScore
import KataGo.Python.Area
import KataGo.Python.Placement

/-! What area scoring marks on the Python board. The regions and the groups that it eliminates are those of a
C++ board with the same arrays. -/

namespace KataGo.Python
open KataGo.Lib CircularList Labelling
open KataGo.Game (Color Player getOpp Loc Zobrist Region RegionBuild grid side nullLoc maxLen)
open KataGo.Game.Board (Scanned Eliminating RegionOk SameRegion regionHeadOf vitalRegions)

namespace Board

/-- The arrays of the board, as those of a C++ board. -/
def engine [Zobrist] (b : Board) : KataGo.Game.Board where
  xSize := b.xSize
  ySize := b.ySize
  colors := b.board
  chainData := fun h => ⟨b.board h, b.groupStoneCount h, b.groupLibertyCount h⟩
  chainHead := b.groupHead
  nextInChain := b.groupNext
  koLoc := nullLoc
  posHash := KataGo.Game.positionHash b.xSize b.ySize b.board
  numBlackCaptures := 0
  numWhiteCaptures := 0

variable [Zobrist] {b : Board} {pla : Player} {player : pla.IsStone} {suicide safe loose : Bool} {h p x y loc : Loc}
  {scan : RegionScan} {scan' : KataGo.Game.RegionScan} {s s' : Elimination} {result : Loc → Color}

theorem Sound.engine (sound : b.Sound) (wide : b.xSize ≤ maxLen) (high : b.ySize ≤ maxLen) : b.engine.Consistent := by
  have regular := sound.regular
  have booked := regular.booked
  have size := fun p stone => regular.libertyCount (p := p) stone
  have shape := booked.shape
  refine ⟨⟨by have := shape.wide; show 1 ≤ b.xSize; omega, wide⟩, ⟨by have := shape.high; show 1 ≤ b.ySize; omega, high⟩,
    booked.shape.wall_iff, fun p stone => ?_, fun p stone => ?_, fun p q stone inside => ?_, fun p stone => ?_,
    fun p stone => regular.stoneCount stone, size, fun p stone => ?_, rfl⟩
  · obtain ⟨l, ring, -⟩ := (booked.group p stone).ring
    exact ⟨l, ring.nodup, fun q => (ring.mem q).trans (regular.component p q stone), ring.ringed.forward⟩
  · exact (regular.component p _ stone).1 (booked.group p stone).self
  · exact (regular.component p q stone).2 inside
  · exact ((booked.group p stone).colour p rfl).symm
  · have count := regular.libertyCount_eq_zero_iff stone
    have free := sound.alive p stone
    have number := size p stone
    change 1 ≤ b.libertyCount p
    have positive : b.libertyCount p ≠ 0 := fun zero => count.1 zero free
    omega

section Regions

theorem addToRegion_engine (b : Board) (pla : Player) (suicide : Bool) :
    b.addToRegion pla suicide = b.engine.addToRegion pla suicide := by
  funext region loc
  unfold addToRegion KataGo.Game.Board.addToRegion
  congr 1
  · unfold KataGo.Game.Board.filterVital
    by_cases counts : suicide = true ∨ b.board loc = .empty
    · rw [if_pos counts]
      by_cases none : region.vitalForPlaHeads = []
      · rw [none, if_neg fun both => both.1 rfl]
        rfl
      · rw [if_pos ⟨none, counts⟩]
        rfl
    · rw [if_neg counts, if_neg fun both => counts both.2]
  · by_cases few : region.numInternalSpacesMax2 < 2
    · rw [if_pos few]
      by_cases near : (b.adj loc).any (fun a => decide (b.board a = pla)) = true
      · rw [if_pos near]
        exact (if_neg fun both => both.2 near).symm
      · rw [if_neg near]
        exact (if_pos ⟨few, near⟩).symm
    · rw [if_neg few]
      exact (if_neg fun both => few both.1).symm

theorem visitRegion_engine (b : Board) (pla : Player) (suicide : Bool) :
    b.visitRegion pla suicide = b.engine.visitRegion pla suicide := by
  funext s loc
  unfold visitRegion KataGo.Game.Board.visitRegion
  rw [addToRegion_engine]

/-- The C++ scan has found the same regions; it labels points by the index of their region instead of by its head. -/
structure Mirrors (scan : RegionScan) (scan' : KataGo.Game.RegionScan) : Prop where
  labels : ∀ x, scan.regionHeadByLoc x = (scan'.regionIdxByLoc x).map (regionHeadOf scan')
  next : scan.nextEmptyOrOpp = scan'.nextEmptyOrOpp
  regions : scan.regions = scan'.regions
  pla : scan.atLeastOnePla = scan'.atLeastOnePla

omit [Zobrist] in
theorem Mirrors.unlabelled (mirrors : Mirrors scan scan') :
    scan.regionHeadByLoc x = none ↔ scan'.regionIdxByLoc x = none := by
  rw [mirrors.labels, Option.map_eq_none_iff]

theorem Mirrors.buildRegion (consistent : b.engine.Consistent) {seen : List Loc} (mirrors : Mirrors scan scan')
    (scanned : Scanned b.engine pla player suicide seen scan') (free : b.board loc = .empty)
    (fresh : scan.regionHeadByLoc loc = none) :
    ∃ s s', b.buildRegion pla suicide scan loc = some s ∧ Mirrors s s' ∧
      Scanned b.engine pla player suicide (seen ++ [loc]) s' := by
  have space : b.engine.isEmptyOrOpp pla loc = true := (KataGo.Game.Board.isEmptyOrOpp_iff player).mpr (.inl free)
  have inside : ∀ a, b.engine.isEmptyOrOpp pla a = true → a ∈ b.locs.toFinset := by
    intro a point
    exact List.mem_toFinset.mpr (consistent.shape.mem_locs (KataGo.Game.Board.isEmptyOrOpp_ne_wall player point))
  have enough : b.locs.toFinset.card < b.arrsize + 1 := Nat.lt_succ_of_le b.card_locs_le
  obtain ⟨l, found, nodup, mem⟩ : ∃ l, DepthFirst.trace b.adj (b.isEmptyOrOpp pla) loc (b.visitRegion pla suicide)
      (b.arrsize + 1) ⟨scan.regionHeadByLoc, ⟨scan.nextEmptyOrOpp, loc, ⟨loc, b.adjacentPlaHeads pla loc, 0, false⟩⟩⟩ loc =
        some _ ∧ _ :=
    DepthFirst.trace_spec space fresh inside enough
  have fresh' := mirrors.unlabelled.mp fresh
  have members : ∀ x, x ∈ loc :: l ↔ SameRegion b.engine pla player loc x := fun x =>
    (mem x).trans (KataGo.Game.Board.reach_iff player space fresh fun x y labelled same none =>
      scanned.closed (fun none' => labelled (mirrors.unlabelled.mpr none')) same (mirrors.unlabelled.mp none))
  rw [visitRegion_engine, KataGo.Game.Board.foldl_visitRegion] at found
  rw [Board.buildRegion, visitRegion_engine, found]
  have added := scanned.addRegion consistent free fresh' nodup members
  refine ⟨_, _, rfl, ?_, added⟩
  refine ⟨fun x => ?_, ?_, ?_, mirrors.pla⟩
  · show (if x ∈ loc :: l then some loc else scan.regionHeadByLoc x) =
      (if x ∈ loc :: l then some scan'.regions.length else scan'.regionIdxByLoc x).map _
    by_cases member : x ∈ loc :: l
    · rw [if_pos member, if_pos member, Option.map_some]
      refine congrArg some ?_
      rw [regionHeadOf, List.getElem?_concat_length]
      exact (b.engine.foldl_head pla suicide (loc :: l) ⟨loc, b.adjacentPlaHeads pla loc, 0, false⟩).symm
    · rw [if_neg member, if_neg member, mirrors.labels]
      cases label : scan'.regionIdxByLoc x with
      | none => rfl
      | some i =>
        obtain ⟨region, found', -⟩ := (scanned.labels x i).mp label
        refine congrArg some ?_
        rw [regionHeadOf, regionHeadOf, List.getElem?_append_left (List.getElem?_eq_some_iff.mp found').1]
  · rw [mirrors.next]
  · rw [mirrors.regions]
    rfl

theorem Mirrors.scanLoc (consistent : b.engine.Consistent) {seen : List Loc} (mirrors : Mirrors scan scan')
    (scanned : Scanned b.engine pla player suicide seen scan') (loc : Loc) :
    ∃ s s', b.scanLoc pla suicide scan loc = some s ∧ Mirrors s s' ∧
      Scanned b.engine pla player suicide (seen ++ [loc]) s' := by
  unfold Board.scanLoc
  by_cases labelled : scan.regionHeadByLoc loc = none
  · rw [if_neg (not_not.mpr labelled)]
    by_cases free : b.board loc = .empty
    · rw [if_neg (not_not.mpr free)]
      exact mirrors.buildRegion consistent scanned free labelled
    · rw [if_pos free]
      have added := scanned.addStone free
      refine ⟨_, _, rfl, ?_, added⟩
      exact ⟨mirrors.labels, mirrors.next, mirrors.regions, congrArg (· || decide (b.board loc = pla)) mirrors.pla⟩
  · rw [if_pos labelled]
    exact ⟨_, _, rfl, mirrors, scanned.addLabelled fun none => labelled (mirrors.unlabelled.mpr none)⟩

/-- The scan finds all regions. -/
theorem findRegions_mirrors (consistent : b.engine.Consistent) (player : pla.IsStone) (suicide : Bool) :
    ∃ scan scan', b.findRegions pla suicide = some scan ∧ Mirrors scan scan' ∧
      Scanned b.engine pla player suicide b.locs scan' := by
  have start : Scanned b.engine pla player suicide [] ⟨fun _ => none, fun _ => passLoc, [], false⟩ :=
    ⟨by simp, by simp, by simp, by simp⟩
  have empty : Mirrors ⟨fun _ => none, fun _ => passLoc, [], false⟩ ⟨fun _ => none, fun _ => passLoc, [], false⟩ :=
    ⟨fun _ => rfl, rfl, rfl, rfl⟩
  obtain ⟨scan, found, scan', mirrors, scanned⟩ := foldlM_seen (b.scanLoc pla suicide)
    (fun seen scan => ∃ scan', Mirrors scan scan' ∧ Scanned b.engine pla player suicide seen scan')
    (fun seen loc _ scan _ before => by
      obtain ⟨scan', mirrors, scanned⟩ := before
      obtain ⟨s, s', step, next⟩ := mirrors.scanLoc consistent scanned loc
      exact ⟨s, step, s', next⟩)
    ⟨_, empty, start⟩
  exact ⟨scan, scan', found, mirrors, scanned⟩

end Regions

section Elimination

/-- The state of the elimination as the C++ board keeps it, where each region that is flagged is taken off the counts
at once. -/
def onEngine (s : Elimination) (regions : List Region) : KataGo.Game.Elimination where
  bordersNonPassAlivePlaByHead := s.bordersNonPassAlivePlaByHead
  vitalCountByPlaHead := fun h => vitalRegions s.bordersNonPassAlivePlaByHead regions h
  plaHasBeenKilled := s.plaHasBeenKilled
  killedAnything := s.killedAnything

omit [Zobrist] in
/-- The count at the start of a round. -/
theorem vitalCountByPlaHead_eq (flags : Loc → Bool) {regions : List Region}
    (nodup : ∀ region ∈ regions, region.vitalForPlaHeads.Nodup) (h : Loc) :
    vitalCountByPlaHead flags regions h = vitalRegions flags regions h := by
  have loop : ∀ (rest : List Region) (counts : Loc → Int), (∀ region ∈ rest, region.vitalForPlaHeads.Nodup) →
      rest.foldl (fun counts region => if flags region.head then counts
        else region.vitalForPlaHeads.foldl (fun counts plaHead => Function.update counts plaHead (counts plaHead + 1)) counts)
        counts h = counts h + (vitalRegions flags rest h : Nat) := by
    intro rest
    induction rest with
    | nil =>
      intro counts _
      simp [vitalRegions]
    | cons region rest ih =>
      intro counts nodup
      rw [List.foldl_cons, ih _ fun r member => nodup r (List.mem_cons_of_mem _ member)]
      unfold vitalRegions
      rw [List.countP_cons]
      by_cases flagged : flags region.head = true
      · simp [flagged]
      · have added := KataGo.Game.Board.addVital_apply (nodup region List.mem_cons_self) 1 counts h
        unfold KataGo.Game.Board.addVital at added
        rw [if_neg flagged, added]
        by_cases vital : h ∈ region.vitalForPlaHeads
        · simp only [vital, if_true, Bool.eq_false_iff.mpr flagged, and_self, decide_true]
          push_cast
          omega
        · simp [vital]
  have all := loop regions (fun _ => 0) nodup
  rw [zero_add] at all
  exact all

/-- The flags after a walk along some neighbours of killed stones. -/
theorem foldl_spoilRegion (consistent : b.engine.Consistent) (mirrors : Mirrors scan scan')
    (scanned : Scanned b.engine pla player suicide b.locs scan') {region : Region} (member : region ∈ scan'.regions)
    (as : List Loc) (flags : Loc → Bool) :
    as.foldl (b.spoilRegion pla scan) flags region.head = true ↔
      flags region.head = true ∨ ∃ a ∈ as, SameRegion b.engine pla player region.head a := by
  induction as generalizing flags with
  | nil => simp
  | cons a as ih =>
    rw [List.foldl_cons, ih]
    have first : b.spoilRegion pla scan flags a region.head = true ↔
        flags region.head = true ∨ SameRegion b.engine pla player region.head a := by
      unfold spoilRegion
      by_cases space : b.isEmptyOrOpp pla a = true
      · obtain ⟨i, other, found, label, inside⟩ :=
          scanned.exists_region consistent ((KataGo.Game.Board.isEmptyOrOpp_iff player).mp space)
        have head : scan.regionHeadByLoc a = some other.head := by
          rw [mirrors.labels, label, Option.map_some, regionHeadOf, found]
          rfl
        rw [if_pos space, head, Option.getD_some]
        by_cases same : region.head = other.head
        · rw [same, Function.update_self]
          exact iff_of_true rfl (.inr inside)
        · rw [Function.update_of_ne same]
          refine (or_iff_left fun there => same ?_).symm
          obtain ⟨j, found'⟩ := List.mem_iff_getElem?.mp member
          obtain rfl := scanned.index_unique found' found (there.trans inside.symm)
          rw [found] at found'
          rw [Option.some.inj found']
      · rw [if_neg space]
        refine (or_iff_left fun there => space ?_).symm
        have here := there.space.mpr (.inl (scanned.regions region member).head)
        exact (KataGo.Game.Board.isEmptyOrOpp_iff (b := b.engine) player).mpr here
    rw [first, List.exists_mem_cons_iff, or_assoc]

omit [Zobrist] in
/-- A region that is flagged counts for nobody. -/
theorem vitalRegions_le {flags flags' : Loc → Bool} {regions : List Region}
    (more : ∀ region ∈ regions, flags region.head = true → flags' region.head = true) (h : Loc) :
    vitalRegions flags' regions h ≤ vitalRegions flags regions h := by
  unfold vitalRegions
  refine List.countP_mono_left fun region member counts => ?_
  rw [decide_eq_true_eq] at counts ⊢
  refine ⟨Bool.eq_false_iff.mpr fun flagged => ?_, counts.2⟩
  rw [more region member flagged] at counts
  exact absurd counts.1 (by decide)

/-- What the loop over the heads has done after the heads `seen`. -/
structure Round (b : Board) (pla : Player) (player : pla.IsStone) (suicide : Bool) (scan' : KataGo.Game.RegionScan)
    (s s' : Elimination) (seen : List Loc) : Prop where
  eliminating : Eliminating b.engine pla player suicide scan' (onEngine s' scan'.regions)
  grows : ∀ h, s.plaHasBeenKilled h = true → s'.plaHasBeenKilled h = true
  flags : ∀ region ∈ scan'.regions, s.bordersNonPassAlivePlaByHead region.head = true →
    s'.bordersNonPassAlivePlaByHead region.head = true
  quiet : s'.killedAnything = false → s' = s ∧
    ∀ h ∈ seen, s.plaHasBeenKilled h = true ∨ 2 ≤ vitalRegions s.bordersNonPassAlivePlaByHead scan'.regions h
  loud : s'.killedAnything = true → ∃ h ∈ seen, s.plaHasBeenKilled h = false ∧ s'.plaHasBeenKilled h = true

omit [Zobrist] in
theorem mem_allPlaHeads (sound : b.Sound) (player : pla.IsStone) :
    h ∈ b.allPlaHeads pla ↔ b.board h = pla ∧ b.groupHead h = h := by
  unfold allPlaHeads
  rw [List.mem_dedup, List.mem_map]
  simp only [List.mem_filter, decide_eq_true_eq]
  constructor
  · rintro ⟨p, ⟨-, mine⟩, rfl⟩
    have stone : (b.board p).IsStone := by
      rw [mine]
      exact player
    have group := sound.regular.booked.group p stone
    exact ⟨(group.colour p rfl).symm.trans mine, group.self⟩
  · rintro ⟨mine, self⟩
    exact ⟨h, ⟨sound.regular.booked.shape.mem_locs (by rw [mine]; exact player.ne_wall), mine⟩, self⟩

theorem Round.killHead (sound : b.Sound) (consistent : b.engine.Consistent) (mirrors : Mirrors scan scan')
    (scanned : Scanned b.engine pla player suicide b.locs scan') {seen : List Loc}
    (round : Round b pla player suicide scan' s s' seen) (mine : b.board h = pla) (self : b.groupHead h = h) :
    ∃ s'', b.killHead pla scan (vitalCountByPlaHead s.bordersNonPassAlivePlaByHead scan.regions) s' h = some s'' ∧
      Round b pla player suicide scan' s s'' (seen ++ [h]) := by
  have counted : vitalCountByPlaHead s.bordersNonPassAlivePlaByHead scan.regions h =
      vitalRegions s.bordersNonPassAlivePlaByHead scan'.regions h := by
    rw [mirrors.regions]
    exact vitalCountByPlaHead_eq _ (fun region member => (scanned.regions region member).nodup) h
  have skip : (s'.plaHasBeenKilled h = true ∨ 2 ≤ vitalRegions s.bordersNonPassAlivePlaByHead scan'.regions h) →
      Round b pla player suicide scan' s s' (seen ++ [h]) := by
    intro done
    refine ⟨round.eliminating, round.grows, round.flags, fun still => ?_, fun loud => ?_⟩
    · obtain ⟨same, all⟩ := round.quiet still
      refine ⟨same, fun x member => ?_⟩
      rcases List.mem_append.mp member with old | last
      · exact all x old
      · rw [List.mem_singleton.mp last, ← same]
        rw [same] at done ⊢
        exact done
    · obtain ⟨x, member, change⟩ := round.loud loud
      exact ⟨x, List.mem_append_left _ member, change⟩
  unfold Board.killHead
  by_cases killed : s'.plaHasBeenKilled h = true
  · rw [if_pos killed]
    exact ⟨s', rfl, skip (.inl killed)⟩
  · rw [if_neg killed, counted]
    by_cases few : (vitalRegions s.bordersNonPassAlivePlaByHead scan'.regions h : Int) < 2
    · have stone : (b.board h).IsStone := by
        rw [mine]
        exact player
      obtain ⟨t, walked, ring, -⟩ := (sound.regular.booked.group h stone).groupLocs sound.regular.booked.shape rfl
      rw [if_pos few, walked]
      have fewer : ((onEngine s' scan'.regions).vitalCountByPlaHead h) < 2 := by
        have le := vitalRegions_le round.flags h
        show (vitalRegions s'.bordersNonPassAlivePlaByHead scan'.regions h : Int) < 2
        omega
      have members : ∀ x, x ∈ h :: t ↔ b.engine.InChain h x := by
        intro x
        rw [ring.mem, self]
        refine ⟨fun inside => ⟨?_, inside⟩, fun inside => inside.2⟩
        have group := sound.regular.booked.group h stone
        rw [self] at group
        exact group.stones inside
      have spoiled := round.eliminating.kill consistent scanned mine self fewer members
      obtain ⟨-, flags, kills, -⟩ := KataGo.Game.Board.foldl_spoilRegion scanned (s := {
        onEngine s' scan'.regions with
          plaHasBeenKilled := Function.update s'.plaHasBeenKilled h true, killedAnything := true })
        round.eliminating.counts ((h :: t).flatMap b.adj)
      have same := fun (region : Region) (member : region ∈ scan'.regions) =>
        foldl_spoilRegion consistent mirrors scanned member ((h :: t).flatMap b.adj) s'.bordersNonPassAlivePlaByHead
      refine ⟨_, rfl, spoiled.recount (fun region member => (same region member).trans (flags region member).symm)
        kills.symm fun _ => rfl, fun x dead => ?_, fun region member flagged => ?_, fun still => (nomatch still), fun _ => ?_⟩
      · show Function.update s'.plaHasBeenKilled h true x = true
        by_cases here : x = h
        · rw [here, Function.update_self]
        · rw [Function.update_of_ne here, round.grows x dead]
      · exact (same region member).mpr (.inl (round.flags region member flagged))
      · refine ⟨h, by simp, ?_, Function.update_self ..⟩
        rw [Bool.eq_false_iff]
        exact fun dead => killed (round.grows h dead)
    · rw [if_neg few]
      exact ⟨s', rfl, skip (.inr (by omega))⟩

theorem round_spec (sound : b.Sound) (consistent : b.engine.Consistent) (mirrors : Mirrors scan scan')
    (scanned : Scanned b.engine pla player suicide b.locs scan')
    (eliminating : Eliminating b.engine pla player suicide scan' (onEngine s scan'.regions))
    (still : s.killedAnything = false) :
    ∃ s', (b.allPlaHeads pla).foldlM
        (b.killHead pla scan (vitalCountByPlaHead s.bordersNonPassAlivePlaByHead scan.regions)) s = some s' ∧
      Round b pla player suicide scan' s s' (b.allPlaHeads pla) := by
  refine foldlM_seen _ (fun seen s' => Round b pla player suicide scan' s s' seen) (fun seen h rest s' split round => ?_)
    ⟨eliminating, fun _ dead => dead, fun _ _ flagged => flagged, fun _ => ⟨rfl, by simp⟩, fun loud => ?_⟩
  · obtain ⟨mine, self⟩ := (mem_allPlaHeads sound player).mp (show h ∈ b.allPlaHeads pla by simp [← split])
    exact round.killHead sound consistent mirrors scanned mine self
  · cases still.symm.trans loud

/-- The groups that have not been killed. -/
def survivors (b : Board) (pla : Player) (s : Elimination) : Finset Loc :=
  (b.allPlaHeads pla).toFinset.filter fun h => s.plaHasBeenKilled h = false

theorem eliminate_spec (sound : b.Sound) (consistent : b.engine.Consistent) (mirrors : Mirrors scan scan')
    (scanned : Scanned b.engine pla player suicide b.locs scan') (fuel : Nat)
    (eliminating : Eliminating b.engine pla player suicide scan' (onEngine s scan'.regions))
    (enough : (b.survivors pla s).card < fuel) :
    ∃ s', b.eliminate pla scan fuel s = some s' ∧
      Eliminating b.engine pla player suicide scan' (onEngine s' scan'.regions) ∧
      ∀ h ∈ b.allPlaHeads pla, s'.plaHasBeenKilled h = true ∨
        2 ≤ vitalRegions s'.bordersNonPassAlivePlaByHead scan'.regions h := by
  induction fuel generalizing s with
  | zero => omega
  | succ fuel ih =>
    have start : Eliminating b.engine pla player suicide scan' (onEngine { s with killedAnything := false } scan'.regions) :=
      eliminating.recount (fun _ _ => Iff.rfl) rfl fun _ => rfl
    obtain ⟨s', step, round⟩ := round_spec sound consistent mirrors scanned start rfl
    rw [eliminate]
    dsimp only at step ⊢
    rw [step]
    show ∃ s'', (if s'.killedAnything then b.eliminate pla scan fuel s' else some s') = some s'' ∧ _
    by_cases loud : s'.killedAnything = true
    · rw [if_pos loud]
      apply ih round.eliminating
      obtain ⟨h, member, before, after⟩ := round.loud loud
      have fewer : (b.survivors pla s').card < (b.survivors pla s).card := by
        apply Finset.card_lt_card
        rw [Finset.ssubset_iff_of_subset]
        · refine ⟨h, Finset.mem_filter.mpr ⟨List.mem_toFinset.mpr member, before⟩, fun inside => ?_⟩
          cases after.symm.trans (Finset.mem_filter.mp inside).2
        · intro x inside
          obtain ⟨head, alive⟩ := Finset.mem_filter.mp inside
          refine Finset.mem_filter.mpr ⟨head, Bool.eq_false_iff.mpr fun dead => ?_⟩
          cases alive.symm.trans (round.grows x dead)
      omega
    · rw [if_neg loud]
      obtain ⟨same, all⟩ := round.quiet (Bool.eq_false_iff.mpr loud)
      refine ⟨s', rfl, round.eliminating, ?_⟩
      rw [same]
      exact all

/-- The elimination comes to an end. -/
theorem elimination_spec (sound : b.Sound) (consistent : b.engine.Consistent) (mirrors : Mirrors scan scan')
    (scanned : Scanned b.engine pla player suicide b.locs scan') :
    ∃ s, b.eliminate pla scan (b.arrsize + 1) ⟨fun _ => false, fun _ => false, false⟩ = some s ∧
      Eliminating b.engine pla player suicide scan' (onEngine s scan'.regions) ∧
      ∀ h ∈ b.engine.allPlaHeads pla, s.plaHasBeenKilled h = true ∨
        2 ≤ (onEngine s scan'.regions).vitalCountByPlaHead h := by
  have start : Eliminating b.engine pla player suicide scan'
      (onEngine ⟨fun _ => false, fun _ => false, false⟩ scan'.regions) :=
    (KataGo.Game.Board.eliminating_start scanned).recount (fun _ _ => Iff.rfl) rfl fun _ => rfl
  have enough : (b.survivors pla ⟨fun _ => false, fun _ => false, false⟩).card < b.arrsize + 1 := by
    calc (b.survivors pla ⟨fun _ => false, fun _ => false, false⟩).card
      _ ≤ (b.allPlaHeads pla).toFinset.card := Finset.card_filter_le _ _
      _ ≤ b.locs.toFinset.card := by
        refine Finset.card_le_card fun h member => List.mem_toFinset.mpr (consistent.shape.mem_locs ?_)
        rw [show b.engine.colors h = pla from ((mem_allPlaHeads sound player).mp (List.mem_toFinset.mp member)).1]
        exact player.ne_wall
      _ ≤ b.arrsize := b.card_locs_le
      _ < b.arrsize + 1 := Nat.lt_succ_self _
  obtain ⟨s, run, eliminating, final⟩ := eliminate_spec sound consistent mirrors scanned _ start enough
  refine ⟨s, run, eliminating, fun h member => ?_⟩
  have head := (mem_allPlaHeads sound player).mpr ((KataGo.Game.Board.mem_allPlaHeads consistent.shape player).mp member)
  exact (final h head).imp_right fun two => Int.ofNat_le.mpr two

end Elimination

section Marking

/-- The result with the area of one player written over it. -/
noncomputable def withWholeArea (b : Board) (pla : Player) (player : pla.IsStone) (safe loose suicide : Bool)
    (result : Loc → Color) (x : Loc) : Color :=
  open scoped Classical in
  if b.engine.Owned pla player suicide safe x ∨ loose = true ∧ b.engine.Surrounded pla player x then pla else result x

/-- Living stones are marked. -/
theorem markAlive_spec (sound : b.Sound) (consistent : b.engine.Consistent)
    (scanned : Scanned b.engine pla player suicide b.locs scan')
    (eliminating : Eliminating b.engine pla player suicide scan' (onEngine s scan'.regions))
    (final : ∀ h ∈ b.engine.allPlaHeads pla, s.plaHasBeenKilled h = true ∨
      2 ≤ (onEngine s scan'.regions).vitalCountByPlaHead h) (result : Loc → Color) :
    ∃ result', (b.allPlaHeads pla).foldlM (b.markAlive pla s) result = some result' ∧
      ∀ x, (b.engine.PassAlive pla player suicide x → result' x = pla) ∧
        (¬ b.engine.PassAlive pla player suicide x → result' x = result x) := by
  have living : ∀ x, b.board x = pla → (s.plaHasBeenKilled (b.groupHead x) = false ↔ b.engine.PassAlive pla player suicide x) :=
    fun x mine => eliminating.passAlive consistent scanned final mine
  obtain ⟨result', run, marked, kept⟩ := foldlM_seen (b.markAlive pla s)
    (fun seen result' => (∀ x, b.groupHead x ∈ seen → b.engine.PassAlive pla player suicide x → result' x = pla) ∧
      ∀ x, result' x = pla ∧ b.engine.PassAlive pla player suicide x ∨ result' x = result x)
    (l := b.allPlaHeads pla) (s := result) (fun seen h rest result₁ split before => by
      obtain ⟨marked, kept⟩ := before
      obtain ⟨mine, self⟩ := (mem_allPlaHeads sound player).mp (show h ∈ b.allPlaHeads pla by simp [← split])
      have stone : (b.board h).IsStone := by
        rw [mine]
        exact player
      have group := sound.regular.booked.group h stone
      unfold markAlive
      by_cases killed : s.plaHasBeenKilled h = true
      · rw [if_pos killed]
        refine ⟨result₁, rfl, fun x member alive => ?_, kept⟩
        rcases List.mem_append.mp member with old | last
        · exact marked x old alive
        · have alive' := (living x alive.label).mpr alive
          rw [List.mem_singleton.mp last, killed] at alive'
          exact absurd alive' (by decide)
      · obtain ⟨t, walked, ring, -⟩ := group.groupLocs sound.regular.booked.shape rfl
        rw [self] at group ring
        rw [if_neg killed, walked]
        have colour : ∀ x ∈ h :: t, b.engine.PassAlive pla player suicide x := by
          intro x member
          have inside := (ring.mem x).mp member
          refine (living x ((group.colour x inside).trans mine)).mp ?_
          rw [inside]
          exact Bool.eq_false_iff.mpr killed
        refine ⟨_, rfl, fun x member alive => ?_, fun x => ?_⟩
        · rw [KataGo.Game.Board.foldl_update_apply]
          split_ifs with inside
          · rfl
          · rcases List.mem_append.mp member with old | last
            · exact marked x old alive
            · exact absurd ((ring.mem x).mpr (List.mem_singleton.mp last)) inside
        · rw [KataGo.Game.Board.foldl_update_apply]
          split_ifs with inside
          · exact .inl ⟨rfl, colour x inside⟩
          · exact kept x)
    ⟨by simp, fun x => .inr rfl⟩
  refine ⟨result', run, fun x => ⟨fun alive => ?_, fun dead => ?_⟩⟩
  · have mine : b.board x = pla := alive.label
    have stone : (b.board x).IsStone := by
      rw [mine]
      exact player
    have group := sound.regular.booked.group x stone
    exact marked x ((mem_allPlaHeads sound player).mpr ⟨(group.colour x rfl).symm.trans mine, group.self⟩) alive
  · exact (kept x).resolve_left fun both => dead both.2

/-- Whether the points of a region are marked. -/
def marksRegion (safe loose : Bool) (scan' : KataGo.Game.RegionScan) (s : Elimination) (region : Region) : Bool :=
  let bordersAlive := scan'.atLeastOnePla && !s.bordersNonPassAlivePlaByHead region.head
  (decide (region.numInternalSpacesMax2 ≤ 1) && bordersAlive) || (safe && !region.containsOpp && bordersAlive) ||
    (loose && scan'.atLeastOnePla && !region.containsOpp)

theorem markRegion_spec (shape : b.Shape) (mirrors : Mirrors scan scan')
    (scanned : Scanned b.engine pla player suicide b.locs scan') {region : Region} (member : region ∈ scan'.regions)
    (result : Loc → Color) : ∃ result', b.markRegion pla safe loose scan s result region = some result' ∧
      ∀ x, (marksRegion safe loose scan' s region = true ∧ SameRegion b.engine pla player region.head x → result' x = pla) ∧
        (¬ (marksRegion safe loose scan' s region = true ∧ SameRegion b.engine pla player region.head x) →
          result' x = result x) := by
  have ok := scanned.regions region member
  obtain ⟨l, nodup, mem, linked⟩ := ok.points
  have bound : l.length ≤ b.arrsize := by
    calc l.length = l.toFinset.card := (List.toFinset_card_of_nodup nodup).symm
      _ ≤ b.locs.toFinset.card := by
        refine Finset.card_le_card fun x inside => List.mem_toFinset.mpr (shape.mem_locs ?_)
        have space := ((mem x).mp (List.mem_toFinset.mp inside)).space.mpr (.inl ok.head)
        exact KataGo.Game.Board.isEmptyOrOpp_ne_wall (b := b.engine) player
          ((KataGo.Game.Board.isEmptyOrOpp_iff player).mpr space)
      _ ≤ b.arrsize := b.card_locs_le
  obtain ⟨t, walked, rotated⟩ := walk_of_linked linked nodup ((mem region.head).mpr (Benson.Region.refl _)) bound
  have points : ∀ x, x ∈ region.head :: t ↔ SameRegion b.engine pla player region.head x := fun x =>
    rotated.mem_iff.symm.trans (mem x)
  unfold markRegion
  rw [mirrors.pla, mirrors.next]
  change ∃ result', (if marksRegion safe loose scan' s region = true then
    (do
      let points ← walk scan'.nextEmptyOrOpp b.arrsize region.head
      return points.foldl (fun result cur => Function.update result cur pla) result) else some result) = some result' ∧ _
  by_cases marks : marksRegion safe loose scan' s region = true
  · rw [if_pos marks, walked]
    refine ⟨_, rfl, fun x => ⟨fun both => ?_, fun neither => ?_⟩⟩
    · rw [KataGo.Game.Board.foldl_update_apply, if_pos ((points x).mpr both.2)]
    · rw [KataGo.Game.Board.foldl_update_apply, if_neg fun inside => neither ⟨marks, (points x).mp inside⟩]
  · rw [if_neg marks]
    exact ⟨result, rfl, fun x => ⟨fun both => absurd both.1 marks, fun _ => rfl⟩⟩

/-- The regions that are marked, one after the other. -/
theorem markRegions_spec (shape : b.Shape) (mirrors : Mirrors scan scan')
    (scanned : Scanned b.engine pla player suicide b.locs scan') (safe loose : Bool) (result : Loc → Color) :
    ∃ result', scan.regions.foldlM (b.markRegion pla safe loose scan s) result = some result' ∧
      ∀ x, ((∃ region ∈ scan'.regions, marksRegion safe loose scan' s region = true ∧
          SameRegion b.engine pla player region.head x) → result' x = pla) ∧
        (¬ (∃ region ∈ scan'.regions, marksRegion safe loose scan' s region = true ∧
          SameRegion b.engine pla player region.head x) → result' x = result x) := by
  rw [mirrors.regions]
  refine foldlM_seen (b.markRegion pla safe loose scan s) (fun seen result' => ∀ x,
    ((∃ region ∈ seen, marksRegion safe loose scan' s region = true ∧ SameRegion b.engine pla player region.head x) →
      result' x = pla) ∧
    (¬ (∃ region ∈ seen, marksRegion safe loose scan' s region = true ∧ SameRegion b.engine pla player region.head x) →
      result' x = result x)) (fun seen region rest result₁ split before => ?_) fun x => ⟨by simp, fun _ => rfl⟩
  have member : region ∈ scan'.regions := by simp [← split]
  obtain ⟨result₂, run, marked⟩ := @markRegion_spec _ _ _ player suicide safe loose _ _ s shape mirrors scanned _ member result₁
  refine ⟨result₂, run, fun x => ?_⟩
  simp only [List.mem_append, List.mem_singleton, or_and_right, exists_or, exists_eq_left]
  by_cases here : marksRegion safe loose scan' s region = true ∧ SameRegion b.engine pla player region.head x
  · exact ⟨fun _ => (marked x).1 here, fun none => absurd (.inr here) none⟩
  · rw [(marked x).2 here]
    exact ⟨fun some => (before x).1 (some.resolve_right here), fun none => (before x).2 fun some => none (.inl some)⟩

/-- A region is marked for what its points are. -/
theorem marksRegion_iff (consistent : b.engine.Consistent) (scanned : Scanned b.engine pla player suicide b.locs scan')
    (eliminating : Eliminating b.engine pla player suicide scan' (onEngine s scan'.regions))
    (final : ∀ h ∈ b.engine.allPlaHeads pla, s.plaHasBeenKilled h = true ∨
      2 ≤ (onEngine s scan'.regions).vitalCountByPlaHead h) {region : Region} (member : region ∈ scan'.regions)
    (inside : SameRegion b.engine pla player region.head x) :
    marksRegion safe loose scan' s region = true ↔
      b.engine.Owned pla player suicide safe x ∨ loose = true ∧ b.engine.Surrounded pla player x := by
  have ok := scanned.regions region member
  have space : Benson.Space (side pla player) b.board x := inside.space.mpr (.inl ok.head)
  have stones : scan'.atLeastOnePla = true ↔ ∃ x, b.board x = pla :=
    scanned.pla.trans (KataGo.Game.Board.exists_pla_iff (b := b.engine) consistent.shape player)
  have enclosed : s.bordersNonPassAlivePlaByHead region.head = false ↔
      Benson.Enclosed (grid b.xSize) (side pla player) (suicide = true) b.board x :=
    (eliminating.enclosed consistent scanned final member).trans
      ⟨fun all => all.of_region inside, fun all => all.of_region inside.symm⟩
  have small : region.numInternalSpacesMax2 ≤ 1 ↔ Benson.Small (grid b.xSize) (side pla player) b.board x :=
    ok.small.trans ⟨fun few => few.of_region inside, fun few => few.of_region inside.symm⟩
  have clear : region.containsOpp = false ↔ Benson.Clear (grid b.xSize) (side pla player) b.board x :=
    ok.clear.trans ⟨fun none => none.of_region inside, fun none => none.of_region inside.symm⟩
  have dead : ¬ b.engine.PassAlive pla player suicide x := by
    intro alive
    have mine : b.board x = pla := alive.label
    rcases space with free | theirs
    · exact player.ne_empty (mine.symm.trans free)
    · exact player.opp_ne (theirs.symm.trans mine)
  unfold marksRegion
  simp only [Bool.or_eq_true, Bool.and_eq_true, decide_eq_true_eq, Bool.not_eq_true', stones, enclosed, small, clear]
  constructor
  · rintro ((⟨few, stone, all⟩ | ⟨⟨allowed, none⟩, stone, all⟩) | ⟨⟨allowed, stone⟩, none⟩)
    · exact .inl (.inr ⟨all, .inl few, stone⟩)
    · exact .inl (.inr ⟨all, .inr ⟨allowed, none⟩, stone⟩)
    · exact .inr ⟨allowed, space, none, stone⟩
  · rintro ((alive | ⟨all, few | ⟨allowed, none⟩, stone⟩) | ⟨allowed, -, none, stone⟩)
    · exact absurd alive dead
    · exact .inl (.inl ⟨few, stone, all⟩)
    · exact .inl (.inr ⟨⟨allowed, none⟩, stone, all⟩)
    · exact .inr ⟨⟨allowed, stone⟩, none⟩

end Marking

/-- Area scoring for one player writes his area over the result. -/
theorem calculateAreaForPla_eq (sound : b.Sound) (consistent : b.engine.Consistent) (player : pla.IsStone)
    (safe loose suicide : Bool) (result : Loc → Color) :
    b.calculateAreaForPla pla safe loose suicide result = some (b.withWholeArea pla player safe loose suicide result) := by
  obtain ⟨scan, scan', found, mirrors, scanned⟩ := findRegions_mirrors consistent player suicide
  obtain ⟨s, eliminated, eliminating, final⟩ := elimination_spec sound consistent mirrors scanned
  obtain ⟨result₁, alive, living⟩ := markAlive_spec sound consistent scanned eliminating final result
  obtain ⟨result₂, marks, marked⟩ := markRegions_spec (s := s) sound.regular.booked.shape mirrors scanned safe loose result₁
  rw [calculateAreaForPla, found]
  show (b.eliminate pla scan (b.arrsize + 1) ⟨fun _ => false, fun _ => false, false⟩ >>= _) = _
  rw [eliminated]
  show ((b.allPlaHeads pla).foldlM (b.markAlive pla s) result >>= _) = _
  rw [alive]
  show scan.regions.foldlM _ _ = _
  rw [marks]
  refine congrArg some (funext fun x => ?_)
  unfold withWholeArea
  by_cases mine : b.engine.PassAlive pla player suicide x
  · rw [if_pos (.inl (.inl mine))]
    by_cases some : ∃ region ∈ scan'.regions, marksRegion safe loose scan' s region = true ∧
        SameRegion b.engine pla player region.head x
    · exact (marked x).1 some
    · rw [(marked x).2 some, (living x).1 mine]
  · by_cases some : ∃ region ∈ scan'.regions, marksRegion safe loose scan' s region = true ∧
        SameRegion b.engine pla player region.head x
    · rw [(marked x).1 some]
      obtain ⟨region, member, marks, inside⟩ := some
      rw [if_pos ((marksRegion_iff consistent scanned eliminating final member inside).mp marks)]
    · rw [(marked x).2 some, (living x).2 mine, if_neg]
      intro territory
      have space : Benson.Space (side pla player) b.board x := by
        rcases territory with (alive | ⟨enclosed, -⟩) | ⟨-, surrounded⟩
        · exact absurd alive mine
        · exact enclosed.1
        · exact surrounded.1
      obtain ⟨i, region, at_, -, there⟩ := scanned.exists_region consistent space
      have member := List.mem_of_getElem? at_
      exact some ⟨region, member, (marksRegion_iff consistent scanned eliminating final member there).mpr territory, there⟩

end Board
end KataGo.Python
