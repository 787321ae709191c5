import KataGo.Game.AreaRegions

/-! The elimination of chains with less than two vital regions: what remains is the greatest set
of chains that have two each. -/

namespace KataGo.Game
open KataGo.Lib CircularList Labelling

namespace Board

theorem addVital_apply {heads : List Loc} (nodup : heads.Nodup) (delta : Int) (counts : Loc → Int) (h : Loc) :
    addVital delta counts heads h = counts h + if h ∈ heads then delta else 0 := by
  unfold addVital
  induction heads generalizing counts with
  | nil => simp
  | cons head heads ih =>
    rw [List.foldl_cons, ih (List.nodup_cons.mp nodup).2]
    by_cases same : h = head
    · have absent : h ∉ heads := same ▸ (List.nodup_cons.mp nodup).1
      simp [same, same ▸ absent]
    · rw [Function.update_of_ne same]
      simp [same]

theorem foldl_addVital {regions : List Region} (nodup : ∀ region ∈ regions, region.vitalForPlaHeads.Nodup)
    (counts : Loc → Int) (h : Loc) :
    regions.foldl (fun counts region => addVital 1 counts region.vitalForPlaHeads) counts h =
      counts h + (regions.countP fun region => decide (h ∈ region.vitalForPlaHeads) : Nat) := by
  induction regions generalizing counts with
  | nil => simp
  | cons region regions ih =>
    rw [List.foldl_cons, ih fun r member => nodup r (List.mem_cons_of_mem _ member),
      addVital_apply (nodup region List.mem_cons_self), List.countP_cons]
    by_cases vital : h ∈ region.vitalForPlaHeads
    · simp only [vital, if_true, decide_true]
      push_cast
      omega
    · simp [vital]

/-- The regions that still count for a chain. -/
def vitalRegions (flags : Loc → Bool) (regions : List Region) (h : Loc) : Nat :=
  regions.countP fun region => decide (flags region.head = false ∧ h ∈ region.vitalForPlaHeads)

/-- Flagging a region takes it off the count of the chains that it was vital for. -/
theorem vitalRegions_flag {flags : Loc → Bool} {regions : List Region} {region : Region}
    (nodup : (regions.map Region.head).Nodup) (member : region ∈ regions) (unflagged : flags region.head = false)
    (h : Loc) :
    vitalRegions flags regions h = vitalRegions (Function.update flags region.head true) regions h +
      if h ∈ region.vitalForPlaHeads then 1 else 0 := by
  unfold vitalRegions
  induction regions with
  | nil => cases member
  | cons r regions ih =>
    rw [List.map_cons, List.nodup_cons] at nodup
    rw [List.countP_cons, List.countP_cons]
    rcases List.mem_cons.mp member with rfl | later
    · have rest : regions.countP (fun r => decide (flags r.head = false ∧ h ∈ r.vitalForPlaHeads)) =
          regions.countP fun r => decide (Function.update flags region.head true r.head = false ∧
            h ∈ r.vitalForPlaHeads) := by
        apply List.countP_congr
        intro r inside
        have apart : r.head ≠ region.head := fun same => nodup.1 (same ▸ List.mem_map_of_mem inside)
        rw [Function.update_of_ne apart]
      rw [rest, Function.update_self]
      simp [unflagged]
    · have apart : r.head ≠ region.head := fun same => nodup.1 (same ▸ List.mem_map_of_mem later)
      rw [ih nodup.2 later, Function.update_of_ne apart]
      omega

/-- There are two entries that count, at different places. -/
theorem two_le_countP_iff {α : Type} {l : List α} {P : α → Bool} :
    2 ≤ l.countP P ↔ ∃ (i j : Nat) (x y : α), i < j ∧ l[i]? = some x ∧ l[j]? = some y ∧ P x = true ∧ P y = true := by
  induction l with
  | nil => simp
  | cons a l ih =>
    rw [List.countP_cons]
    constructor
    · intro two
      by_cases first : P a = true
      · rw [if_pos first] at two
        obtain ⟨y, member, second⟩ := List.countP_pos_iff.mp (show 0 < l.countP P by omega)
        obtain ⟨j, found⟩ := List.mem_iff_getElem?.mp member
        exact ⟨0, j + 1, a, y, Nat.succ_pos j, rfl, found, first, second⟩
      · rw [if_neg first] at two
        obtain ⟨i, j, x, y, less, foundX, foundY, first, second⟩ := ih.mp two
        exact ⟨i + 1, j + 1, x, y, Nat.succ_lt_succ less, foundX, foundY, first, second⟩
    · rintro ⟨i, j, x, y, less, foundX, foundY, first, second⟩
      obtain ⟨j, rfl⟩ : ∃ k, j = k + 1 := ⟨j - 1, by omega⟩
      cases i with
      | zero =>
        cases foundX
        have positive := List.countP_pos_iff.mpr ⟨y, List.mem_of_getElem? (show l[j]? = some y from foundY), second⟩
        rw [if_pos first]
        omega
      | succ i =>
        have two := ih.mpr ⟨i, j, x, y, Nat.lt_of_succ_lt_succ less, foundX, foundY, first, second⟩
        omega

/-- The stones of a player that cannot be captured, whatever the opponent plays. -/
abbrev PassAlive (b : Board) (pla : Player) (player : pla.IsStone) (suicide : Bool) (x : Loc) : Prop :=
  Benson.PassAlive (grid b.xSize) (side pla player) (suicide = true) b.colors x

variable [Zobrist] {b : Board} {pla : Player} {player : pla.IsStone} {suicide : Bool} {scan : RegionScan}
  {s s' : Elimination} {h x y p : Loc}

/-- The elimination so far: the counts are those of the regions without a flag, a region has a
flag if it borders on a killed chain, and no living chain has been killed. -/
structure Eliminating (b : Board) (pla : Player) (player : pla.IsStone) (suicide : Bool) (scan : RegionScan)
    (s : Elimination) : Prop where
  counts : ∀ h, s.vitalCountByPlaHead h = vitalRegions s.bordersNonPassAlivePlaByHead scan.regions h
  flags : ∀ region ∈ scan.regions, s.bordersNonPassAlivePlaByHead region.head = true ↔
    ∃ y, Benson.Borders (grid b.xSize) (side pla player) b.colors region.head y ∧
      s.plaHasBeenKilled (b.chainHead y) = true
  sound : ∀ y, b.colors y = pla → s.plaHasBeenKilled (b.chainHead y) = true →
    ¬ b.PassAlive pla player suicide y

omit [Zobrist] in
/-- An elimination with the same flags and the same killed chains, whose counts follow from its flags. -/
theorem Eliminating.recount (eliminating : b.Eliminating pla player suicide scan s)
    (flags : ∀ region ∈ scan.regions, s'.bordersNonPassAlivePlaByHead region.head = true ↔
      s.bordersNonPassAlivePlaByHead region.head = true)
    (killed : s'.plaHasBeenKilled = s.plaHasBeenKilled)
    (counts : ∀ h, s'.vitalCountByPlaHead h = vitalRegions s'.bordersNonPassAlivePlaByHead scan.regions h) :
    b.Eliminating pla player suicide scan s' := by
  refine ⟨counts, fun region member => ?_, fun y mine dead => ?_⟩
  · rw [flags region member, eliminating.flags region member, killed]
  · rw [killed] at dead
    exact eliminating.sound y mine dead

omit [Zobrist] in
theorem Scanned.heads_nodup {seen : List Loc} (scanned : b.Scanned pla player suicide seen scan) :
    (scan.regions.map Region.head).Nodup := by
  rw [List.nodup_iff_getElem?_ne_getElem?]
  intro i j less bound same
  rw [List.length_map] at bound
  rw [List.getElem?_map, List.getElem?_map, List.getElem?_eq_getElem (Nat.lt_trans less bound),
    List.getElem?_eq_getElem bound] at same
  have heads := Option.some.inj same
  have equal := scanned.index_unique (List.getElem?_eq_getElem (Nat.lt_trans less bound))
    (List.getElem?_eq_getElem bound) (heads ▸ Benson.Region.refl _)
  omega

omit [Zobrist] in
theorem eliminating_start {seen : List Loc} (scanned : b.Scanned pla player suicide seen scan) :
    b.Eliminating pla player suicide scan (startElimination scan) := by
  refine ⟨fun h => ?_, fun region member => ?_, fun y _ killed => ?_⟩
  · have counted := foldl_addVital (fun region member => (scanned.regions region member).nodup) (fun _ => 0) h
    rw [zero_add] at counted
    simpa [vitalRegions, startElimination] using counted
  · simp [startElimination]
  · cases killed

/-- What the walk along a killed chain has done after the neighbours `seen`. -/
structure Spoiled (b : Board) (pla : Player) (player : pla.IsStone) (scan : RegionScan) (s s' : Elimination)
    (seen : List Loc) : Prop where
  counts : ∀ h, s'.vitalCountByPlaHead h = vitalRegions s'.bordersNonPassAlivePlaByHead scan.regions h
  flags : ∀ region ∈ scan.regions, s'.bordersNonPassAlivePlaByHead region.head = true ↔
    s.bordersNonPassAlivePlaByHead region.head = true ∨ ∃ a ∈ seen, b.SameRegion pla player region.head a
  killed : s'.plaHasBeenKilled = s.plaHasBeenKilled
  anything : s'.killedAnything = s.killedAnything

omit [Zobrist] in
theorem Spoiled.step {all seen : List Loc} (scanned : b.Scanned pla player suicide all scan)
    (spoiled : Spoiled b pla player scan s s' seen) (a : Loc) :
    Spoiled b pla player scan s (b.spoilRegion pla scan s' a) (seen ++ [a]) := by
  have extend : ∀ region : Region, (∃ x ∈ seen ++ [a], b.SameRegion pla player region.head x) ↔
      (∃ x ∈ seen, b.SameRegion pla player region.head x) ∨ b.SameRegion pla player region.head a := by
    intro region
    simp only [List.mem_append, List.mem_singleton, or_and_right, exists_or, exists_eq_left]
  unfold spoilRegion
  split
  next unlabelled =>
    refine ⟨spoiled.counts, fun region member => ?_, spoiled.killed, spoiled.anything⟩
    have outside : ¬ b.SameRegion pla player region.head a := by
      intro inside
      obtain ⟨i, found⟩ := List.mem_iff_getElem?.mp member
      cases unlabelled.symm.trans ((scanned.labels a i).mpr ⟨region, found, inside⟩)
    rw [spoiled.flags region member, extend]
    simp only [outside, or_false]
  next i label =>
    obtain ⟨region, found, inside⟩ := (scanned.labels a i).mp label
    have member := List.mem_of_getElem? found
    have ok := scanned.regions region member
    have space : b.isEmptyOrOpp pla a = true := (isEmptyOrOpp_iff player).mpr (inside.space.mpr (.inl ok.head))
    have head : regionHeadOf scan i = region.head := by simp [regionHeadOf, found]
    have vital : vitalHeadsOf scan i = region.vitalForPlaHeads := by simp [vitalHeadsOf, found]
    have only : ∀ other ∈ scan.regions, b.SameRegion pla player other.head a ↔ other.head = region.head := by
      intro other member'
      constructor
      · intro there
        obtain ⟨j, found'⟩ := List.mem_iff_getElem?.mp member'
        have same := scanned.index_unique found' found (there.trans inside.symm)
        rw [same, found] at found'
        rw [Option.some.inj found']
      · intro same
        rw [same]
        exact inside
    rw [head, vital]
    split_ifs with fresh
    · have unflagged : s'.bordersNonPassAlivePlaByHead region.head = false := by simpa using fresh.1
      refine ⟨fun h => ?_, fun other member' => ?_, spoiled.killed, spoiled.anything⟩
      · show addVital (-1) s'.vitalCountByPlaHead region.vitalForPlaHeads h = _
        rw [addVital_apply ok.nodup, spoiled.counts,
          vitalRegions_flag scanned.heads_nodup member unflagged h]
        push_cast
        split_ifs <;> omega
      · show Function.update s'.bordersNonPassAlivePlaByHead region.head true other.head = true ↔ _
        rw [extend, only other member', ← or_assoc, ← spoiled.flags other member']
        by_cases same : other.head = region.head
        · simp [same]
        · simp [same]
    · have flagged : s'.bordersNonPassAlivePlaByHead region.head = true := by simpa [space] using fresh
      refine ⟨spoiled.counts, fun other member' => ?_, spoiled.killed, spoiled.anything⟩
      rw [extend, only other member', ← or_assoc, ← spoiled.flags other member']
      constructor
      · exact .inl
      · rintro (old | same)
        · exact old
        · rw [same]
          exact flagged

omit [Zobrist] in
theorem foldl_spoilRegion {all : List Loc} (scanned : b.Scanned pla player suicide all scan)
    (counts : ∀ h, s.vitalCountByPlaHead h = vitalRegions s.bordersNonPassAlivePlaByHead scan.regions h)
    (as : List Loc) : Spoiled b pla player scan s (as.foldl (b.spoilRegion pla scan) s) as := by
  have loop : ∀ (rest seen : List Loc) (s' : Elimination), Spoiled b pla player scan s s' seen →
      Spoiled b pla player scan s (rest.foldl (b.spoilRegion pla scan) s') (seen ++ rest) := by
    intro rest
    induction rest with
    | nil =>
      intro seen s' spoiled
      simpa using spoiled
    | cons a rest ih =>
      intro seen s' spoiled
      have next := ih _ _ (spoiled.step scanned a)
      simpa using next
  refine loop as [] s ⟨counts, fun region member => ?_, rfl, rfl⟩
  simp

/-- The eye of a living stone is a region without a flag. -/
theorem Eliminating.exists_vital (consistent : b.Consistent) (scanned : b.Scanned pla player suicide b.locs scan)
    (eliminating : b.Eliminating pla player suicide scan s) (mine : b.colors y = pla)
    (eye : Benson.Eye (grid b.xSize) (side pla player) (suicide = true) b.colors
      (b.PassAlive pla player suicide) p y) :
    ∃ (i : Nat) (region : Region), scan.regions[i]? = some region ∧ b.SameRegion pla player region.head p ∧
      s.bordersNonPassAlivePlaByHead region.head = false ∧ b.chainHead y ∈ region.vitalForPlaHeads := by
  obtain ⟨i, region, found, -, inside⟩ := scanned.exists_region consistent (.inl eye.1)
  have member := List.mem_of_getElem? found
  refine ⟨i, region, found, inside, ?_, ?_⟩
  · rw [← Bool.not_eq_true, eliminating.flags region member]
    rintro ⟨z, ⟨label, q, there, adjacent⟩, killed⟩
    exact eliminating.sound z label killed (eye.2.2 z ⟨label, q, inside.symm.trans there, adjacent⟩)
  · rw [(scanned.regions region member).vital y mine]
    intro q there point
    exact eye.2.1 q (inside.symm.trans there) point

/-- A living chain has two regions that count. -/
theorem Eliminating.two_le (consistent : b.Consistent) (scanned : b.Scanned pla player suicide b.locs scan)
    (eliminating : b.Eliminating pla player suicide scan s)
    (alive : b.PassAlive pla player suicide y) :
    2 ≤ s.vitalCountByPlaHead (b.chainHead y) := by
  obtain ⟨p₁, p₂, apart, first, second⟩ := alive.twoEyes
  obtain ⟨i, r₁, found₁, inside₁, free₁, vital₁⟩ := eliminating.exists_vital consistent scanned alive.label first
  obtain ⟨j, r₂, found₂, inside₂, free₂, vital₂⟩ := eliminating.exists_vital consistent scanned alive.label second
  have different : i ≠ j := by
    rintro rfl
    rw [found₁] at found₂
    rw [← Option.some.inj found₂] at inside₂
    exact apart (inside₁.symm.trans inside₂)
  have two : 2 ≤ vitalRegions s.bordersNonPassAlivePlaByHead scan.regions (b.chainHead y) := by
    rw [vitalRegions, two_le_countP_iff]
    rcases Nat.lt_or_gt_of_ne different with less | more
    · exact ⟨i, j, r₁, r₂, less, found₁, found₂, by simp [free₁, vital₁], by simp [free₂, vital₂]⟩
    · exact ⟨j, i, r₂, r₁, more, found₂, found₁, by simp [free₂, vital₂], by simp [free₁, vital₁]⟩
  rw [eliminating.counts]
  exact_mod_cast two

/-- Killing a chain with less than two vital regions. -/
theorem Eliminating.kill (consistent : b.Consistent) (scanned : b.Scanned pla player suicide b.locs scan)
    (eliminating : b.Eliminating pla player suicide scan s) (mine : b.colors h = pla) (self : b.chainHead h = h)
    (few : s.vitalCountByPlaHead h < 2) {chain : List Loc} (members : ∀ x, x ∈ chain ↔ b.InChain h x) :
    b.Eliminating pla player suicide scan ((chain.flatMap b.adj).foldl (b.spoilRegion pla scan)
      { s with plaHasBeenKilled := Function.update s.plaHasBeenKilled h true, killedAnything := true }) := by
  obtain ⟨counts, flags, killed, -⟩ := foldl_spoilRegion scanned (s := { s with
    plaHasBeenKilled := Function.update s.plaHasBeenKilled h true, killedAnything := true })
    eliminating.counts (chain.flatMap b.adj)
  refine ⟨counts, fun region member => ?_, fun y mineY dead => ?_⟩
  · rw [flags region member, killed]
    show s.bordersNonPassAlivePlaByHead region.head = true ∨ _ ↔
      ∃ y, _ ∧ Function.update s.plaHasBeenKilled h true (b.chainHead y) = true
    rw [eliminating.flags region member]
    constructor
    · rintro (⟨y, borders, dead⟩ | ⟨a, near, inside⟩)
      · refine ⟨y, borders, ?_⟩
        by_cases same : b.chainHead y = h
        · rw [same, Function.update_self]
        · rw [Function.update_of_ne same, dead]
      · obtain ⟨z, inChain, adjacent⟩ := List.mem_flatMap.mp near
        have there := (members z).mp inChain
        have label : b.colors z = pla := by
          have stone : (b.colors h).IsStone := mine ▸ player
          rw [((consistent.inChain_iff stone).mp (self.symm ▸ there)).label, mine]
        refine ⟨z, ⟨label, a, inside, adj_symm adjacent⟩, ?_⟩
        rw [there.2, Function.update_self]
    · rintro ⟨y, borders, dead⟩
      by_cases same : b.chainHead y = h
      · obtain ⟨label, q, inside, adjacent⟩ := borders
        refine .inr ⟨q, List.mem_flatMap.mpr ⟨y, (members y).mpr ⟨?_, same⟩, adj_symm adjacent⟩, inside⟩
        rw [label]
        exact player
      · rw [Function.update_of_ne same] at dead
        exact .inl ⟨y, borders, dead⟩
  · rw [killed] at dead
    by_cases same : b.chainHead y = h
    · intro alive
      have two := eliminating.two_le consistent scanned alive
      rw [same] at two
      omega
    · exact eliminating.sound y mineY ((Function.update_of_ne same _ _).symm.trans dead)

/-- What the loop over the heads has done after the heads `seen`. -/
structure Round (b : Board) (pla : Player) (player : pla.IsStone) (suicide : Bool) (scan : RegionScan)
    (s s' : Elimination) (seen : List Loc) : Prop where
  eliminating : b.Eliminating pla player suicide scan s'
  grows : ∀ h, s.plaHasBeenKilled h = true → s'.plaHasBeenKilled h = true
  quiet : s'.killedAnything = false →
    s' = s ∧ ∀ h ∈ seen, s.plaHasBeenKilled h = true ∨ 2 ≤ s.vitalCountByPlaHead h
  loud : s'.killedAnything = true → ∃ h ∈ seen, s.plaHasBeenKilled h = false ∧ s'.plaHasBeenKilled h = true

/-- One head of the loop. -/
theorem Round.killHead (consistent : b.Consistent) (scanned : b.Scanned pla player suicide b.locs scan)
    {seen : List Loc} (round : Round b pla player suicide scan s s' seen) (mine : b.colors h = pla)
    (self : b.chainHead h = h) : ∃ s'', b.killHead pla scan s' h = some s'' ∧
      Round b pla player suicide scan s s'' (seen ++ [h]) := by
  have skip : (s'.plaHasBeenKilled h = true ∨ 2 ≤ s'.vitalCountByPlaHead h) →
      Round b pla player suicide scan s s' (seen ++ [h]) := by
    intro done
    refine ⟨round.eliminating, round.grows, fun still => ?_, fun loud => ?_⟩
    · obtain ⟨same, all⟩ := round.quiet still
      refine ⟨same, fun x member => ?_⟩
      rcases List.mem_append.mp member with old | last
      · exact all x old
      · rw [List.mem_singleton.mp last, ← same]
        exact done
    · obtain ⟨x, member, change⟩ := round.loud loud
      exact ⟨x, List.mem_append_left _ member, change⟩
  unfold Board.killHead
  by_cases killed : s'.plaHasBeenKilled h = true
  · rw [if_pos killed]
    exact ⟨s', rfl, skip (.inl killed)⟩
  · rw [if_neg killed]
    by_cases few : s'.vitalCountByPlaHead h < 2
    · have stone : (b.colors h).IsStone := by
        rw [mine]
        exact player
      have inside : b.InChain h h := ⟨stone, self⟩
      have ok : b.ChainOk h 0 := by
        have chainOk := consistent.regular.chainOk stone
        rwa [self] at chainOk
      obtain ⟨t, walked, ring, -⟩ := ok.chainLocs consistent.shape inside
      rw [if_pos few, walked]
      obtain ⟨-, -, marks, anything⟩ := foldl_spoilRegion scanned (s := { s' with
        plaHasBeenKilled := Function.update s'.plaHasBeenKilled h true, killedAnything := true })
        round.eliminating.counts ((h :: t).flatMap b.adj)
      refine ⟨_, rfl, round.eliminating.kill consistent scanned mine self few ring.mem, fun x dead => ?_,
        fun still => ?_, fun _ => ?_⟩
      · rw [marks]
        show Function.update s'.plaHasBeenKilled h true x = true
        by_cases same : x = h
        · rw [same, Function.update_self]
        · rw [Function.update_of_ne same, round.grows x dead]
      · cases still.symm.trans anything
      · refine ⟨h, by simp, ?_, ?_⟩
        · rw [Bool.eq_false_iff]
          exact fun dead => killed (round.grows h dead)
        · rw [marks]
          exact Function.update_self ..
    · rw [if_neg few]
      exact ⟨s', rfl, skip (.inr (by omega))⟩

omit [Zobrist] in
theorem mem_allPlaHeads (shape : b.Shape) (player : pla.IsStone) :
    h ∈ b.allPlaHeads pla ↔ b.colors h = pla ∧ b.chainHead h = h := by
  simp only [allPlaHeads, List.mem_filter, decide_eq_true_eq, and_iff_right_iff_imp]
  rintro ⟨mine, -⟩
  have bounds := boardLocs_bounds shape.wide.2 shape.high.2 (shape.mem_locs (by rw [mine]; exact player.ne_wall))
  simp only [arrayLocs, List.mem_map, List.mem_range]
  exact ⟨h.toNat, by omega, Int.toNat_of_nonneg (by omega)⟩

theorem round_spec (consistent : b.Consistent) (scanned : b.Scanned pla player suicide b.locs scan)
    (eliminating : b.Eliminating pla player suicide scan s) (still : s.killedAnything = false) :
    ∃ s', (b.allPlaHeads pla).foldlM (b.killHead pla scan) s = some s' ∧
      Round b pla player suicide scan s s' (b.allPlaHeads pla) := by
  have loop : ∀ (rest seen : List Loc) (s' : Elimination), (∀ h ∈ rest, h ∈ b.allPlaHeads pla) →
      Round b pla player suicide scan s s' seen → ∃ s'', rest.foldlM (b.killHead pla scan) s' = some s'' ∧
        Round b pla player suicide scan s s'' (seen ++ rest) := by
    intro rest
    induction rest with
    | nil =>
      intro seen s' _ round
      exact ⟨s', rfl, by simpa using round⟩
    | cons h rest ih =>
      intro seen s' heads round
      obtain ⟨mine, self⟩ := (mem_allPlaHeads consistent.shape player).mp (heads h List.mem_cons_self)
      obtain ⟨s₁, step, next⟩ := round.killHead consistent scanned mine self
      obtain ⟨s₂, steps, final⟩ := ih _ s₁ (fun x member => heads x (List.mem_cons_of_mem _ member)) next
      refine ⟨s₂, ?_, by simpa using final⟩
      rw [List.foldlM_cons, step]
      exact steps
  refine loop (b.allPlaHeads pla) [] s (fun h member => member) ⟨eliminating, fun h dead => dead, fun _ => ?_, ?_⟩
  · exact ⟨rfl, by simp⟩
  · intro loud
    cases still.symm.trans loud

/-- The chains that have not been killed. -/
def survivors (b : Board) (pla : Player) (s : Elimination) : Finset Loc :=
  (b.allPlaHeads pla).toFinset.filter fun h => s.plaHasBeenKilled h = false

theorem eliminate_spec (consistent : b.Consistent) (scanned : b.Scanned pla player suicide b.locs scan) (fuel : Nat)
    (eliminating : b.Eliminating pla player suicide scan s) (enough : (b.survivors pla s).card < fuel) :
    ∃ s', b.eliminate pla scan fuel s = some s' ∧ b.Eliminating pla player suicide scan s' ∧
      ∀ h ∈ b.allPlaHeads pla, s'.plaHasBeenKilled h = true ∨ 2 ≤ s'.vitalCountByPlaHead h := by
  induction fuel generalizing s with
  | zero => omega
  | succ fuel ih =>
    have start : b.Eliminating pla player suicide scan { s with killedAnything := false } :=
      ⟨eliminating.counts, eliminating.flags, eliminating.sound⟩
    obtain ⟨s', step, round⟩ := round_spec consistent scanned start rfl
    rw [eliminate, step]
    show ∃ s'', (if s'.killedAnything then b.eliminate pla scan fuel s' else some s') = some s'' ∧ _
    by_cases loud : s'.killedAnything = true
    · rw [if_pos loud]
      apply ih round.eliminating
      obtain ⟨h, member, before, after⟩ := round.loud loud
      have fewer : (b.survivors pla s').card < (b.survivors pla s).card := by
        apply Finset.card_lt_card
        rw [Finset.ssubset_iff_of_subset]
        · refine ⟨h, Finset.mem_filter.mpr ⟨List.mem_toFinset.mpr member, before⟩, fun inside => ?_⟩
          cases after.symm.trans (Finset.mem_filter.mp inside).2
        · intro x inside
          obtain ⟨head, alive⟩ := Finset.mem_filter.mp inside
          refine Finset.mem_filter.mpr ⟨head, Bool.eq_false_iff.mpr fun dead => ?_⟩
          cases alive.symm.trans (round.grows x dead)
      omega
    · rw [if_neg loud]
      obtain ⟨same, all⟩ := round.quiet (Bool.eq_false_iff.mpr loud)
      refine ⟨s', rfl, round.eliminating, ?_⟩
      rw [same]
      exact all

/-- What has not been killed in the end is alive. -/
theorem Eliminating.passAlive (consistent : b.Consistent) (scanned : b.Scanned pla player suicide b.locs scan)
    (eliminating : b.Eliminating pla player suicide scan s)
    (final : ∀ h ∈ b.allPlaHeads pla, s.plaHasBeenKilled h = true ∨ 2 ≤ s.vitalCountByPlaHead h)
    (mine : b.colors y = pla) : s.plaHasBeenKilled (b.chainHead y) = false ↔ b.PassAlive pla player suicide y := by
  constructor
  · intro alive
    refine ⟨fun y => b.colors y = pla ∧ s.plaHasBeenKilled (b.chainHead y) = false, ?_, mine, alive⟩
    rintro y ⟨mine, alive⟩
    refine ⟨mine, ?_⟩
    have stone : (b.colors y).IsStone := by
      rw [mine]
      exact player
    have headChain : Chain (grid b.xSize) b.colors y (b.chainHead y) := consistent.head y stone
    have head : b.chainHead y ∈ b.allPlaHeads pla := by
      rw [mem_allPlaHeads consistent.shape player]
      exact ⟨headChain.label.trans mine, consistent.shared y _ stone headChain⟩
    have two : 2 ≤ vitalRegions s.bordersNonPassAlivePlaByHead scan.regions (b.chainHead y) := by
      rcases final _ head with dead | many
      · cases alive.symm.trans dead
      · rw [eliminating.counts] at many
        exact_mod_cast many
    obtain ⟨i, j, r₁, r₂, less, found₁, found₂, counts₁, counts₂⟩ := two_le_countP_iff.mp two
    rw [decide_eq_true_eq] at counts₁ counts₂
    have eye : ∀ region ∈ scan.regions, s.bordersNonPassAlivePlaByHead region.head = false →
        b.chainHead y ∈ region.vitalForPlaHeads → Benson.Eye (grid b.xSize) (side pla player) (suicide = true) b.colors
          (fun y => b.colors y = pla ∧ s.plaHasBeenKilled (b.chainHead y) = false) region.head y := by
      intro region member free vital
      have ok := scanned.regions region member
      refine ⟨ok.head, (ok.vital y mine).mp vital, fun z borders => ⟨borders.1, ?_⟩⟩
      rw [← Bool.not_eq_true]
      intro dead
      cases free.symm.trans ((eliminating.flags region member).mpr ⟨z, borders, dead⟩)
    refine ⟨r₁.head, r₂.head, fun same => ?_, eye r₁ (List.mem_of_getElem? found₁) counts₁.1 counts₁.2,
      eye r₂ (List.mem_of_getElem? found₂) counts₂.1 counts₂.2⟩
    have equal := scanned.index_unique found₁ found₂ same
    omega
  · intro alive
    rw [← Bool.not_eq_true]
    exact fun dead => eliminating.sound y mine dead alive

/-- A region without a flag is enclosed by living stones. -/
theorem Eliminating.enclosed (consistent : b.Consistent) (scanned : b.Scanned pla player suicide b.locs scan)
    (eliminating : b.Eliminating pla player suicide scan s)
    (final : ∀ h ∈ b.allPlaHeads pla, s.plaHasBeenKilled h = true ∨ 2 ≤ s.vitalCountByPlaHead h) {region : Region}
    (member : region ∈ scan.regions) : s.bordersNonPassAlivePlaByHead region.head = false ↔
      Benson.Enclosed (grid b.xSize) (side pla player) (suicide = true) b.colors region.head := by
  rw [← Bool.not_eq_true, eliminating.flags region member]
  constructor
  · intro none
    refine ⟨.inl (scanned.regions region member).head, fun y borders => ?_⟩
    refine (eliminating.passAlive consistent scanned final borders.1).mp ?_
    rw [← Bool.not_eq_true]
    exact fun dead => none ⟨y, borders, dead⟩
  · rintro enclosed ⟨y, borders, dead⟩
    exact eliminating.sound y borders.1 dead (enclosed.2 y borders)

/-- The elimination comes to an end. -/
theorem elimination_spec (consistent : b.Consistent) (scanned : b.Scanned pla player suicide b.locs scan) :
    ∃ s, b.eliminate pla scan maxArrSize (startElimination scan) = some s ∧
      b.Eliminating pla player suicide scan s ∧
      ∀ h ∈ b.allPlaHeads pla, s.plaHasBeenKilled h = true ∨ 2 ≤ s.vitalCountByPlaHead h := by
  apply eliminate_spec consistent scanned maxArrSize (eliminating_start scanned)
  calc (b.survivors pla (startElimination scan)).card
    _ ≤ (b.allPlaHeads pla).toFinset.card := Finset.card_filter_le _ _
    _ ≤ b.locs.toFinset.card := by
      refine Finset.card_le_card fun h member => List.mem_toFinset.mpr (consistent.shape.mem_locs ?_)
      rw [((mem_allPlaHeads consistent.shape player).mp (List.mem_toFinset.mp member)).1]
      exact player.ne_wall
    _ ≤ maxLen * maxLen := card_boardLocs_le_square consistent.wide.2 consistent.high.2
    _ < maxArrSize := by decide

end Board
end KataGo.Game
