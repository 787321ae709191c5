import KataGo.Game.Area
import KataGo.Game.Consistent
import KataGo.Lib.Benson

/-! The regions that the scan finds: they are the connected sets of points without stones of
the player, each with a circular list of its points and a record of what it is vital for. -/

namespace KataGo.Game
open KataGo.Lib CircularList Labelling

/-- The labels of a position as a player sees them. -/
def side (pla : Player) (player : pla.IsStone) : Benson.Side Color :=
  ⟨.empty, pla, getOpp pla, player.ne_empty, player.opp.ne_empty, player.opp_ne.symm⟩

namespace Board

variable {b : Board} {pla : Player} {suicide : Bool} {p q x y loc h : Loc}

/-- Connected through points without stones of the player. -/
def SameRegion (b : Board) (pla : Player) (player : pla.IsStone) (p q : Loc) : Prop :=
  Benson.Region (grid b.xSize) (side pla player) b.colors p q

theorem isEmptyOrOpp_iff (player : pla.IsStone) :
    b.isEmptyOrOpp pla x = true ↔ Benson.Space (side pla player) b.colors x := by
  simp [isEmptyOrOpp, Benson.Space, side]

theorem isEmptyOrOpp_ne_wall (player : pla.IsStone) (space : b.isEmptyOrOpp pla x = true) : b.colors x ≠ .wall := by
  rcases (isEmptyOrOpp_iff player).mp space with free | theirs
  · rw [free]
    exact Color.noConfusion
  · rw [theirs]
    exact player.opp.ne_wall

/-- The search goes through the whole region if the labels are those of other regions. -/
theorem reach_iff {ι : Type} {labels : Loc → Option ι} (player : pla.IsStone) (space : b.isEmptyOrOpp pla p = true)
    (fresh : labels p = none) (closed : ∀ x y, labels x ≠ none → b.SameRegion pla player x y → labels y ≠ none) :
    Search.Reach b.adj (b.isEmptyOrOpp pla) labels p x ↔ b.SameRegion pla player p x := by
  have start := (isEmptyOrOpp_iff player).mp space
  constructor
  · intro path
    induction path with
    | refl => exact Benson.Region.refl p
    | tail _ edge ih =>
      refine ih.trans (Benson.Region.step (ih.space.mpr start) ((isEmptyOrOpp_iff player).mp edge.2.1) ?_)
      exact edge.1
  · intro region
    refine (Chain.mem_of_closed (S := fun x => b.SameRegion pla player p x ∧
      Search.Reach b.adj (b.isEmptyOrOpp pla) labels p x) ⟨Benson.Region.refl p, Relation.ReflTransGen.refl⟩ ?_ region).2
    rintro x a ⟨inside, path⟩ adjacent same
    have next : b.SameRegion pla player p a := inside.trans (Chain.single adjacent same)
    refine ⟨next, path.tail ⟨adjacent, (isEmptyOrOpp_iff player).mpr (next.space.mpr start), ?_⟩⟩
    by_contra labelled
    exact closed a p labelled next.symm fresh

section Record

variable (b pla suicide)

/-- What a region is vital for, after the points of a list. -/
theorem foldl_vital (l : List Loc) (region : Region) :
    (l.foldl (b.addToRegion pla suicide) region).vitalForPlaHeads =
      region.vitalForPlaHeads.filter fun h => decide (∀ q ∈ l, (suicide = true ∨ b.colors q = .empty) →
        b.isAdjacentToPlaHead pla q h = true) := by
  induction l generalizing region with
  | nil => simp
  | cons q l ih =>
    rw [List.foldl_cons, ih]
    simp only [addToRegion, filterVital]
    split
    next counts =>
      rw [List.filter_filter]
      congr 1
      funext h
      simp [counts.2, Bool.and_comm]
    next skips =>
      by_cases empty : region.vitalForPlaHeads = []
      · simp [empty]
      · have other : ¬ (suicide = true ∨ b.colors q = .empty) := fun counts => skips ⟨empty, counts⟩
        congr 1
        funext h
        simp [other]

theorem foldl_internal (l : List Loc) (region : Region) (small : region.numInternalSpacesMax2 ≤ 2) :
    (l.foldl (b.addToRegion pla suicide) region).numInternalSpacesMax2 =
      min 2 (region.numInternalSpacesMax2 + l.countP fun q => !b.isAdjacentToPla q pla) := by
  induction l generalizing region with
  | nil => simp [small]
  | cons q l ih =>
    rw [List.foldl_cons, ih]
    · simp only [addToRegion, List.countP_cons]
      by_cases near : b.isAdjacentToPla q pla = true
      · simp [near]
      · simp only [near, Bool.false_eq_true, not_false_eq_true, and_true, Bool.not_eq_eq_eq_not, Bool.not_true]
        split_ifs <;> simp_all <;> omega
    · simp only [addToRegion]
      split_ifs with more
      · omega
      · exact small

theorem foldl_containsOpp (l : List Loc) (region : Region) :
    (l.foldl (b.addToRegion pla suicide) region).containsOpp =
      (region.containsOpp || l.any fun q => b.colors q = getOpp pla) := by
  induction l generalizing region with
  | nil => simp
  | cons q l ih =>
    rw [List.foldl_cons, ih, List.any_cons]
    simp only [addToRegion]
    split_ifs with theirs
    · simp [theirs]
    · simp [theirs]

theorem foldl_head (l : List Loc) (region : Region) :
    (l.foldl (b.addToRegion pla suicide) region).head = region.head := by
  induction l generalizing region with
  | nil => rfl
  | cons q l ih => rw [List.foldl_cons, ih]; rfl

/-- The links and the record of a region grow independently. -/
theorem foldl_visitRegion (l : List Loc) (s : RegionBuild) :
    l.foldl (b.visitRegion pla suicide) s =
      ⟨(l.foldl push (s.nextEmptyOrOpp, s.tailTarget)).1, (l.foldl push (s.nextEmptyOrOpp, s.tailTarget)).2,
        l.foldl (b.addToRegion pla suicide) s.region⟩ := by
  induction l generalizing s with
  | nil => rfl
  | cons q l ih => rw [List.foldl_cons, ih]; rfl

theorem adjacentPlaHeads_spec (as heads : List Loc) (nodup : heads.Nodup) :
    (as.foldl (fun heads adj =>
      if b.colors adj = pla ∧ b.chainHead adj ∉ heads then heads ++ [b.chainHead adj] else heads) heads).Nodup ∧
      ∀ h, h ∈ as.foldl (fun heads adj =>
        if b.colors adj = pla ∧ b.chainHead adj ∉ heads then heads ++ [b.chainHead adj] else heads) heads ↔
          h ∈ heads ∨ ∃ a ∈ as, b.colors a = pla ∧ b.chainHead a = h := by
  induction as generalizing heads with
  | nil => exact ⟨nodup, by simp⟩
  | cons a as ih =>
    rw [List.foldl_cons]
    split_ifs with new
    · obtain ⟨nodup', mem⟩ := ih (heads ++ [b.chainHead a]) (by simpa using nodup.concat new.2)
      refine ⟨nodup', fun h => (mem h).trans ?_⟩
      simp only [List.mem_append, List.mem_cons, List.not_mem_nil, or_false, exists_eq_or_imp, new.1, true_and]
      rw [or_assoc, eq_comm]
    · obtain ⟨nodup', mem⟩ := ih heads nodup
      refine ⟨nodup', fun h => (mem h).trans ?_⟩
      simp only [List.mem_cons, exists_eq_or_imp]
      constructor
      · rintro (old | found)
        · exact .inl old
        · exact .inr (.inr found)
      · rintro (old | ⟨mine, rfl⟩ | found)
        · exact .inl old
        · exact .inl (not_not.mp fun fresh => new ⟨mine, fresh⟩)
        · exact .inr found

theorem mem_adjacentPlaHeads : h ∈ b.adjacentPlaHeads pla p ↔ b.isAdjacentToPlaHead pla p h = true := by
  rw [adjacentPlaHeads, (b.adjacentPlaHeads_spec pla (b.adj p) [] List.nodup_nil).2 h]
  simp [isAdjacentToPlaHead]

theorem adjacentPlaHeads_nodup (p : Loc) : (b.adjacentPlaHeads pla p).Nodup :=
  (b.adjacentPlaHeads_spec pla (b.adj p) [] List.nodup_nil).1

end Record

variable [Zobrist]

/-- Next to a chain of the player, by its head or by its stones. -/
theorem isAdjacentToPlaHead_iff (consistent : b.Consistent) (player : pla.IsStone) (mine : b.colors y = pla) :
    b.isAdjacentToPlaHead pla q (b.chainHead y) = true ↔ Benson.Touches (grid b.xSize) b.colors y q := by
  have stone : (b.colors y).IsStone := by rw [mine]; exact player
  simp only [isAdjacentToPlaHead, List.any_eq_true, decide_eq_true_eq]
  constructor
  · rintro ⟨a, adjacent, label, head⟩
    refine ⟨a, (consistent.inChain_iff stone).mp ⟨?_, head⟩, adjacent⟩
    rw [label]
    exact player
  · rintro ⟨a, chain, adjacent⟩
    exact ⟨a, adjacent, chain.label.trans mine, ((consistent.inChain_iff stone).mpr chain).2⟩

omit [Zobrist] in
theorem isAdjacentToPla_iff : b.isAdjacentToPla q pla = true ↔ ∃ a ∈ b.adj q, b.colors a = pla := by
  simp [isAdjacentToPla]

/-- A region that has been searched: what its record says, and the circle of its points. -/
structure RegionOk (b : Board) (pla : Player) (player : pla.IsStone) (suicide : Bool) (next : Loc → Loc)
    (region : Region) : Prop where
  head : b.colors region.head = .empty
  vital : ∀ y, b.colors y = pla → (b.chainHead y ∈ region.vitalForPlaHeads ↔
    Benson.Vital (grid b.xSize) (side pla player) (suicide = true) b.colors region.head y)
  nodup : region.vitalForPlaHeads.Nodup
  small : region.numInternalSpacesMax2 ≤ 1 ↔ Benson.Small (grid b.xSize) (side pla player) b.colors region.head
  clear : region.containsOpp = false ↔ Benson.Clear (grid b.xSize) (side pla player) b.colors region.head
  points : ∃ l, l.Nodup ∧ (∀ x, x ∈ l ↔ b.SameRegion pla player region.head x) ∧ Linked next l

omit [Zobrist] in
theorem countP_le_one_iff {l : List Loc} {P : Loc → Bool} (nodup : l.Nodup) :
    l.countP P ≤ 1 ↔ ∀ x ∈ l, ∀ y ∈ l, P x = true → P y = true → x = y := by
  rw [List.countP_eq_length_filter, ← List.toFinset_card_of_nodup (nodup.filter P), Finset.card_le_one]
  simp only [List.mem_toFinset, List.mem_filter]
  constructor
  · intro same x inX y inY first second
    exact same x ⟨inX, first⟩ y ⟨inY, second⟩
  · intro same x first y second
    exact same x first.1 y second.1 first.2 second.2

/-- The record of a region, from the list of its points. -/
theorem regionOk_of_points (consistent : b.Consistent) (player : pla.IsStone) {next : Loc → Loc} {l : List Loc}
    (free : b.colors p = .empty) (nodup : (p :: l).Nodup) (mem : ∀ x, x ∈ p :: l ↔ b.SameRegion pla player p x)
    (links : ∃ l', (∀ x, x ∈ l' ↔ x ∈ p :: l) ∧ l'.Nodup ∧ Linked next l') :
    b.RegionOk pla player suicide next
      ((p :: l).foldl (b.addToRegion pla suicide) ⟨p, b.adjacentPlaHeads pla p, 0, false⟩) := by
  have head := b.foldl_head pla suicide (p :: l) ⟨p, b.adjacentPlaHeads pla p, 0, false⟩
  refine ⟨by rw [head]; exact free, fun y mine => ?_, ?_, ?_, ?_, ?_⟩
  · rw [b.foldl_vital, List.mem_filter, mem_adjacentPlaHeads, decide_eq_true_eq, head]
    constructor
    · rintro ⟨-, all⟩ q region point
      exact (isAdjacentToPlaHead_iff consistent player mine).mp (all q ((mem q).mpr region) point)
    · intro vital
      have all : ∀ q ∈ p :: l, suicide = true ∨ b.colors q = .empty →
          b.isAdjacentToPlaHead pla q (b.chainHead y) = true := by
        intro q inside point
        exact (isAdjacentToPlaHead_iff consistent player mine).mpr (vital q ((mem q).mp inside) point)
      exact ⟨all p List.mem_cons_self (.inr free), all⟩
  · rw [b.foldl_vital]
    exact (b.adjacentPlaHeads_nodup pla p).filter _
  · rw [b.foldl_internal _ _ _ _ (Nat.zero_le 2), head]
    have count : min 2 (0 + (p :: l).countP fun q => !b.isAdjacentToPla q pla) ≤ 1 ↔
        ((p :: l).countP fun q => !b.isAdjacentToPla q pla) ≤ 1 := by omega
    rw [count, countP_le_one_iff nodup]
    have internal : ∀ q, Benson.Internal (grid b.xSize) (side pla player) b.colors p q ↔
        q ∈ p :: l ∧ (!b.isAdjacentToPla q pla) = true := by
      intro q
      rw [mem q, Bool.not_eq_true', ← Bool.not_eq_true, isAdjacentToPla_iff]
      simp only [Benson.Internal, not_exists, not_and]
      exact Iff.rfl
    simp only [Benson.Small, internal]
    constructor
    · intro same q r first second
      exact same q first.1 r second.1 first.2 second.2
    · intro same q inside r inside' first second
      exact same q r ⟨inside, first⟩ ⟨inside', second⟩
  · rw [b.foldl_containsOpp, Bool.false_or, List.any_eq_false, head]
    simp only [decide_eq_true_eq, Benson.Clear]
    exact forall_congr' fun q => imp_congr_left (mem q)
  · obtain ⟨l', same, distinct, linked⟩ := links
    refine ⟨l', distinct, fun x => ?_, linked⟩
    rw [same, head]
    exact mem x

/-- The state of the scan after the locations `seen`: every region found so far is on record, and
its points have its index. -/
structure Scanned (b : Board) (pla : Player) (player : pla.IsStone) (suicide : Bool) (seen : List Loc)
    (scan : RegionScan) : Prop where
  labels : ∀ x i, scan.regionIdxByLoc x = some i ↔
    ∃ region, scan.regions[i]? = some region ∧ b.SameRegion pla player region.head x
  regions : ∀ region ∈ scan.regions, b.RegionOk pla player suicide scan.nextEmptyOrOpp region
  covered : ∀ x ∈ seen, b.colors x = .empty → scan.regionIdxByLoc x ≠ none
  pla : scan.atLeastOnePla = true ↔ ∃ x ∈ seen, b.colors x = pla

omit [Zobrist] in
theorem Scanned.closed {seen : List Loc} {scan : RegionScan} {player : pla.IsStone}
    (scanned : b.Scanned pla player suicide seen scan) (labelled : scan.regionIdxByLoc x ≠ none)
    (same : b.SameRegion pla player x y) : scan.regionIdxByLoc y ≠ none := by
  obtain ⟨i, label⟩ := Option.ne_none_iff_exists'.mp labelled
  obtain ⟨region, found, inside⟩ := (scanned.labels x i).mp label
  have label' := (scanned.labels y i).mpr ⟨region, found, inside.trans same⟩
  rw [label']
  exact Option.some_ne_none i

omit [Zobrist] in
theorem RegionOk.relink {player : pla.IsStone} {next next' : Loc → Loc} {region : Region}
    (ok : b.RegionOk pla player suicide next region)
    (same : ∀ x, b.SameRegion pla player region.head x → next' x = next x) :
    b.RegionOk pla player suicide next' region := by
  obtain ⟨l, nodup, mem, linked⟩ := ok.points
  refine ⟨ok.head, ok.vital, ok.nodup, ok.small, ok.clear, l, nodup, mem, ?_⟩
  exact linked_congr (fun x inside => same x ((mem x).mp inside)) linked

omit [Zobrist] in
/-- The index of a new region is the number of the old ones. -/
theorem Scanned.labels_concat {player : pla.IsStone} {seen l : List Loc} {scan : RegionScan} {region : Region}
    (scanned : b.Scanned pla player suicide seen scan) (fresh : scan.regionIdxByLoc region.head = none)
    (members : ∀ x, x ∈ l ↔ b.SameRegion pla player region.head x) (x : Loc) (i : Nat) :
    (if x ∈ l then some scan.regions.length else scan.regionIdxByLoc x) = some i ↔
      ∃ r, (scan.regions ++ [region])[i]? = some r ∧ b.SameRegion pla player r.head x := by
  have old : ∀ r, scan.regions[i]? = some r → b.SameRegion pla player r.head x → x ∉ l := by
    intro r found inside member
    have label := (scanned.labels x i).mpr ⟨r, found, inside⟩
    have there := scanned.closed (label ▸ Option.some_ne_none i) ((members x).mp member).symm
    exact there fresh
  constructor
  · intro label
    split at label
    next member =>
      cases label
      exact ⟨region, List.getElem?_concat_length, (members x).mp member⟩
    next =>
      obtain ⟨r, found, inside⟩ := (scanned.labels x i).mp label
      exact ⟨r, by rw [List.getElem?_append_left (List.getElem?_eq_some_iff.mp found).1, found], inside⟩
  · rintro ⟨r, found, inside⟩
    rw [List.getElem?_append] at found
    split at found
    next short =>
      rw [if_neg (old r found inside)]
      exact (scanned.labels x i).mpr ⟨r, found, inside⟩
    next long =>
      have here : i = scan.regions.length := by
        have bound := (List.getElem?_eq_some_iff.mp found).1
        simp only [List.length_singleton] at bound
        omega
      subst here
      rw [Nat.sub_self] at found
      cases found
      rw [if_pos ((members x).mpr inside)]

/-- A new region, whose points a search has visited in some order. -/
theorem Scanned.addRegion (consistent : b.Consistent) {player : pla.IsStone} {seen l : List Loc} {scan : RegionScan}
    (scanned : b.Scanned pla player suicide seen scan) (free : b.colors loc = .empty)
    (fresh : scan.regionIdxByLoc loc = none) (nodup : (loc :: l).Nodup)
    (members : ∀ x, x ∈ loc :: l ↔ b.SameRegion pla player loc x) :
    b.Scanned pla player suicide (seen ++ [loc]) { scan with
      regionIdxByLoc := fun x => if x ∈ loc :: l then some scan.regions.length else scan.regionIdxByLoc x
      nextEmptyOrOpp := Function.update ((loc :: l).foldl push (scan.nextEmptyOrOpp, loc)).1 loc
        ((loc :: l).foldl push (scan.nextEmptyOrOpp, loc)).2
      regions := scan.regions ++
        [(loc :: l).foldl (b.addToRegion pla suicide) ⟨loc, b.adjacentPlaHeads pla loc, 0, false⟩] } := by
  have head := b.foldl_head pla suicide (loc :: l) ⟨loc, b.adjacentPlaHeads pla loc, 0, false⟩
  refine ⟨?_, ?_, ?_, ?_⟩
  · refine scanned.labels_concat ?_ ?_
    · rw [head]
      exact fresh
    · rw [head]
      exact members
  · intro region member
    rcases List.mem_append.mp member with old | new
    · refine (scanned.regions region old).relink fun x there => ?_
      have outside : x ∉ loc :: l := by
        intro member
        obtain ⟨i, found⟩ := List.mem_iff_getElem?.mp old
        have label := (scanned.labels x i).mpr ⟨region, found, there⟩
        exact scanned.closed (label ▸ Option.some_ne_none i) ((members x).mp member).symm fresh
      have apart : x ≠ loc := fun same => outside (same ▸ List.mem_cons_self)
      exact (Function.update_of_ne apart _ _).trans (foldl_push_of_notMem outside)
    · obtain rfl := List.mem_singleton.mp new
      refine regionOk_of_points consistent player free nodup members ⟨loc :: l.reverse, ?_, ?_, linked_push nodup⟩
      · simp
      · simpa using nodup
  · intro x member blank
    show (if x ∈ loc :: l then some scan.regions.length else scan.regionIdxByLoc x) ≠ none
    split_ifs with new
    · exact Option.some_ne_none _
    · rcases List.mem_append.mp member with old | last
      · exact scanned.covered x old blank
      · exact absurd (List.mem_singleton.mp last ▸ List.mem_cons_self) new
  · show scan.atLeastOnePla = true ↔ _
    rw [scanned.pla]
    have other : b.colors loc ≠ pla := by
      rw [free]
      exact player.ne_empty.symm
    simp only [List.mem_append, List.mem_singleton, or_and_right, exists_or, exists_eq_left, other, or_false]

omit [Zobrist] in
/-- A stone that is in no region found so far. -/
theorem Scanned.addStone {player : pla.IsStone} {seen : List Loc} {scan : RegionScan}
    (scanned : b.Scanned pla player suicide seen scan) (filled : b.colors loc ≠ .empty) :
    b.Scanned pla player suicide (seen ++ [loc])
      { scan with atLeastOnePla := scan.atLeastOnePla || decide (b.colors loc = pla) } := by
  refine ⟨scanned.labels, scanned.regions, ?_, ?_⟩
  · intro x member blank
    rcases List.mem_append.mp member with old | last
    · exact scanned.covered x old blank
    · exact absurd (List.mem_singleton.mp last ▸ blank) filled
  · show (scan.atLeastOnePla || decide (b.colors loc = pla)) = true ↔ _
    rw [Bool.or_eq_true, scanned.pla, decide_eq_true_eq]
    simp only [List.mem_append, List.mem_singleton, or_and_right, exists_or, exists_eq_left]

omit [Zobrist] in
/-- A point of a region found before. -/
theorem Scanned.addLabelled {player : pla.IsStone} {seen : List Loc} {scan : RegionScan}
    (scanned : b.Scanned pla player suicide seen scan) (labelled : scan.regionIdxByLoc loc ≠ none) :
    b.Scanned pla player suicide (seen ++ [loc]) scan := by
  refine ⟨scanned.labels, scanned.regions, ?_, ?_⟩
  · intro x member blank
    rcases List.mem_append.mp member with old | last
    · exact scanned.covered x old blank
    · rw [List.mem_singleton.mp last]
      exact labelled
  · obtain ⟨i, label⟩ := Option.ne_none_iff_exists'.mp labelled
    obtain ⟨region, found, there⟩ := (scanned.labels loc i).mp label
    have space := there.space.mpr (.inl (scanned.regions region (List.mem_of_getElem? found)).head)
    have other : b.colors loc ≠ pla := by
      rcases space with free | theirs
      · rw [free]
        exact player.ne_empty.symm
      · rw [theirs]
        exact player.opp_ne
    rw [scanned.pla]
    simp only [List.mem_append, List.mem_singleton, or_and_right, exists_or, exists_eq_left, other, or_false]

theorem Scanned.buildRegion (consistent : b.Consistent) {player : pla.IsStone} {seen : List Loc} {scan : RegionScan}
    (scanned : b.Scanned pla player suicide seen scan) (free : b.colors loc = .empty)
    (fresh : scan.regionIdxByLoc loc = none) :
    ∃ scan', b.buildRegion pla suicide scan loc = some scan' ∧
      b.Scanned pla player suicide (seen ++ [loc]) scan' := by
  have space : b.isEmptyOrOpp pla loc = true := (isEmptyOrOpp_iff player).mpr (.inl free)
  have inside : ∀ a, b.isEmptyOrOpp pla a = true → a ∈ b.locs.toFinset := by
    intro a point
    exact List.mem_toFinset.mpr (consistent.shape.mem_locs (isEmptyOrOpp_ne_wall player point))
  have enough : b.locs.toFinset.card < maxArrSize + 1 :=
    Nat.lt_succ_of_le (card_boardLocs_le consistent.wide.2 consistent.high.2)
  obtain ⟨l, found, nodup, mem⟩ : ∃ l, Search.search b.adj (b.isEmptyOrOpp pla) scan.regions.length
      (b.visitRegion pla suicide) (maxArrSize + 1) scan.regionIdxByLoc
      ⟨scan.nextEmptyOrOpp, loc, ⟨loc, b.adjacentPlaHeads pla loc, 0, false⟩⟩ loc = some _ ∧ _ :=
    Search.search_spec space fresh inside enough
  have members : ∀ x, x ∈ loc :: l ↔ b.SameRegion pla player loc x := fun x =>
    (mem x).trans (reach_iff player space fresh fun x y labelled same => scanned.closed labelled same)
  rw [b.foldl_visitRegion] at found
  rw [Board.buildRegion, found]
  exact ⟨_, rfl, scanned.addRegion consistent free fresh nodup members⟩

/-- One location of the scan. -/
theorem Scanned.scanLoc (consistent : b.Consistent) {player : pla.IsStone} {seen : List Loc} {scan : RegionScan}
    (scanned : b.Scanned pla player suicide seen scan) (loc : Loc) :
    ∃ scan', b.scanLoc pla suicide scan loc = some scan' ∧
      b.Scanned pla player suicide (seen ++ [loc]) scan' := by
  unfold Board.scanLoc
  by_cases labelled : scan.regionIdxByLoc loc = none
  · rw [if_neg (not_not.mpr labelled)]
    by_cases free : b.colors loc = .empty
    · rw [if_neg (not_not.mpr free)]
      exact scanned.buildRegion consistent free labelled
    · rw [if_pos free]
      exact ⟨_, rfl, scanned.addStone free⟩
  · rw [if_pos labelled]
    exact ⟨_, rfl, scanned.addLabelled labelled⟩

/-- The scan finds all regions. -/
theorem findRegions_spec (consistent : b.Consistent) (player : pla.IsStone) (suicide : Bool) :
    ∃ scan, b.findRegions pla suicide = some scan ∧ b.Scanned pla player suicide b.locs scan := by
  have loop : ∀ (rest seen : List Loc) (scan : RegionScan), b.Scanned pla player suicide seen scan →
      ∃ scan', rest.foldlM (b.scanLoc pla suicide) scan = some scan' ∧
        b.Scanned pla player suicide (seen ++ rest) scan' := by
    intro rest
    induction rest with
    | nil =>
      intro seen scan scanned
      exact ⟨scan, rfl, by simpa using scanned⟩
    | cons loc rest ih =>
      intro seen scan scanned
      obtain ⟨scan', step, scanned'⟩ := scanned.scanLoc consistent loc
      obtain ⟨scan'', steps, final⟩ := ih _ _ scanned'
      refine ⟨scan'', ?_, by simpa using final⟩
      rw [List.foldlM_cons, step]
      exact steps
  apply loop b.locs []
  exact ⟨by simp, by simp, by simp, by simp⟩

/-- After the scan every point without a stone of the player is in a region, since every
chain of the opponent has a liberty. -/
theorem Scanned.exists_region (consistent : b.Consistent) {player : pla.IsStone} {scan : RegionScan}
    (scanned : b.Scanned pla player suicide b.locs scan)
    (space : Benson.Space (side pla player) b.colors x) :
    ∃ i region, scan.regions[i]? = some region ∧ scan.regionIdxByLoc x = some i ∧
      b.SameRegion pla player region.head x := by
  have covered : ∀ e, b.colors e = .empty → scan.regionIdxByLoc e ≠ none := by
    intro e free
    refine scanned.covered e (consistent.shape.mem_locs ?_) free
    rw [free]
    exact Color.noConfusion
  have labelled : scan.regionIdxByLoc x ≠ none := by
    rcases space with free | theirs
    · exact covered x free
    · have stone : (b.colors x).IsStone := by
        rw [theirs]
        exact player.opp
      obtain ⟨e, free, y, chain, adjacent⟩ := consistent.allAlive x stone
      refine scanned.closed (covered e free) (Benson.Region.symm ?_)
      exact Benson.region_of_touches theirs ⟨y, chain, adjacent.symm⟩ free
  obtain ⟨i, label⟩ := Option.ne_none_iff_exists'.mp labelled
  obtain ⟨region, found, there⟩ := (scanned.labels x i).mp label
  exact ⟨i, region, found, label, there⟩

omit [Zobrist] in
/-- The regions are different. -/
theorem Scanned.index_unique {player : pla.IsStone} {seen : List Loc} {scan : RegionScan} {i j : Nat}
    {region region' : Region} (scanned : b.Scanned pla player suicide seen scan)
    (found : scan.regions[i]? = some region) (found' : scan.regions[j]? = some region')
    (same : b.SameRegion pla player region.head region'.head) : i = j := by
  have first := (scanned.labels region'.head i).mpr ⟨region, found, same⟩
  have second := (scanned.labels region'.head j).mpr ⟨region', found', Benson.Region.refl _⟩
  exact Option.some.inj (first.symm.trans second)

end Board
end KataGo.Game
