import KataGo.Game.MoveEffect
import KataGo.Lib.Loops

/-! `Board::getNumLibertiesAfterPlay` and `Board::getBoundNumLibertiesAfterPlay`: the liberties of a new stone,
without playing it. -/

namespace KataGo.Game
open KataGo.Lib CircularList Labelling

namespace Board

/-- Add a location to the buffer, and return `max` from the whole function when it gets that long. -/
def pushLib (max : Int) (libs : List Loc) (p : Loc) : ExceptT Int Option (List Loc) :=
  if (libs ++ [p]).length ≥ max then throw max else return libs ++ [p]

/-- The first loop: immediate liberties, and groups that would be captured. -/
def libImmediate (b : Board) (pla : Player) (max : Int) (s : List Loc × List Loc) (adj : Loc) :
    ExceptT Int Option (List Loc × List Loc) :=
  if b.colors adj = .empty then do
    let libs ← pushLib max s.1 adj
    return (libs, s.2)
  else if b.colors adj = getOpp pla ∧ b.getNumLiberties adj = 1 then do
    let libs ← pushLib max s.1 adj
    return (libs, pushNew s.2 (b.chainHead adj))
  else return s

def wouldBeEmpty (b : Board) (pla : Player) (capturedGroupHeads : List Loc) (lc : Loc) : Bool :=
  b.colors lc = .empty ∨ (b.colors lc = getOpp pla ∧ b.chainHead lc ∈ capturedGroupHeads)

def libAround (b : Board) (loc : Loc) (pla : Player) (max : Int) (capturedGroupHeads : List Loc) (libs : List Loc)
    (possibleLib : Loc) : ExceptT Int Option (List Loc) :=
  if possibleLib ≠ loc ∧ b.wouldBeEmpty pla capturedGroupHeads possibleLib ∧ possibleLib ∉ libs then
    pushLib max libs possibleLib
  else return libs

/-- The second loop: all stones of the groups that the new stone would connect with. -/
def libConnect (b : Board) (loc : Loc) (pla : Player) (max : Int) (capturedGroupHeads : List Loc)
    (s : List Loc × List Loc) (adj : Loc) : ExceptT Int Option (List Loc × List Loc) :=
  if b.colors adj = pla ∧ b.chainHead adj ∉ s.2 then do
    let stones ← ExceptT.lift (b.chainLocs adj)
    let libs ← stones.foldlM (fun libs cur =>
      (b.adj cur).foldlM (b.libAround loc pla max capturedGroupHeads) libs) s.1
    return (libs, s.2 ++ [b.chainHead adj])
  else return s

def getNumLibertiesAfterPlay (b : Board) (loc : Loc) (pla : Player) (max : Int) : Option Int := do
  let result ← ExceptT.run do
    let (libs, capturedGroupHeads) ← (b.adj loc).foldlM (b.libImmediate pla max) ([], [])
    let (libs, _) ← (b.adj loc).foldlM (b.libConnect loc pla max capturedGroupHeads) (libs, [])
    return (libs.length : Int)
  match result with
  | .ok numLibs => return numLibs
  | .error max => return max

/-- The counters of `getBoundNumLibertiesAfterPlay`. -/
structure BoundState where
  numImmediateLibs : Int
  numCaps : Int
  potentialLibsFromCaps : Int
  numConnectionLibs : Int
  maxConnectionLibs : Int

def boundDir (b : Board) (pla : Player) (s : BoundState) (adj : Loc) : BoundState :=
  if b.colors adj = .empty then { s with numImmediateLibs := s.numImmediateLibs + 1 }
  else if b.colors adj = getOpp pla then
    if b.getNumLiberties adj = 1 then
      { s with
        numCaps := s.numCaps + 1
        potentialLibsFromCaps := s.potentialLibsFromCaps + b.getChainSize adj }
    else s
  else if b.colors adj = pla then
    let connLibs := b.getNumLiberties adj - 1
    { s with
      numConnectionLibs := s.numConnectionLibs + connLibs
      maxConnectionLibs := if connLibs > s.maxConnectionLibs then connLibs else s.maxConnectionLibs }
  else s

/-- The lower and the upper bound. -/
def getBoundNumLibertiesAfterPlay (b : Board) (loc : Loc) (pla : Player) : Int × Int :=
  let s := (b.adj loc).foldl (b.boundDir pla) ⟨0, 0, 0, 0, 0⟩
  (s.numCaps + (if s.maxConnectionLibs > s.numImmediateLibs then s.maxConnectionLibs else s.numImmediateLibs),
    s.numImmediateLibs + s.potentialLibsFromCaps + s.numConnectionLibs)

/-- The liberties of the new stone. -/
def libertiesAfter (b : Board) (loc : Loc) (pla : Player) : Set Loc :=
  {e | b.BecomesEmpty loc pla e ∧ b.NextToJoined loc pla e}

variable [Zobrist] {b b' : Board} {loc a e q : Loc} {pla : Player}

section Count

variable (consistent : b.Consistent) (blank : b.colors loc = .empty) (player : pla.IsStone)
include consistent blank player

omit [Zobrist] consistent blank player in
theorem not_becomesEmpty_wall (wall : b.colors e = .wall) (player : pla.IsStone) : ¬ b.BecomesEmpty loc pla e := by
  rintro ⟨-, free | ⟨a, captured, inside⟩⟩
  · exact absurd (wall.symm.trans free) (by decide)
  · have theirs : b.colors e = getOpp pla := (Chain.label inside).trans captured.2.1
    exact player.opp.ne_wall (theirs.symm.trans wall)

omit blank in
theorem libertiesAfter_finite : (b.libertiesAfter loc pla).Finite := by
  refine Set.Finite.subset (Finset.finite_toSet b.locs.toFinset) fun e found => ?_
  rw [Finset.mem_coe, List.mem_toFinset]
  exact consistent.shape.mem_locs fun wall => not_becomesEmpty_wall wall player found.1

/-- What the chain of the new stone has when the move is made, and nothing when the stone does not survive. -/
theorem numLiberties_played (played : Played b b' loc pla) :
    (if b'.colors loc = .empty then 0 else b'.getNumLiberties loc) = (b.libertiesAfter loc pla).ncard := by
  have members : ∀ e, Liberty (grid b.xSize) .empty (b.afterCaptures loc pla) loc e ↔ e ∈ b.libertiesAfter loc pla :=
    fun e => liberty_afterCaptures_iff consistent blank player
  by_cases alive : ∃ e, Liberty (grid b.xSize) .empty (b.afterCaptures loc pla) loc e
  · have colour : b'.colors loc = pla := by rw [played.colors_of_alive alive, afterCaptures_loc player]
    rw [colour, if_neg player.ne_empty, played.consistent.regular.getNumLiberties (by rw [colour]; exact player)]
    congr 2
    ext e
    rw [← members, liberties, played.xSize, played.colors_of_alive alive]
    rfl
  · have none : b.libertiesAfter loc pla = ∅ := by
      refine Set.eq_empty_of_forall_notMem fun e found => alive ⟨e, (members e).2 found⟩
    rw [if_pos ((played.colors_loc_iff player).2 alive), none, Set.ncard_empty, Nat.cast_zero]

/-- The buffer holds liberties of the new stone, among them those that are needed, and is not full. -/
structure Gathered (b : Board) (loc : Loc) (pla : Player) (max : Int) (need : Loc → Prop) (libs : List Loc) : Prop where
  nodup : libs.Nodup
  room : (libs.length : Int) < max
  sound : ∀ x ∈ libs, x ∈ b.libertiesAfter loc pla
  all : ∀ x, need x → x ∈ libs

/-- An early return is right. -/
def Full (b : Board) (loc : Loc) (pla : Player) (max n : Int) : Prop :=
  n = max ∧ max ≤ ((b.libertiesAfter loc pla).ncard : Int)

variable {max : Int} {need need' : Loc → Prop} {libs : List Loc}

omit [Zobrist] consistent blank player in
theorem Gathered.mono (gathered : Gathered b loc pla max need libs) (fewer : ∀ x, need' x → need x) :
    Gathered b loc pla max need' libs :=
  ⟨gathered.nodup, gathered.room, gathered.sound, fun x needed => gathered.all x (fewer x needed)⟩

omit blank in
theorem Gathered.push (gathered : Gathered b loc pla max need libs) (fresh : a ∉ libs)
    (liberty : a ∈ b.libertiesAfter loc pla) :
    Ends (pushLib max libs a) (fun libs' => libs' = libs ++ [a] ∧ Gathered b loc pla max (fun x => need x ∨ x = a) libs')
      (Full b loc pla max) := by
  have nodup : (libs ++ [a]).Nodup := List.nodup_append.mpr ⟨gathered.nodup, List.nodup_singleton a,
    fun x member y single same => fresh (List.mem_singleton.mp single ▸ same ▸ member)⟩
  have sound : ∀ x ∈ libs ++ [a], x ∈ b.libertiesAfter loc pla := by
    intro x member
    rcases List.mem_append.1 member with old | new
    · exact gathered.sound x old
    · rwa [List.mem_singleton.1 new]
  unfold pushLib
  split_ifs with long
  · refine Ends.throw ⟨rfl, le_trans long ?_⟩
    rw [← List.toFinset_card_of_nodup nodup, ← Set.ncard_coe_finset, Nat.cast_le]
    refine Set.ncard_le_ncard (fun x member => sound x ?_) (libertiesAfter_finite consistent player)
    exact List.mem_toFinset.1 (Finset.mem_coe.1 member)
  · refine Ends.pure ⟨rfl, nodup, not_le.1 long, sound, ?_⟩
    rintro x (old | rfl)
    · exact List.mem_append_left _ (gathered.all x old)
    · exact List.mem_append_right _ (List.mem_singleton_self x)

omit blank in
theorem libImmediate_loop (positive : 1 ≤ max) :
    Ends ((b.adj loc).foldlM (b.libImmediate pla max) ([], []))
      (fun s => Gathered b loc pla max (fun x => b.BecomesEmpty loc pla x ∧ x ∈ b.adj loc) s.1 ∧
        ∀ h, h ∈ s.2 ↔ ∃ a, b.CapturedDir loc pla a ∧ b.chainHead a = h) (Full b loc pla max) := by
  have step : ∀ seen a rest s, seen ++ a :: rest = b.adj loc →
      (Gathered b loc pla max (fun x => x ∈ seen ∧ (b.colors x = .empty ∨ b.CapturedDir loc pla x)) s.1 ∧
        (∀ x ∈ s.1, x ∈ seen) ∧ ∀ h, h ∈ s.2 ↔ ∃ a ∈ seen, b.CapturedDir loc pla a ∧ b.chainHead a = h) →
      Ends (b.libImmediate pla max s a)
        (fun s => Gathered b loc pla max (fun x => x ∈ seen ++ [a] ∧ (b.colors x = .empty ∨ b.CapturedDir loc pla x)) s.1 ∧
          (∀ x ∈ s.1, x ∈ seen ++ [a]) ∧ ∀ h, h ∈ s.2 ↔ ∃ x ∈ seen ++ [a], b.CapturedDir loc pla x ∧ b.chainHead x = h)
        (Full b loc pla max) := by
    rintro seen a rest ⟨libs, heads⟩ split ⟨gathered, within, known⟩
    have near : a ∈ b.adj loc := by rw [← split]; simp
    have fresh : a ∉ libs := by
      intro member
      have nodup := consistent.shape.adj_nodup loc
      rw [← split, List.nodup_append] at nodup
      exact nodup.2.2 a (within a member) a List.mem_cons_self rfl
    have inside : ∀ x ∈ libs ++ [a], x ∈ seen ++ [a] := by
      intro x member
      rcases List.mem_append.1 member with old | new
      · exact List.mem_append_left _ (within x old)
      · exact List.mem_append_right _ new
    have needs : ∀ x, x ∈ seen ++ [a] ∧ (b.colors x = .empty ∨ b.CapturedDir loc pla x) →
        (x ∈ seen ∧ (b.colors x = .empty ∨ b.CapturedDir loc pla x)) ∨ x = a := by
      rintro x ⟨member, counts⟩
      exact (List.mem_append.1 member).imp (fun old => ⟨old, counts⟩) List.mem_singleton.1
    have heads' : ∀ h, (∃ x ∈ seen ++ [a], b.CapturedDir loc pla x ∧ b.chainHead x = h) ↔
        h ∈ heads ∨ b.CapturedDir loc pla a ∧ b.chainHead a = h := by
      intro h
      rw [known]
      simp only [List.mem_append, List.mem_singleton, or_and_right, exists_or, exists_eq_left]
    rw [libImmediate]
    by_cases free : b.colors a = .empty
    · rw [if_pos free]
      have liberty : a ∈ b.libertiesAfter loc pla := ⟨⟨ne_of_mem_adj near, Or.inl free⟩, Or.inl near⟩
      refine (gathered.push consistent player fresh liberty).bind ?_
      rintro libs' ⟨rfl, gathered'⟩
      refine Ends.pure ⟨gathered'.mono needs, inside, fun h => ?_⟩
      rw [heads', or_iff_left]
      exact fun found => player.opp.ne_empty (found.1.2.1.symm.trans free)
    rw [if_neg free]
    by_cases group : b.colors a = getOpp pla ∧ b.getNumLiberties a = 1
    · rw [if_pos group]
      have captured : b.CapturedDir loc pla a := ⟨near, group⟩
      have liberty : a ∈ b.libertiesAfter loc pla :=
        ⟨⟨ne_of_mem_adj near, Or.inr ⟨a, captured, Chain.refl a⟩⟩, Or.inl near⟩
      refine (gathered.push consistent player fresh liberty).bind ?_
      rintro libs' ⟨rfl, gathered'⟩
      refine Ends.pure ⟨gathered'.mono needs, inside, fun h => ?_⟩
      rw [heads', mem_pushNew, and_iff_right captured, eq_comm (a := h)]
    · rw [if_neg group]
      refine Ends.pure ⟨gathered.mono ?_, fun x member => List.mem_append_left _ (within x member), fun h => ?_⟩
      · rintro x counts
        refine (needs x counts).resolve_right ?_
        rintro rfl
        exact counts.2.elim free fun captured => group captured.2
      · rw [heads', or_iff_left]
        exact fun found => group found.1.2
  refine (Ends.foldlM _ step ⟨⟨List.nodup_nil, ?_, by simp, by simp⟩, by simp, by simp⟩).imp ?_
  · exact lt_of_lt_of_le zero_lt_one positive
  · rintro s ⟨gathered, -, known⟩
    refine ⟨gathered.mono ?_, fun h => (known h).trans ⟨?_, ?_⟩⟩
    · rintro x ⟨⟨-, free | ⟨a, captured, inside⟩⟩, near⟩
      · exact ⟨near, Or.inl free⟩
      · have theirs : b.colors x = getOpp pla := (Chain.label inside).trans captured.2.1
        refine ⟨near, Or.inr ⟨near, theirs, ?_⟩⟩
        rw [getNumLiberties, consistent.shared a x (by rw [captured.2.1]; exact player.opp) inside]
        exact captured.2.2
    · rintro ⟨a, -, captured, same⟩
      exact ⟨a, captured, same⟩
    · rintro ⟨a, captured, same⟩
      exact ⟨a, captured.1, captured, same⟩

section Around

variable {heads : List Loc} (known : ∀ h, h ∈ heads ↔ ∃ a, b.CapturedDir loc pla a ∧ b.chainHead a = h) {N : Loc → Prop}
include known

omit blank in
theorem wouldBeEmpty_iff (apart : e ≠ loc) : b.wouldBeEmpty pla heads e = true ↔ b.BecomesEmpty loc pla e := by
  rw [wouldBeEmpty, decide_eq_true_eq, BecomesEmpty, and_iff_right apart, known]
  refine or_congr_right ⟨?_, ?_⟩
  · rintro ⟨theirs, a, captured, same⟩
    have stone : (b.colors a).IsStone := by rw [captured.2.1]; exact player.opp
    exact ⟨a, captured, (consistent.regular.component a e stone).1 ⟨by rw [theirs]; exact player.opp, same.symm⟩⟩
  · rintro ⟨a, captured, inside⟩
    have stone : (b.colors a).IsStone := by rw [captured.2.1]; exact player.opp
    exact ⟨(Chain.label inside).trans captured.2.1, a, captured, (consistent.shared a e stone inside).symm⟩

omit blank in
theorem libAround_loop (near : a ∈ b.adj loc) (mine : b.colors a = pla) (inside : q ∈ b.component a)
    (gathered : Gathered b loc pla max (fun x => b.BecomesEmpty loc pla x ∧ N x) libs) :
    Ends ((b.adj q).foldlM (b.libAround loc pla max heads) libs)
      (Gathered b loc pla max fun x => b.BecomesEmpty loc pla x ∧ (N x ∨ x ∈ b.adj q)) (Full b loc pla max) := by
  refine Ends.foldlM (fun seen libs => Gathered b loc pla max
    (fun x => b.BecomesEmpty loc pla x ∧ (N x ∨ x ∈ seen)) libs) ?_ (gathered.mono ?_)
  · intro seen x rest libs split gathered
    have adjacent : x ∈ b.adj q := by rw [← split]; simp
    rw [libAround]
    split_ifs with test
    · obtain ⟨apart, free, fresh⟩ := test
      have becomes := (wouldBeEmpty_iff consistent player known apart).1 free
      refine (gathered.push consistent player fresh ⟨becomes, Or.inr ⟨a, near, mine, q, inside, adjacent⟩⟩).imp ?_
      rintro libs' ⟨-, gathered'⟩
      refine gathered'.mono ?_
      rintro y ⟨becomes', old | member⟩
      · exact Or.inl ⟨becomes', Or.inl old⟩
      · exact (List.mem_append.1 member).imp (fun old => ⟨becomes', Or.inr old⟩) List.mem_singleton.1
    · refine Ends.pure ⟨gathered.nodup, gathered.room, gathered.sound, ?_⟩
      rintro y ⟨becomes, old | member⟩
      · exact gathered.all y ⟨becomes, Or.inl old⟩
      · rcases List.mem_append.1 member with old | new
        · exact gathered.all y ⟨becomes, Or.inr old⟩
        · obtain rfl := List.mem_singleton.1 new
          by_contra fresh
          exact test ⟨becomes.1, (wouldBeEmpty_iff consistent player known becomes.1).2 becomes, fresh⟩
  · rintro x ⟨becomes, old | member⟩
    · exact ⟨becomes, old⟩
    · exact absurd member List.not_mem_nil

omit blank in
theorem libConnect_loop
    (gathered : Gathered b loc pla max (fun x => b.BecomesEmpty loc pla x ∧ x ∈ b.adj loc) libs) :
    Ends ((b.adj loc).foldlM (b.libConnect loc pla max heads) (libs, []))
      (fun s => Gathered b loc pla max (fun x => b.BecomesEmpty loc pla x ∧ b.NextToJoined loc pla x) s.1)
      (Full b loc pla max) := by
  -- What the groups next to the neighbours `seen` contribute.
  obtain ⟨N, near⟩ : ∃ N : List Loc → Loc → Prop, ∀ seen x, N seen x ↔ x ∈ b.adj loc ∨
    ∃ a ∈ seen, b.colors a = pla ∧ ∃ q ∈ b.component a, x ∈ b.adj q := ⟨_, fun _ _ => Iff.rfl⟩
  have more : ∀ seen a x, N (seen ++ [a]) x ↔ N seen x ∨ b.colors a = pla ∧ ∃ q ∈ b.component a, x ∈ b.adj q := by
    intro seen a x
    rw [near, near]
    simp only [List.mem_append, List.mem_singleton, or_and_right, exists_or, exists_eq_left, or_assoc]
  have step : ∀ seen a rest s, seen ++ a :: rest = b.adj loc →
      (Gathered b loc pla max (fun x => b.BecomesEmpty loc pla x ∧ N seen x) s.1 ∧
        ∀ h, h ∈ s.2 ↔ ∃ x ∈ seen, b.colors x = pla ∧ b.chainHead x = h) →
      Ends (b.libConnect loc pla max heads s a)
        (fun s => Gathered b loc pla max (fun x => b.BecomesEmpty loc pla x ∧ N (seen ++ [a]) x) s.1 ∧
          ∀ h, h ∈ s.2 ↔ ∃ x ∈ seen ++ [a], b.colors x = pla ∧ b.chainHead x = h) (Full b loc pla max) := by
    rintro seen a rest ⟨libs, groups⟩ split ⟨gathered, visited⟩
    have adjacent : a ∈ b.adj loc := by rw [← split]; simp
    have visited' : ∀ h, (∃ x ∈ seen ++ [a], b.colors x = pla ∧ b.chainHead x = h) ↔
        h ∈ groups ∨ b.colors a = pla ∧ b.chainHead a = h := by
      intro h
      rw [visited]
      simp only [List.mem_append, List.mem_singleton, or_and_right, exists_or, exists_eq_left]
    rw [libConnect]
    by_cases fresh : b.colors a = pla ∧ b.chainHead a ∉ groups
    · rw [if_pos fresh]
      obtain ⟨mine, -⟩ := fresh
      have stone : (b.colors a).IsStone := by rw [mine]; exact player
      obtain ⟨t, walked, ring, -⟩ :=
        (consistent.regular.chainOk stone).chainLocs consistent.regular.shape ⟨stone, rfl⟩
      have members : ∀ q, q ∈ a :: t ↔ q ∈ b.component a := fun q =>
        (ring.mem q).trans (consistent.regular.component a q stone)
      refine (Ends.lift walked rfl).bind ?_
      rintro stones rfl
      have around : Ends ((a :: t).foldlM (fun libs cur => (b.adj cur).foldlM (b.libAround loc pla max heads) libs) libs)
          (Gathered b loc pla max fun x => b.BecomesEmpty loc pla x ∧ (N seen x ∨ ∃ q ∈ a :: t, x ∈ b.adj q))
          (Full b loc pla max) := by
        refine Ends.foldlM (fun done libs => Gathered b loc pla max
          (fun x => b.BecomesEmpty loc pla x ∧ (N seen x ∨ ∃ q ∈ done, x ∈ b.adj q)) libs) ?_ (gathered.mono ?_)
        · intro done cur later libs split gathered
          have inside : cur ∈ b.component a := (members cur).1 (by rw [← split]; simp)
          refine (libAround_loop consistent player known adjacent mine inside gathered).imp fun libs gathered => ?_
          refine gathered.mono fun x needed => ?_
          simpa only [List.mem_append, List.mem_singleton, or_and_right, exists_or, exists_eq_left, or_assoc] using needed
        · rintro x ⟨becomes, old | ⟨q, member, -⟩⟩
          · exact ⟨becomes, old⟩
          · exact absurd member List.not_mem_nil
      refine around.bind fun libs' gathered' => Ends.pure ⟨gathered'.mono ?_, fun h => ?_⟩
      · rintro x ⟨becomes, joined⟩
        refine ⟨becomes, ((more seen a x).1 joined).imp_right ?_⟩
        rintro ⟨-, q, inside, adjacent⟩
        exact ⟨q, (members q).2 inside, adjacent⟩
      · rw [visited', List.mem_append, List.mem_singleton, and_iff_right mine, eq_comm (a := h)]
    · rw [if_neg fresh]
      have known' : b.colors a = pla → b.chainHead a ∈ groups := fun mine => by_contra fun absent => fresh ⟨mine, absent⟩
      refine Ends.pure ⟨gathered.mono ?_, fun h => ?_⟩
      · rintro x ⟨becomes, joined⟩
        refine ⟨becomes, ((more seen a x).1 joined).elim id ?_⟩
        rintro ⟨mine, q, inside, adjacent⟩
        -- A neighbour seen before belongs to the same group.
        obtain ⟨a', member, mine', same⟩ := (visited _).1 (known' mine)
        have stone : (b.colors a').IsStone := by rw [mine']; exact player
        have path : a ∈ b.component a' :=
          (consistent.regular.component a' a stone).1 ⟨by rw [mine]; exact player, same.symm⟩
        exact (near seen x).2 (Or.inr ⟨a', member, mine', q, Chain.trans path inside, adjacent⟩)
      · rw [visited', or_iff_left_of_imp]
        rintro ⟨mine, rfl⟩
        exact known' mine
  refine (Ends.foldlM _ step ⟨gathered.mono ?_, by simp⟩).imp ?_
  · rintro x ⟨becomes, joined⟩
    refine ⟨becomes, ((near [] x).1 joined).resolve_right ?_⟩
    rintro ⟨a, member, -⟩
    exact absurd member List.not_mem_nil
  · rintro s ⟨gathered, -⟩
    exact gathered.mono fun x needed => ⟨needed.1, (near _ x).2 needed.2⟩

end Around

omit blank in
theorem getNumLibertiesAfterPlay_eq (positive : 1 ≤ max) :
    b.getNumLibertiesAfterPlay loc pla max = some (min max ((b.libertiesAfter loc pla).ncard : Int)) := by
  have whole : Ends (do
      let (libs, capturedGroupHeads) ← (b.adj loc).foldlM (b.libImmediate pla max) ([], [])
      let (libs, _) ← (b.adj loc).foldlM (b.libConnect loc pla max capturedGroupHeads) (libs, [])
      return (libs.length : Int))
      (fun n => n = ((b.libertiesAfter loc pla).ncard : Int) ∧ n < max) (Full b loc pla max) := by
    refine (libImmediate_loop consistent player positive).bind ?_
    rintro ⟨libs, heads⟩ ⟨gathered, known⟩
    refine (libConnect_loop consistent player known gathered).bind ?_
    rintro ⟨libs', groups⟩ gathered'
    refine Ends.pure ⟨?_, gathered'.room⟩
    rw [← List.toFinset_card_of_nodup gathered'.nodup, ← Set.ncard_coe_finset]
    congr 2
    ext x
    rw [Finset.mem_coe, List.mem_toFinset]
    exact ⟨gathered'.sound x, gathered'.all x⟩
  rw [getNumLibertiesAfterPlay]
  rcases whole with ⟨n, run, rfl, short⟩ | ⟨n, run, rfl, long⟩
  · rw [run, min_eq_right short.le]
    rfl
  · rw [run, min_eq_left long]
    rfl

section Bounds

omit [Zobrist] consistent blank player in
/-- The liberties that the direction `a` may give: itself, the stones captured, those of the group joined. -/
def gives (b : Board) (loc : Loc) (pla : Player) (a : Loc) : Set Loc :=
  {e | (b.colors a = .empty ∧ e = a) ∨ (b.CapturedDir loc pla a ∧ e ∈ b.component a) ∨
    (b.colors a = pla ∧ e ∈ b.liberties a ∧ e ≠ loc)}

omit [Zobrist] consistent blank player in
theorem mem_libertiesAfter_gives (liberty : e ∈ b.libertiesAfter loc pla) : ∃ a ∈ b.adj loc, e ∈ b.gives loc pla a := by
  obtain ⟨⟨apart, free | ⟨a, captured, inside⟩⟩, joined⟩ := liberty
  · rcases joined with near | ⟨a, near, mine, q, inside, adjacent⟩
    · exact ⟨e, near, Or.inl ⟨free, rfl⟩⟩
    · exact ⟨a, near, Or.inr (Or.inr ⟨mine, ⟨free, q, inside, adjacent⟩, apart⟩)⟩
  · exact ⟨a, captured.1, Or.inr (Or.inl ⟨captured, inside⟩)⟩

omit blank player in
theorem component_finite (stone : (b.colors a).IsStone) : (b.component a).Finite := by
  refine Set.Finite.subset (Finset.finite_toSet b.locs.toFinset) fun q inside => ?_
  rw [Finset.mem_coe, List.mem_toFinset]
  exact consistent.shape.stone_mem_locs (by rw [Chain.label inside]; exact stone)

/-- A friendly neighbour has all its liberties but the point played. -/
theorem ncard_liberties_diff (near : a ∈ b.adj loc) (mine : b.colors a = pla) :
    (((b.liberties a \ {loc}).ncard : Nat) : Int) = b.getNumLiberties a - 1 := by
  have stone : (b.colors a).IsStone := by rw [mine]; exact player
  have here := mem_liberties_of_adj blank near
  rw [consistent.regular.getNumLiberties stone, Set.ncard_sdiff_singleton_of_mem here]
  have positive := (Set.ncard_pos (consistent.regular.liberties_finite stone)).2 ⟨loc, here⟩
  omega

/-- The counters after the directions `seen`. -/
structure BoundInv (b : Board) (loc : Loc) (pla : Player) (seen : List Loc) (s : BoundState) : Prop where
  immediate : s.numImmediateLibs = (seen.filter fun a => b.colors a = .empty).length
  caps : s.numCaps = (seen.filter fun a => b.colors a = getOpp pla ∧ b.getNumLiberties a = 1).length
  longest : s.maxConnectionLibs = 0 ∨
    ∃ a ∈ seen, b.colors a = pla ∧ s.maxConnectionLibs = b.getNumLiberties a - 1
  finite : {e | ∃ a ∈ seen, e ∈ b.gives loc pla a}.Finite
  upper : ({e | ∃ a ∈ seen, e ∈ b.gives loc pla a}.ncard : Int) ≤
    s.numImmediateLibs + s.potentialLibsFromCaps + s.numConnectionLibs

theorem boundInv_foldl {l : List Loc} (near : ∀ a ∈ l, a ∈ b.adj loc) :
    BoundInv b loc pla l (l.foldl (b.boundDir pla) ⟨0, 0, 0, 0, 0⟩) := by
  induction l using List.reverseRecOn with
  | nil => exact ⟨rfl, rfl, Or.inl rfl, by simp, by simp⟩
  | append_singleton seen a ih =>
    have inv := ih fun x member => near x (List.mem_append_left _ member)
    have adjacent := near a (List.mem_append_right _ (List.mem_singleton_self a))
    rw [List.foldl_append, List.foldl_cons, List.foldl_nil]
    obtain ⟨s, run⟩ : ∃ s, seen.foldl (b.boundDir pla) ⟨0, 0, 0, 0, 0⟩ = s := ⟨_, rfl⟩
    rw [run] at inv ⊢
    have union : {e | ∃ x ∈ seen ++ [a], e ∈ b.gives loc pla x} =
        {e | ∃ x ∈ seen, e ∈ b.gives loc pla x} ∪ b.gives loc pla a := by
      ext e
      simp only [List.mem_append, List.mem_singleton, or_and_right, exists_or, exists_eq_left]
      exact Iff.rfl
    have more : ∀ n : Int, (b.gives loc pla a).Finite → ((b.gives loc pla a).ncard : Int) ≤ n →
        {e | ∃ x ∈ seen ++ [a], e ∈ b.gives loc pla x}.Finite ∧
          ({e | ∃ x ∈ seen ++ [a], e ∈ b.gives loc pla x}.ncard : Int) ≤
            s.numImmediateLibs + s.potentialLibsFromCaps + s.numConnectionLibs + n := by
      intro n finite few
      rw [union]
      refine ⟨inv.finite.union finite, ?_⟩
      have sum := Set.ncard_union_le {e | ∃ x ∈ seen, e ∈ b.gives loc pla x} (b.gives loc pla a)
      have upper := inv.upper
      omega
    have longest' : s.maxConnectionLibs = 0 ∨
        ∃ x ∈ seen ++ [a], b.colors x = pla ∧ s.maxConnectionLibs = b.getNumLiberties x - 1 :=
      inv.longest.imp_right fun ⟨x, member, rest⟩ => ⟨x, List.mem_append_left _ member, rest⟩
    rw [boundDir]
    by_cases free : b.colors a = .empty
    · have single : b.gives loc pla a = {a} := by
        ext e
        simp [gives, CapturedDir, free, player.ne_empty.symm, player.opp.ne_empty.symm]
      obtain ⟨finite, upper⟩ := more 1 (by rw [single]; exact Set.finite_singleton a) (by rw [single]; simp)
      rw [if_pos free]
      refine ⟨?_, ?_, longest', finite, by simpa only [add_right_comm] using upper⟩
      · simp [inv.immediate, free]
      · simp [inv.caps, free, player.opp.ne_empty.symm]
    rw [if_neg free]
    by_cases theirs : b.colors a = getOpp pla
    · rw [if_pos theirs]
      by_cases last : b.getNumLiberties a = 1
      · have stone : (b.colors a).IsStone := by rw [theirs]; exact player.opp
        have chain : b.gives loc pla a = b.component a := by
          ext e
          simp [gives, CapturedDir, theirs, last, adjacent, player.opp.ne_empty, player.opp_ne]
        have finite := component_finite consistent stone
        obtain ⟨finite, upper⟩ := more (b.getChainSize a) (by rw [chain]; exact finite)
          (by rw [chain, consistent.regular.getChainSize stone])
        rw [if_pos last]
        refine ⟨?_, ?_, longest', finite, ?_⟩
        · simp [inv.immediate, free]
        · simp [inv.caps, theirs, last]
        · simp only
          omega
      · have nothing : b.gives loc pla a = ∅ := by
          ext e
          simp [gives, CapturedDir, theirs, last, player.opp.ne_empty, player.opp_ne]
        obtain ⟨finite, upper⟩ := more 0 (by rw [nothing]; exact Set.finite_empty) (by rw [nothing]; simp)
        rw [if_neg last]
        refine ⟨?_, ?_, longest', finite, by simpa only [add_zero] using upper⟩
        · simp [inv.immediate, free]
        · simp [inv.caps, last]
    rw [if_neg theirs]
    by_cases mine : b.colors a = pla
    · have stone : (b.colors a).IsStone := by rw [mine]; exact player
      have rest : b.gives loc pla a = b.liberties a \ {loc} := by
        ext e
        simp [gives, CapturedDir, mine, player.ne_empty, player.opp_ne.symm]
      obtain ⟨finite, upper⟩ := more (b.getNumLiberties a - 1)
        (by rw [rest]; exact (consistent.regular.liberties_finite stone).sdiff)
        (by rw [rest, ncard_liberties_diff consistent blank player adjacent mine])
      rw [if_pos mine]
      refine ⟨?_, ?_, ?_, finite, ?_⟩
      · simp [inv.immediate, free]
      · simp [inv.caps, theirs]
      · simp only
        split_ifs
        · exact Or.inr ⟨a, List.mem_append_right _ (List.mem_singleton_self a), mine, rfl⟩
        · exact longest'
      · simp only
        omega
    · have nothing : b.gives loc pla a = ∅ := by
        ext e
        simp [gives, CapturedDir, free, theirs, mine]
      obtain ⟨finite, upper⟩ := more 0 (by rw [nothing]; exact Set.finite_empty) (by rw [nothing]; simp)
      rw [if_neg mine]
      refine ⟨?_, ?_, longest', finite, by simpa only [add_zero] using upper⟩
      · simp [inv.immediate, free]
      · simp [inv.caps, theirs]

omit blank in
/-- The stones captured next to the new stone, together with other liberties of it that are empty now. -/
theorem caps_add_le {T : Set Loc} (inside : T ⊆ b.libertiesAfter loc pla) (empties : ∀ e ∈ T, b.colors e = .empty) :
    ((b.adj loc).filter fun a => b.colors a = getOpp pla ∧ b.getNumLiberties a = 1).length + T.ncard ≤
      (b.libertiesAfter loc pla).ncard := by
  obtain ⟨A, captured⟩ : ∃ A, A = ((b.adj loc).filter fun a =>
    b.colors a = getOpp pla ∧ b.getNumLiberties a = 1).toFinset := ⟨_, rfl⟩
  have members : ∀ a, a ∈ A ↔ b.CapturedDir loc pla a := by
    intro a
    rw [captured, List.mem_toFinset, List.mem_filter, decide_eq_true_eq]
    exact Iff.rfl
  have all : (b.libertiesAfter loc pla).Finite := libertiesAfter_finite consistent player
  have disjoint : Disjoint (A : Set Loc) T := by
    refine Set.disjoint_left.2 fun a first second => ?_
    exact player.opp.ne_empty (((members a).1 first).2.1.symm.trans (empties a second))
  rw [← List.toFinset_card_of_nodup ((consistent.shape.adj_nodup loc).filter _), ← captured, ← Set.ncard_coe_finset,
    ← Set.ncard_union_eq disjoint (Finset.finite_toSet A) (all.subset inside)]
  refine Set.ncard_le_ncard (Set.union_subset (fun a member => ?_) inside) all
  have captured := (members a).1 member
  exact ⟨⟨ne_of_mem_adj captured.1, Or.inr ⟨a, captured, Chain.refl a⟩⟩, Or.inl captured.1⟩

theorem getBoundNumLibertiesAfterPlay_bounds :
    (b.getBoundNumLibertiesAfterPlay loc pla).1 ≤ (b.libertiesAfter loc pla).ncard ∧
      ((b.libertiesAfter loc pla).ncard : Int) ≤ (b.getBoundNumLibertiesAfterPlay loc pla).2 := by
  have inv := boundInv_foldl consistent blank player (l := b.adj loc) fun a member => member
  have immediate : (((b.adj loc).filter fun a => b.colors a = getOpp pla ∧ b.getNumLiberties a = 1).length : Int) +
      ((b.adj loc).filter fun a => b.colors a = .empty).length ≤ (b.libertiesAfter loc pla).ncard := by
    have bound := @caps_add_le _ b loc pla consistent player
      (((b.adj loc).filter fun a => b.colors a = .empty).toFinset : Set Loc) (fun a member => ?_) (fun a member => ?_)
    · rw [Set.ncard_coe_finset, List.toFinset_card_of_nodup ((consistent.shape.adj_nodup loc).filter _)] at bound
      exact_mod_cast bound
    all_goals
      rw [Finset.mem_coe, List.mem_toFinset, List.mem_filter, decide_eq_true_eq] at member
    · exact ⟨⟨ne_of_mem_adj member.1, Or.inl member.2⟩, Or.inl member.1⟩
    · exact member.2
  have longest : ∀ a ∈ b.adj loc, b.colors a = pla →
      (((b.adj loc).filter fun a => b.colors a = getOpp pla ∧ b.getNumLiberties a = 1).length : Int) +
        (b.getNumLiberties a - 1) ≤ (b.libertiesAfter loc pla).ncard := by
    intro a near mine
    rw [← ncard_liberties_diff consistent blank player near mine]
    have bound := @caps_add_le _ b loc pla consistent player (b.liberties a \ {loc}) (fun e member => ?_)
      (fun e member => member.1.1)
    · exact_mod_cast bound
    · obtain ⟨⟨free, q, inside, adjacent⟩, apart⟩ := member
      exact ⟨⟨apart, Or.inl free⟩, Or.inr ⟨a, near, mine, q, inside, adjacent⟩⟩
  rw [getBoundNumLibertiesAfterPlay]
  constructor
  · have few := inv.immediate
    have caps := inv.caps
    simp only
    split_ifs with longer
    · rcases inv.longest with none | ⟨a, near, mine, size⟩
      · omega
      · have bound := longest a near mine
        omega
    · omega
  · refine le_trans ?_ inv.upper
    exact_mod_cast Set.ncard_le_ncard (fun e liberty => mem_libertiesAfter_gives liberty) inv.finite

end Bounds

end Count

/-- The predicted number of liberties is that of the new stone's chain after the move, cut off at `max`, and none
when the stone does not survive; and the bounds hold of it. -/
theorem numLibertiesAfterPlay_eq_play (b : Board) (loc : Loc) (pla : Player) (max : Int) (consistent : b.Consistent)
    (blank : b.colors loc = .empty) (player : pla.IsStone) (positive : 1 ≤ max) :
    ∃ b', b.playMoveAssumeLegal loc pla = some b' ∧
      let numLiberties := if b'.colors loc = .empty then 0 else b'.getNumLiberties loc
      b.getNumLibertiesAfterPlay loc pla max = some (min max numLiberties) ∧
        (b.getBoundNumLibertiesAfterPlay loc pla).1 ≤ numLiberties ∧
        numLiberties ≤ (b.getBoundNumLibertiesAfterPlay loc pla).2 := by
  obtain ⟨b', run, played⟩ := playMoveAssumeLegal_spec consistent blank player
  refine ⟨b', run, ?_⟩
  rw [numLiberties_played consistent blank player played]
  exact ⟨getNumLibertiesAfterPlay_eq consistent player positive,
    getBoundNumLibertiesAfterPlay_bounds consistent blank player⟩

omit [Zobrist] in
theorem numLibertiesAfterPlay_eq_play_opening :
    letI := Zobrist.blank
    ∃ b b', init 3 3 = some b ∧ b.playMoveAssumeLegal (Location.getLoc 1 1 3) .black = some b' ∧
      b.getNumLibertiesAfterPlay (Location.getLoc 1 1 3) .black 3 =
        some (min 3 (if b'.colors (Location.getLoc 1 1 3) = .empty then 0
          else b'.getNumLiberties (Location.getLoc 1 1 3))) := by
  let _ := Zobrist.blank
  obtain ⟨b, start, consistent⟩ := init_consistent 3 3 (by decide) (by decide)
  have blank : b.colors (Location.getLoc 1 1 3) = .empty := by
    obtain rfl := Option.some.inj start
    decide
  obtain ⟨b', run, exact, -⟩ :=
    numLibertiesAfterPlay_eq_play b _ .black 3 consistent blank (Or.inl rfl) (by decide)
  exact ⟨b, b', start, run, exact⟩

end Board
end KataGo.Game
