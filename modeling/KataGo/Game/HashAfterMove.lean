import KataGo.Game.Classifiers
import KataGo.Lib.Loops

/-! `Board::getPosHashAfterMove`: the hash of the position after a move, without playing it. -/

namespace KataGo.Game
open KataGo.Lib CircularList Labelling

/-- The variables of the two loops over the neighbours. -/
structure HashState where
  hash : Hash128
  capturedGroupHeads : List Loc
  wouldBeSuicide : Bool

namespace Board

variable [Zobrist]

/-- Take the stones of a chain out of the hash, unless its head has been seen. -/
def xorGroup (b : Board) (color : Color) (s : HashState) (adj : Loc) : Option HashState :=
  if b.chainHead adj ∈ s.capturedGroupHeads then some s
  else do
    let stones ← b.chainLocs adj
    return ⟨stones.foldl (fun hash cur => hash ^^^ Zobrist.boardHash cur color) s.hash,
      s.capturedGroupHeads ++ [b.chainHead adj], false⟩

def hashCapture (b : Board) (pla : Player) (s : HashState) (adj : Loc) : Option HashState :=
  if b.colors adj = .empty then some { s with wouldBeSuicide := false }
  else if b.colors adj = pla ∧ b.getNumLiberties adj > 1 then some { s with wouldBeSuicide := false }
  else if b.colors adj = getOpp pla ∧ b.getNumLiberties adj = 1 then b.xorGroup (getOpp pla) s adj
  else some s

def hashSuicide (b : Board) (pla : Player) (s : HashState) (adj : Loc) : Option HashState :=
  if b.colors adj = pla ∧ b.getNumLiberties adj = 1 then b.xorGroup pla s adj else some s

def getPosHashAfterMove (b : Board) (loc : Loc) (pla : Player) : Option Hash128 :=
  if loc = passLoc then some b.posHash
  else do
    guard (loc ≠ nullLoc)
    let s ← (b.adj loc).foldlM (b.hashCapture pla) ⟨b.posHash ^^^ Zobrist.boardHash loc pla, [], true⟩
    if s.wouldBeSuicide then do
      guard (s.capturedGroupHeads = [])
      let s ← (b.adj loc).foldlM (b.hashSuicide pla) s
      -- The stone that was placed dies too.
      return s.hash ^^^ Zobrist.boardHash loc pla
    else return s.hash

variable {b b' : Board} {c : Loc → Color} {loc a h q : Loc} {pla k : Player}

section Wiping

/-- The colours `c` without the chains with the given heads. -/
def wiped (b : Board) (c : Loc → Color) (heads : List Loc) (q : Loc) : Color :=
  if (b.colors q).IsStone ∧ b.chainHead q ∈ heads then .empty else c q

omit [Zobrist] in
theorem wiped_nil : b.wiped c [] = c := by
  funext q
  exact if_neg fun found => List.not_mem_nil found.2

theorem positionHash_wipe {xSize ySize : Nat} (stone : k.IsStone) {l : List Loc} (nodup : l.Nodup)
    (inside : ∀ q ∈ l, q ∈ boardLocs xSize ySize) (colour : ∀ q ∈ l, c q = k) :
    l.foldl (fun hash cur => hash ^^^ Zobrist.boardHash cur k) (positionHash xSize ySize c) =
      positionHash xSize ySize fun q => if q ∈ l then .empty else c q := by
  induction l generalizing c with
  | nil => simp
  | cons a l ih =>
    obtain ⟨absent, nodup⟩ := List.nodup_cons.mp nodup
    have first : positionHash xSize ySize c ^^^ Zobrist.boardHash a k =
        positionHash xSize ySize (Function.update c a .empty) := by
      rw [positionHash_update (inside a List.mem_cons_self), colour a List.mem_cons_self, stoneHash_of_stone stone,
        stoneHash_empty, Hash128.xor_zero]
    have later : ∀ q ∈ l, Function.update c a .empty q = k := by
      intro q member
      rw [Function.update_of_ne (ne_of_mem_of_not_mem member absent)]
      exact colour q (List.mem_cons_of_mem a member)
    rw [List.foldl_cons, first, ih nodup (fun q member => inside q (List.mem_cons_of_mem a member)) later]
    congr 1
    funext q
    by_cases here : q = a
    · subst here
      simp
    · simp [here]

/-- Taking out one more chain of the board. -/
theorem wiped_append (regular : b.Regular) (stone : (b.colors a).IsStone) {heads : List Loc}
    (fresh : b.chainHead a ∉ heads) (colour : ∀ q, b.InChain (b.chainHead a) q → c q = b.colors a) :
    ∃ stones, b.chainLocs a = some stones ∧
      stones.foldl (fun hash cur => hash ^^^ Zobrist.boardHash cur (b.colors a))
          (positionHash b.xSize b.ySize (b.wiped c heads)) =
        positionHash b.xSize b.ySize (b.wiped c (heads ++ [b.chainHead a])) := by
  obtain ⟨t, walked, ring, -⟩ := (regular.chainOk stone).chainLocs regular.shape ⟨stone, rfl⟩
  refine ⟨a :: t, walked, ?_⟩
  rw [positionHash_wipe stone ring.nodup]
  · congr 1
    funext q
    simp only [ring.mem, wiped, List.mem_append, List.mem_singleton, InChain]
    by_cases inside : (b.colors q).IsStone ∧ b.chainHead q = b.chainHead a
    · rw [if_pos inside, if_pos ⟨inside.1, Or.inr inside.2⟩]
    · rw [if_neg inside]
      congr 1
      exact propext (and_congr_right fun isStone => (or_iff_left fun same => inside ⟨isStone, same⟩).symm)
  · exact fun q member => regular.shape.stone_mem_locs ((ring.mem q).1 member).1
  · intro q member
    have inside := (ring.mem q).1 member
    rw [wiped, if_neg fun found => fresh (inside.2 ▸ found.2)]
    exact colour q inside

/-- After the neighbours `seen`, the chains of colour `k` with one liberty among them are out of the hash. -/
structure HashInv (b : Board) (c : Loc → Color) (k : Player) (seen : List Loc) (s : HashState) : Prop where
  hash : s.hash = positionHash b.xSize b.ySize (b.wiped c s.capturedGroupHeads)
  heads : ∀ h, h ∈ s.capturedGroupHeads ↔ ∃ a ∈ seen, (b.colors a = k ∧ b.getNumLiberties a = 1) ∧ b.chainHead a = h

variable {seen : List Loc} {s : HashState}

theorem HashInv.skip (inv : HashInv b c k seen s) (other : ¬ (b.colors a = k ∧ b.getNumLiberties a = 1)) (flag : Bool) :
    HashInv b c k (seen ++ [a]) { s with wouldBeSuicide := flag } := by
  refine ⟨inv.hash, fun h => (inv.heads h).trans ?_⟩
  simp only [List.mem_append, List.mem_singleton, or_and_right, exists_or, exists_eq_left, other, false_and, or_false]

theorem HashInv.xorGroup (inv : HashInv b c k seen s) (regular : b.Regular) (stone : k.IsStone)
    (colour : ∀ q, b.colors q = k → c q = k) (group : b.colors a = k ∧ b.getNumLiberties a = 1) :
    ∃ s', b.xorGroup k s a = some s' ∧ HashInv b c k (seen ++ [a]) s' ∧
      (s'.wouldBeSuicide = true → s.wouldBeSuicide = true ∧ s.capturedGroupHeads ≠ []) := by
  obtain ⟨rfl, last⟩ := group
  have heads : ∀ h, h ∈ s.capturedGroupHeads ∨ h = b.chainHead a ↔ ∃ a' ∈ seen ++ [a],
      (b.colors a' = b.colors a ∧ b.getNumLiberties a' = 1) ∧ b.chainHead a' = h := by
    intro h
    rw [inv.heads]
    simp only [List.mem_append, List.mem_singleton, or_and_right, exists_or, exists_eq_left, last, and_self, true_and]
    rw [eq_comm (a := h)]
  rw [Board.xorGroup]
  by_cases old : b.chainHead a ∈ s.capturedGroupHeads
  · refine ⟨s, if_pos old, ⟨inv.hash, fun h => Iff.trans ?_ (heads h)⟩, fun flag => ⟨flag, List.ne_nil_of_mem old⟩⟩
    exact ⟨Or.inl, fun found => found.elim id fun same => same ▸ old⟩
  · obtain ⟨stones, walked, hash⟩ := wiped_append (c := c) regular stone old fun q inside =>
      colour q ((regular.chainOk stone).colour q inside |>.trans
        ((regular.chainOk stone).colour a ⟨stone, rfl⟩).symm)
    rw [if_neg old, walked]
    refine ⟨_, rfl, ⟨?_, fun h => ?_⟩, nofun⟩
    · rw [← hash, ← inv.hash]
    · rw [← heads, List.mem_append, List.mem_singleton]

end Wiping

section Loops

variable (consistent : b.Consistent) (blank : b.colors loc = .empty) (player : pla.IsStone)
include consistent blank player

omit [Zobrist] consistent player in
theorem placed_colour (stone : k.IsStone) (q : Loc) (colour : b.colors q = k) :
    Function.update b.colors loc pla q = k := by
  rw [Function.update_of_ne, colour]
  rintro rfl
  exact stone.ne_empty (colour.symm.trans blank)

theorem hashCapture_loop :
    ∃ s, (b.adj loc).foldlM (b.hashCapture pla) ⟨b.posHash ^^^ Zobrist.boardHash loc pla, [], true⟩ = some s ∧
      HashInv b (Function.update b.colors loc pla) (getOpp pla) (b.adj loc) s ∧
      (s.wouldBeSuicide = true ↔ b.isSuicide loc pla = true) := by
  have notPass : loc ≠ passLoc := consistent.shape.ne_pass (by rw [blank]; decide)
  have placed : b.posHash ^^^ Zobrist.boardHash loc pla =
      positionHash b.xSize b.ySize (Function.update b.colors loc pla) := by
    rw [positionHash_update (consistent.shape.mem_locs (by rw [blank]; decide)), blank, stoneHash_empty,
      stoneHash_of_stone player, Hash128.xor_zero, consistent.hash]
  rw [isSuicide_iff_tests notPass player]
  refine foldlM_seen _ (fun seen s => HashInv b (Function.update b.colors loc pla) (getOpp pla) seen s ∧
    (s.wouldBeSuicide = true ↔ ∀ a ∈ seen, b.colors a ≠ .empty ∧ (b.colors a = pla → ¬ b.getNumLiberties a > 1) ∧
      (b.colors a = getOpp pla → b.getNumLiberties a ≠ 1))) ?_ ⟨⟨?_, fun h => by simp⟩, by simp⟩
  · rintro seen a - s - ⟨inv, suicide⟩
    simp only [List.forall_mem_append, List.forall_mem_singleton, hashCapture]
    by_cases free : b.colors a = .empty
    · refine ⟨_, if_pos free, inv.skip (fun group => player.opp.ne_empty (group.1.symm.trans free)) false, ?_⟩
      simp [free]
    rw [if_neg free]
    by_cases joins : b.colors a = pla ∧ b.getNumLiberties a > 1
    · refine ⟨_, if_pos joins, inv.skip (fun group => player.opp_ne (group.1.symm.trans joins.1)) false, ?_⟩
      exact iff_of_false nofun fun tests => tests.2.2.1 joins.1 joins.2
    rw [if_neg joins]
    by_cases group : b.colors a = getOpp pla ∧ b.getNumLiberties a = 1
    · rw [if_pos group]
      obtain ⟨s', run, inv', flag⟩ := inv.xorGroup consistent.regular player.opp (placed_colour blank player.opp) group
      refine ⟨s', run, inv', iff_of_false (fun still => ?_) fun tests => tests.2.2.2 group.1 group.2⟩
      obtain ⟨before, some⟩ := flag still
      obtain ⟨h, member⟩ := List.exists_mem_of_ne_nil _ some
      obtain ⟨x, inside, captured, -⟩ := (inv.heads h).1 member
      exact (suicide.1 before x inside).2.2 captured.1 captured.2
    · refine ⟨s, if_neg group, inv.skip group s.wouldBeSuicide, suicide.trans (and_iff_left ?_).symm⟩
      exact ⟨free, fun mine many => joins ⟨mine, many⟩, fun theirs last => group ⟨theirs, last⟩⟩
  · rw [wiped_nil, placed]

theorem hashSuicide_loop {s : HashState} (start : s.capturedGroupHeads = [])
    (hash : s.hash = positionHash b.xSize b.ySize (Function.update b.colors loc pla)) :
    ∃ s', (b.adj loc).foldlM (b.hashSuicide pla) s = some s' ∧
      HashInv b (Function.update b.colors loc pla) pla (b.adj loc) s' := by
  refine foldlM_seen _ (HashInv b (Function.update b.colors loc pla) pla) ?_ ⟨?_, fun h => by simp [start]⟩
  · intro seen a _ s _ inv
    rw [hashSuicide]
    by_cases group : b.colors a = pla ∧ b.getNumLiberties a = 1
    · rw [if_pos group]
      obtain ⟨s', run, inv', -⟩ := inv.xorGroup consistent.regular player (placed_colour blank player) group
      exact ⟨s', run, inv'⟩
    · exact ⟨s, if_neg group, inv.skip group s.wouldBeSuicide⟩
  · rw [start, wiped_nil, hash]

omit blank player in
/-- With all heads of a kind collected, their chains are what is wiped. -/
theorem HashInv.wiped_iff (inv : HashInv b (Function.update b.colors loc pla) k (b.adj loc) s) (stone : k.IsStone) :
    ((b.colors q).IsStone ∧ b.chainHead q ∈ s.capturedGroupHeads) ↔
      ∃ a, (a ∈ b.adj loc ∧ b.colors a = k ∧ b.getNumLiberties a = 1) ∧ q ∈ b.component a := by
  rw [inv.heads]
  constructor
  · rintro ⟨isStone, a, near, group, same⟩
    refine ⟨a, ⟨near, group⟩, (consistent.regular.component a q (by rw [group.1]; exact stone)).1 ⟨isStone, same.symm⟩⟩
  · rintro ⟨a, ⟨near, group⟩, inside⟩
    obtain ⟨isStone, same⟩ := (consistent.regular.component a q (by rw [group.1]; exact stone)).2 inside
    exact ⟨isStone, a, near, group, same.symm⟩

theorem wiped_eq_afterCaptures (inv : HashInv b (Function.update b.colors loc pla) (getOpp pla) (b.adj loc) s) :
    b.wiped (Function.update b.colors loc pla) s.capturedGroupHeads = b.afterCaptures loc pla := by
  funext q
  have dead := (inv.wiped_iff consistent player.opp).trans (dead_iff (q := q) consistent blank player).symm
  unfold wiped afterCaptures removeDead
  by_cases gone : (b.colors q).IsStone ∧ b.chainHead q ∈ s.capturedGroupHeads
  · rw [if_pos gone, if_pos (dead.1 gone)]
  · rw [if_neg gone, if_neg fun other => gone (dead.2 other)]

/-- In a suicide every friendly chain next to the point is on its last liberty, and all of them go. -/
theorem wiped_eq_suicided (played : Played b b' loc pla) (suicide : b.isSuicide loc pla = true)
    (inv : HashInv b (Function.update b.colors loc pla) pla (b.adj loc) s) :
    Function.update (b.wiped (Function.update b.colors loc pla) s.capturedGroupHeads) loc .empty = b'.colors := by
  have notPass : loc ≠ passLoc := consistent.shape.ne_pass (by rw [blank]; decide)
  have tests := (isSuicide_iff_tests notPass player).1 suicide
  have noCapture := ((isSuicide_iff consistent.regular blank player).1 suicide).1
  have dead := (played.colors_loc_iff player).1 ((isSuicide_iff_gone played consistent blank player).1 suicide)
  have last : ∀ a ∈ b.adj loc, b.colors a = pla → b.getNumLiberties a = 1 := by
    intro a near mine
    have some := consistent.alive a (by rw [mine]; exact player)
    have few := (tests a near).2.1 mine
    unfold getNumLiberties at few ⊢
    omega
  funext q
  have members := (chain_afterCaptures_iff (q := q) blank player)
  by_cases here : q = loc
  · subst here
    rw [Function.update_self, played.colors_of_dead dead (Chain.refl q)]
  rw [Function.update_of_ne here, wiped]
  by_cases gone : (b.colors q).IsStone ∧ b.chainHead q ∈ s.capturedGroupHeads
  · obtain ⟨a, ⟨near, mine, -⟩, inside⟩ := (inv.wiped_iff consistent player).1 gone
    rw [if_pos gone, played.colors_of_dead dead (members.2 (Or.inr ⟨a, near, mine, inside⟩))]
  · have outside : ¬ Chain (grid b.xSize) (b.afterCaptures loc pla) loc q := by
      intro path
      obtain ⟨a, near, mine, inside⟩ := (members.1 path).resolve_left here
      exact gone ((inv.wiped_iff consistent player).2 ⟨a, ⟨near, mine, last a near mine⟩, inside⟩)
    rw [if_neg gone, played.colors_of_outside outside, afterCaptures,
      removeDead_eq_self consistent blank player noCapture]

theorem getPosHashAfterMove_of_played (played : Played b b' loc pla) :
    b.getPosHashAfterMove loc pla = some b'.posHash := by
  have notPass : loc ≠ passLoc := consistent.shape.ne_pass (by rw [blank]; decide)
  have notNull : loc ≠ nullLoc := consistent.shape.ne_null (by rw [blank]; decide)
  have target : b'.posHash = positionHash b.xSize b.ySize b'.colors := by
    rw [played.consistent.hash, played.xSize, played.ySize]
  obtain ⟨s, run, inv, flag⟩ := hashCapture_loop consistent blank player
  have steps : b.getPosHashAfterMove loc pla =
      if s.wouldBeSuicide then do
        guard (s.capturedGroupHeads = [])
        let s ← (b.adj loc).foldlM (b.hashSuicide pla) s
        return s.hash ^^^ Zobrist.boardHash loc pla
      else return s.hash := by
    rw [getPosHashAfterMove, if_neg notPass, guard, if_pos notNull, run]
    rfl
  rw [steps, target]
  by_cases suicide : b.isSuicide loc pla = true
  · have start : s.capturedGroupHeads = [] := by
      refine List.eq_nil_iff_forall_not_mem.2 fun h member => ?_
      obtain ⟨a, near, group, -⟩ := (inv.heads h).1 member
      exact ((isSuicide_iff consistent.regular blank player).1 suicide).1 a near group.1 group.2
    have hash : s.hash = positionHash b.xSize b.ySize (Function.update b.colors loc pla) := by
      rw [inv.hash, start, wiped_nil]
    obtain ⟨s', run', inv'⟩ := hashSuicide_loop consistent blank player start hash
    have still : b.wiped (Function.update b.colors loc pla) s'.capturedGroupHeads loc = pla := by
      rw [wiped, if_neg fun found => found.1.ne_empty blank, Function.update_self]
    rw [if_pos (flag.2 suicide), guard, if_pos start, run', ← wiped_eq_suicided consistent blank player played suicide inv',
      positionHash_update (consistent.shape.mem_locs (by rw [blank]; decide)), still, stoneHash_of_stone player,
      stoneHash_empty, Hash128.xor_zero, ← inv'.hash]
    rfl
  · have alive : ∃ e, Liberty (grid b.xSize) .empty (b.afterCaptures loc pla) loc e := by
      by_contra dead
      exact suicide ((isSuicide_iff_gone played consistent blank player).2 ((played.colors_loc_iff player).2 dead))
    rw [if_neg fun still => suicide (flag.1 still), played.colors_of_alive alive,
      ← wiped_eq_afterCaptures consistent blank player inv, ← inv.hash]
    rfl

end Loops

/-- The predicted hash is the hash after the move, whatever it captures: of up to four chains, with repetitions,
and of the mover's own chains in a suicide. -/
theorem getPosHashAfterMove_eq_play (b : Board) (loc : Loc) (pla : Player) (consistent : b.Consistent)
    (player : pla.IsStone) (place : loc = passLoc ∨ b.colors loc = .empty) :
    ∃ b', b.playMoveAssumeLegal loc pla = some b' ∧ b.getPosHashAfterMove loc pla = some b'.posHash := by
  rcases place with rfl | blank
  · exact ⟨_, if_pos rfl, if_pos rfl⟩
  · obtain ⟨b', run, played⟩ := playMoveAssumeLegal_spec consistent blank player
    exact ⟨b', run, getPosHashAfterMove_of_played consistent blank player played⟩

omit [Zobrist] in
theorem getPosHashAfterMove_eq_play_opening :
    letI := Zobrist.blank
    ∃ b b', init 3 3 = some b ∧ b.playMoveAssumeLegal (Location.getLoc 1 1 3) .black = some b' ∧
      b.getPosHashAfterMove (Location.getLoc 1 1 3) .black = some b'.posHash := by
  let _ := Zobrist.blank
  obtain ⟨b, start, consistent⟩ := init_consistent 3 3 (by decide) (by decide)
  have blank : b.colors (Location.getLoc 1 1 3) = .empty := by
    obtain rfl := Option.some.inj start
    decide
  obtain ⟨b', run, predicted⟩ := getPosHashAfterMove_eq_play b _ .black consistent (Or.inl rfl) (Or.inr blank)
  exact ⟨b, b', start, run, predicted⟩

end Board
end KataGo.Game
