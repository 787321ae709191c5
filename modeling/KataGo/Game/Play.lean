import KataGo.Game.Consistent

/-! A move on a consistent board. The loop of `playMoveAssumeLegal` looks at the four
neighbours in turn; its invariant speaks about the colours `c` right after the stone was
placed, so that the end of the loop can be compared with the rule for captures. -/

namespace KataGo.Game
open KataGo.Lib CircularList Labelling

namespace Board

variable {b b' : Board} {h p q e loc a : Loc} {pla : Player} {extra : Loc → Int}

section Dead

/-- The liberty counters that still include `loc`: those of the chains next to it that no
direction of `seen` belongs to. -/
def pending (b : Board) (loc : Loc) (seen : List Loc) (h : Loc) : Int :=
  if h ≠ b.chainHead loc ∧ (∃ a ∈ b.adj loc, b.InChain h a) ∧ ¬ ∃ a ∈ seen, b.InChain h a then 1 else 0

/-- `p` has colour `k` in `c`, is connected to one of `seen`, and has no liberty. -/
def DeadBy (xSize : Nat) (c : Loc → Color) (k : Color) (seen : List Loc) (p : Loc) : Prop :=
  c p = k ∧ (¬ ∃ e, Liberty (grid xSize) .empty c p e) ∧ ∃ a ∈ seen, Chain (grid xSize) c p a

/-- The stones of colour `k` that are gone. -/
def taken (c c' : Loc → Color) (k : Color) : Set Loc := {q | c q = k ∧ c' q = .empty}

theorem pending_snoc {seen : List Loc}
    (known : b.InChain h a → h = b.chainHead loc ∨ ∃ a ∈ seen, b.InChain h a) :
    b.pending loc (seen ++ [a]) h = b.pending loc seen h := by
  unfold pending
  congr 1
  simp only [List.mem_append, List.mem_singleton, or_and_right, exists_or, exists_eq_left, eq_iff_iff]
  refine and_congr_right fun apart => and_congr_right fun _ => not_congr ⟨?_, Or.inl⟩
  rintro (old | new)
  · exact old
  · exact (known new).resolve_left apart

theorem deadBy_snoc {xSize : Nat} {c : Loc → Color} {k : Color} {seen : List Loc} :
    DeadBy xSize c k (seen ++ [a]) q ↔ DeadBy xSize c k seen q ∨
      c q = k ∧ (¬ ∃ e, Liberty (grid xSize) .empty c q e) ∧ Chain (grid xSize) c q a := by
  simp only [DeadBy, List.mem_append, List.mem_singleton, or_and_right, exists_or, exists_eq_left]
  rw [← and_or_left, ← and_or_left]

/-- Being dead is a property of the whole chain. -/
theorem DeadBy.of_chain {xSize : Nat} {c : Loc → Color} {k : Color} {seen : List Loc}
    (dead : DeadBy xSize c k seen p) (chain : Chain (grid xSize) c p q) : DeadBy xSize c k seen q := by
  obtain ⟨label, none, a, member, path⟩ := dead
  exact ⟨chain.label.trans label, fun ⟨e, free⟩ => none ⟨e, free.of_chain chain⟩, a, member,
    chain.symm.trans path⟩

end Dead

variable [Zobrist]

section Place

theorem placeStone_colors (b : Board) (loc : Loc) (pla : Player) :
    (b.placeStone loc pla).colors = Function.update b.colors loc pla := rfl

/-- The chains already on the board, when a stone is put on the empty point `loc`. -/
theorem inChain_placeStone (blank : b.colors loc = .empty) (apart : h ≠ loc) :
    (b.placeStone loc pla).InChain h q ↔ b.InChain h q := by
  by_cases here : q = loc
  · subst here
    refine iff_of_false (fun found => apart ?_) (fun found => found.1.ne_empty blank)
    have self : (b.placeStone q pla).chainHead q = q := Function.update_self ..
    exact found.2.symm.trans self
  · simp [InChain, placeStone, setColor, xorHash, Function.update_of_ne here]

theorem placeStone_shape (shape : b.Shape) (blank : b.colors loc = .empty) (player : pla.IsStone) :
    (b.placeStone loc pla).Shape := by
  refine @Shape.recolor b (b.placeStone loc pla) shape rfl rfl fun p => ?_
  rw [placeStone_colors]
  by_cases here : p = loc
  · subst here
    simpa [blank] using player.ne_wall
  · rw [Function.update_of_ne here]

theorem libs_placeStone (shape : b.Shape) (blank : b.colors loc = .empty) (player : pla.IsStone)
    (apart : h ≠ loc) : (b.placeStone loc pla).libs h = (b.libs h).erase loc := by
  ext e
  rw [mem_libs (placeStone_shape shape blank player), Finset.mem_erase, mem_libs shape]
  simp only [inChain_placeStone blank apart, placeStone_colors]
  by_cases here : e = loc
  · subst here
    simpa using fun filled => absurd filled player.ne_empty
  · simp only [Function.update_of_ne here, here, ne_eq, not_false_eq_true, true_and]
    exact Iff.rfl

theorem placeStone_chainOk (shape : b.Shape) (blank : b.colors loc = .empty) (player : pla.IsStone)
    (ok : b.ChainOk h 0) :
    (b.placeStone loc pla).ChainOk h (if ∃ a ∈ b.adj loc, b.InChain h a then 1 else 0) := by
  have apart : h ≠ loc := by
    rintro rfl
    exact ok.stone.ne_empty blank
  have other : ∀ q, b.InChain h q → q ≠ loc := by
    rintro q inside rfl
    exact inside.1.ne_empty blank
  have data : (b.placeStone loc pla).chainData h = b.chainData h := Function.update_of_ne apart ..
  refine ok.frame (fun q => inChain_placeStone blank apart) ?_ ?_ (by rw [data]) (by rw [data]) ?_
  · intro q inside
    exact Function.update_of_ne (other q inside) ..
  · intro q inside
    exact Function.update_of_ne (other q inside) ..
  · rw [data, ok.liberties, libs_placeStone shape blank player apart, Finset.card_erase_eq_ite]
    have touches : loc ∈ b.libs h ↔ ∃ a ∈ b.adj loc, b.InChain h a := by
      rw [mem_libs shape, and_iff_right blank]
    by_cases free : loc ∈ b.libs h
    · have positive := Finset.card_pos.2 ⟨loc, free⟩
      rw [if_pos free, if_pos (touches.1 free)]
      omega
    · rw [if_neg free, if_neg fun found => free (touches.2 found)]

theorem placeStone_chainOk_self (shape : b.Shape) (blank : b.colors loc = .empty) (player : pla.IsStone)
    (heads : ∀ q, (b.colors q).IsStone → b.chainHead q ≠ loc) : (b.placeStone loc pla).ChainOk loc 0 := by
  have shape' := placeStone_shape shape blank player
  have self : (b.placeStone loc pla).chainHead loc = loc := Function.update_self ..
  have colour : (b.placeStone loc pla).colors loc = pla := Function.update_self ..
  have members : ∀ q, (b.placeStone loc pla).InChain loc q ↔ q = loc := by
    intro q
    constructor
    · rintro ⟨stone, head⟩
      by_contra other
      apply heads q
      · rwa [placeStone_colors, Function.update_of_ne other] at stone
      · exact (Function.update_of_ne other ..).symm.trans head
    · rintro rfl
      exact ⟨by rw [colour]; exact player, self⟩
  have data : (b.placeStone loc pla).chainData loc =
      ⟨pla, 1, (b.placeStone loc pla).getNumImmediateLiberties loc⟩ := Function.update_self ..
  refine ⟨by rw [colour]; exact player, self, ⟨[loc], ⟨by simp, ?_, ?_⟩, by rw [data]; rfl⟩, ?_,
    by rw [data, colour], ?_⟩
  · intro q
    rw [members q, List.mem_singleton]
  · exact linked_singleton.2 (Function.update_self ..)
  · intro q inside
    rw [(members q).1 inside]
  · rw [data, add_zero]
    change (((b.placeStone loc pla).adj loc).countP _ : Int) = _
    rw [List.countP_eq_length_filter, ← List.toFinset_card_of_nodup ((shape'.adj_nodup loc).filter _)]
    congr 2
    ext e
    simp only [mem_libs shape', members, List.mem_toFinset, List.mem_filter, decide_eq_true_eq]
    constructor
    · rintro ⟨adjacent, free⟩
      exact ⟨free, loc, adj_symm adjacent, rfl⟩
    · rintro ⟨free, q, adjacent, rfl⟩
      exact ⟨adj_symm adjacent, free⟩

end Place

/-- After the directions `seen`: `c` are the colours with the new stone, the dead chains among
the opponents seen are gone, and the friends seen belong to the chain of `loc`. -/
structure PlayInv (b₀ : Board) (c : Loc → Color) (loc : Loc) (pla : Player) (seen : List Loc)
    (s : PlayState) : Prop where
  xSize : s.board.xSize = b₀.xSize
  ySize : s.board.ySize = b₀.ySize
  koLoc : s.board.koLoc = b₀.koLoc
  numBlackCaptures : s.board.numBlackCaptures = b₀.numBlackCaptures
  numWhiteCaptures : s.board.numWhiteCaptures = b₀.numWhiteCaptures
  placed : c loc = pla
  recorded : s.board.Recorded (s.board.pending loc seen)
  dead : ∀ q, DeadBy b₀.xSize c (getOpp pla) seen q → s.board.colors q = .empty
  kept : ∀ q, ¬ DeadBy b₀.xSize c (getOpp pla) seen q → s.board.colors q = c q
  connected : ∀ p q, (s.board.colors p).IsStone → (s.board.colors q).IsStone →
    s.board.chainHead p = s.board.chainHead q → Chain (grid b₀.xSize) c p q
  closed : ∀ p q, (s.board.colors p).IsStone → q ∈ b₀.adj p → s.board.colors q = s.board.colors p →
    (p = loc → q ∈ seen) → (q = loc → p ∈ seen) → s.board.chainHead q = s.board.chainHead p
  headsSeen : ∀ p, s.board.colors p = getOpp pla →
    (s.board.chainHead p ∈ s.oppHeadsSeen ↔ ∃ a ∈ seen, s.board.InChain (s.board.chainHead p) a)
  captured : s.numCaptured = (taken c s.board.colors (getOpp pla)).ncard
  koPoint : s.numCaptured ≠ 0 →
    s.possibleKoLoc ∈ b₀.adj loc ∧ s.possibleKoLoc ∈ taken c s.board.colors (getOpp pla)

theorem playInv_placeStone (regular : b.Regular) (blank : b.colors loc = .empty) (player : pla.IsStone) :
    PlayInv b (Function.update b.colors loc pla) loc pla [] ⟨b.placeStone loc pla, 0, nullLoc, []⟩ := by
  have shape := regular.shape
  have heads : ∀ q, (b.colors q).IsStone → b.chainHead q ≠ loc := by
    intro q stone same
    have ok := regular.chainOk stone
    rw [same] at ok
    exact ok.stone.ne_empty blank
  have nobody : ∀ q, ¬ DeadBy b.xSize (Function.update b.colors loc pla) (getOpp pla) [] q := by
    rintro q ⟨-, -, a, member, -⟩
    simp at member
  have self : (b.placeStone loc pla).chainHead loc = loc := Function.update_self ..
  have other : ∀ q, q ≠ loc → (b.placeStone loc pla).chainHead q = b.chainHead q := fun q apart =>
    Function.update_of_ne apart ..
  have stones : ∀ q, q ≠ loc → (b.placeStone loc pla).colors q = b.colors q := fun q apart =>
    Function.update_of_ne apart ..
  have nothing : taken (Function.update b.colors loc pla) (Function.update b.colors loc pla) (getOpp pla) = ∅ := by
    ext q
    simp only [taken, Set.mem_ofPred_eq, Set.mem_empty_iff_false, iff_false, not_and]
    intro opposite
    rw [opposite]
    exact player.opp.ne_empty
  refine ⟨rfl, rfl, rfl, rfl, rfl, Function.update_self .., ⟨placeStone_shape shape blank player, ?_, ?_⟩,
    fun q dead => absurd dead (nobody q), fun q _ => rfl, ?_, ?_, by simp, ?_, fun some => absurd rfl some⟩
  · change b.posHash ^^^ Zobrist.boardHash loc pla = _
    rw [regular.recorded.hash, placeStone_colors]
    change _ = positionHash b.xSize b.ySize _
    rw [positionHash_update (shape.mem_locs (by rw [blank]; decide)), blank, stoneHash_empty,
      Hash128.xor_zero, stoneHash_of_stone player]
  · intro p stone
    by_cases here : p = loc
    · subst here
      rw [show (b.placeStone p pla).chainHead p = p from self, pending, if_neg (by simp [self])]
      exact placeStone_chainOk_self shape blank player heads
    · rw [stones p here] at stone
      have ok := placeStone_chainOk shape blank player (regular.chainOk stone)
      simp only [other p here]
      convert ok using 1
      rw [pending, self]
      simp [heads p stone, inChain_placeStone blank (heads p stone), adj]
      rfl
  · intro p q stoneP stoneQ same
    by_cases hereP : p = loc
    · by_cases hereQ : q = loc
      · rw [hereP, hereQ]
        exact Chain.refl _
      · rw [hereP, self, other q hereQ] at same
        rw [stones q hereQ] at stoneQ
        exact absurd same.symm (heads q stoneQ)
    · by_cases hereQ : q = loc
      · rw [hereQ, self, other p hereP] at same
        rw [stones p hereP] at stoneP
        exact absurd same (heads p stoneP)
      · rw [other p hereP, other q hereQ] at same
        rw [stones p hereP] at stoneP
        rw [stones q hereQ] at stoneQ
        refine ((regular.component p q stoneP).1 ⟨stoneQ, same.symm⟩).weaken (k := b.colors p) ?_ rfl
        intro x label
        have apart : x ≠ loc := by
          rintro rfl
          exact stoneP.ne_empty (label.symm.trans blank)
        rw [Function.update_of_ne apart, label]
  · intro p q stone adjacent same hereP hereQ
    have apartP : p ≠ loc := fun here => by simpa using hereP here
    have apartQ : q ≠ loc := fun here => by simpa using hereQ here
    rw [stones p apartP] at stone
    rw [stones p apartP, stones q apartQ] at same
    rw [other p apartP, other q apartQ]
    exact regular.head_eq stone adjacent same
  · rw [placeStone_colors, nothing, Set.ncard_empty]
    rfl

namespace PlayInv

variable {b₀ : Board} {c : Loc → Color} {seen : List Loc} {s : PlayState}

theorem colour (inv : PlayInv b₀ c loc pla seen s) (filled : s.board.colors q ≠ .empty) :
    s.board.colors q = c q := by
  by_cases dead : DeadBy b₀.xSize c (getOpp pla) seen q
  · exact absurd (inv.dead q dead) filled
  · exact inv.kept q dead

theorem adj_eq (inv : PlayInv b₀ c loc pla seen s) (p : Loc) : s.board.adj p = b₀.adj p := by
  rw [adj, adj, inv.xSize]

theorem loc_colour (inv : PlayInv b₀ c loc pla seen s) (player : pla.IsStone) : s.board.colors loc = pla :=
  (inv.kept loc fun dead => player.opp_ne (dead.1.symm.trans inv.placed)).trans inv.placed

/-- The opponent's chains on the board are components of `c`. -/
theorem opp_inChain (inv : PlayInv b₀ c loc pla seen s) (player : pla.IsStone)
    (opposite : s.board.colors p = getOpp pla) :
    s.board.InChain (s.board.chainHead p) q ↔ Chain (grid b₀.xSize) c p q := by
  have stone : (s.board.colors p).IsStone := by rw [opposite]; exact player.opp
  refine ⟨fun inside => inv.connected p q stone inside.1 inside.2.symm, fun chain => ?_⟩
  have label : c p = getOpp pla := by rw [← inv.colour stone.ne_empty, opposite]
  have alive : ¬ DeadBy b₀.xSize c (getOpp pla) seen p := fun dead => stone.ne_empty (inv.dead p dead)
  have apart : ∀ x, c x = getOpp pla → x ≠ loc := by
    rintro x same rfl
    exact player.opp_ne (same.symm.trans inv.placed)
  refine (Chain.mem_of_closed (S := fun q => c q = getOpp pla ∧ Chain (grid b₀.xSize) c p q ∧
    s.board.InChain (s.board.chainHead p) q) ⟨label, Chain.refl p, stone, rfl⟩ ?_ chain).2.2
  rintro x y ⟨labelX, pathX, inside⟩ adjacent same
  have pathY := pathX.trans (Chain.single adjacent same)
  have labelY := same.trans labelX
  have colourY : s.board.colors y = c y :=
    inv.kept y fun dead => alive (dead.of_chain pathY.symm)
  have head := inv.closed x y inside.1 adjacent (by rw [colourY, inv.colour inside.1.ne_empty, same])
    (fun here => absurd here (apart x labelX)) (fun here => absurd here (apart y labelY))
  exact ⟨labelY, pathY, by rw [colourY, labelY]; exact player.opp, head.trans inside.2⟩

/-- The captures so far gave no liberty to the opponent's other chains. -/
theorem opp_libs (inv : PlayInv b₀ c loc pla seen s) (player : pla.IsStone)
    (opposite : s.board.colors p = getOpp pla) :
    e ∈ s.board.libs (s.board.chainHead p) ↔ Liberty (grid b₀.xSize) .empty c p e := by
  have stone : (s.board.colors p).IsStone := by rw [opposite]; exact player.opp
  have label : c p = getOpp pla := by rw [← inv.colour stone.ne_empty, opposite]
  rw [mem_libs inv.recorded.shape, inv.adj_eq]
  constructor
  · rintro ⟨free, q, adjacent, inside⟩
    have path := (inv.opp_inChain player opposite).1 inside
    refine ⟨?_, q, path, adjs_symm adjacent⟩
    rw [← inv.kept e, free]
    -- A removed stone next to a stone of its colour would have taken it along.
    intro dead
    refine inside.1.ne_empty (inv.dead q (dead.of_chain (Chain.single adjacent ?_)))
    rw [path.label, label, dead.1]
  · rintro ⟨free, q, path, adjacent⟩
    refine ⟨?_, q, adjs_symm adjacent, (inv.opp_inChain player opposite).2 path⟩
    rw [inv.kept e, free]
    intro dead
    exact player.opp.ne_empty (dead.1.symm.trans free)

/-- A direction that changes at most counters. -/
theorem look (inv : PlayInv b₀ c loc pla seen s) (data : Loc → ChainData) (heads : List Loc)
    (recorded : ({ s.board with chainData := data } : Board).Recorded (s.board.pending loc (seen ++ [a])))
    (headsSeen : ∀ p, s.board.colors p = getOpp pla → (s.board.chainHead p ∈ heads ↔
      ∃ x ∈ seen ++ [a], s.board.InChain (s.board.chainHead p) x))
    (friend : s.board.colors a = s.board.colors loc → s.board.chainHead a = s.board.chainHead loc)
    (survives : c a = getOpp pla → (¬ ∃ e, Liberty (grid b₀.xSize) .empty c a e) →
      DeadBy b₀.xSize c (getOpp pla) seen a) :
    PlayInv b₀ c loc pla (seen ++ [a])
      { s with
        board := { s.board with chainData := data }
        oppHeadsSeen := heads } := by
  have same : ∀ q, DeadBy b₀.xSize c (getOpp pla) (seen ++ [a]) q ↔ DeadBy b₀.xSize c (getOpp pla) seen q := by
    intro q
    rw [deadBy_snoc]
    refine ⟨?_, Or.inl⟩
    rintro (old | ⟨label, none, path⟩)
    · exact old
    · have dead := survives (path.label.trans label) fun ⟨e, free⟩ => none ⟨e, free.of_chain path⟩
      exact dead.of_chain path.symm
  refine ⟨inv.xSize, inv.ySize, inv.koLoc, inv.numBlackCaptures, inv.numWhiteCaptures, inv.placed, recorded,
    fun q dead => inv.dead q ((same q).1 dead), fun q alive => inv.kept q fun dead => alive ((same q).2 dead),
    inv.connected, ?_, headsSeen, inv.captured, inv.koPoint⟩
  intro p q stone adjacent colours left right
  simp only [List.mem_append, List.mem_singleton] at left right
  by_cases new : p = loc ∧ q = a
  · obtain ⟨rfl, rfl⟩ := new
    exact friend colours
  by_cases new' : q = loc ∧ p = a
  · obtain ⟨rfl, rfl⟩ := new'
    exact (friend colours.symm).symm
  · exact inv.closed p q stone adjacent colours
      (fun here => (left here).resolve_right fun there => new ⟨here, there⟩)
      (fun here => (right here).resolve_right fun there => new' ⟨here, there⟩)

/-- A direction whose chain was already seen, or that holds no stone. -/
theorem skip (inv : PlayInv b₀ c loc pla seen s) (player : pla.IsStone)
    (known : (s.board.colors a).IsStone → s.board.chainHead a = s.board.chainHead loc ∨
      s.board.colors a = getOpp pla ∧ ∃ e ∈ seen, s.board.InChain (s.board.chainHead a) e) :
    PlayInv b₀ c loc pla (seen ++ [a]) s := by
  have locColour := inv.loc_colour player
  have locStone : (s.board.colors loc).IsStone := by rw [locColour]; exact player
  have inChain : ∀ h, s.board.InChain h a →
      h = s.board.chainHead loc ∨ ∃ e ∈ seen, s.board.InChain h e := by
    rintro h ⟨stone, rfl⟩
    exact (known stone).imp id fun found => found.2
  have pendings : s.board.pending loc (seen ++ [a]) = s.board.pending loc seen :=
    funext fun h => pending_snoc (inChain h)
  refine inv.look s.board.chainData s.oppHeadsSeen (by rw [pendings]; exact inv.recorded) ?_ ?_ ?_
  · intro p opposite
    rw [inv.headsSeen p opposite]
    simp only [List.mem_append, List.mem_singleton, or_and_right, exists_or, exists_eq_left]
    refine ⟨Or.inl, ?_⟩
    rintro (old | new)
    · exact old
    · refine (inChain _ new).resolve_left fun merged => player.opp_ne ?_
      have path := inv.connected p loc (by rw [opposite]; exact player.opp) locStone merged
      rw [← opposite, inv.colour (by rw [opposite]; exact player.opp.ne_empty), ← path.label, inv.placed]
  · intro same
    refine (known (by rw [same]; exact locStone)).resolve_right fun found => player.opp_ne ?_
    rw [← found.1, same, locColour]
  · intro label none
    by_contra alive
    have colour := (inv.kept a alive).trans label
    have stone : (s.board.colors a).IsStone := by rw [colour]; exact player.opp
    rcases known stone with merged | ⟨-, e, member, inside⟩
    · have path := inv.connected a loc stone locStone merged
      exact player.opp_ne (label.symm.trans (path.label.symm.trans inv.placed))
    · exact alive ⟨label, none, e, member, (inv.opp_inChain player colour).1 inside⟩

/-- Taking `loc` off the counter of the chain of `a` settles this chain. -/
theorem settle (inv : PlayInv b₀ c loc pla seen s) (stone : (s.board.colors a).IsStone)
    (open' : s.board.pending loc seen (s.board.chainHead a) = 1) :
    (s.board.addLiberties (s.board.chainHead a) (-1)).Recorded (s.board.pending loc (seen ++ [a])) := by
  refine ⟨inv.recorded.shape.recolor rfl rfl fun _ => Iff.rfl, inv.recorded.hash, fun p isStone => ?_⟩
  have ok := (inv.recorded.chain p isStone).addLiberties (s.board.chainHead a) (-1)
  have count : s.board.pending loc (seen ++ [a]) (s.board.chainHead p) =
      s.board.pending loc seen (s.board.chainHead p) +
        if s.board.chainHead p = s.board.chainHead a then -1 else 0 := by
    split_ifs with same
    · rw [same, open', pending, if_neg]
      · rfl
      · rintro ⟨-, -, fresh⟩
        exact fresh ⟨a, by simp, stone, rfl⟩
    · rw [add_zero]
      exact pending_snoc fun inside => absurd inside.2.symm same
  rw [addLiberties_chainHead, count]
  exact ok

theorem opp_pending (inv : PlayInv b₀ c loc pla seen s) (player : pla.IsStone) (near : a ∈ b₀.adj loc)
    (opposite : s.board.colors a = getOpp pla) (fresh : s.board.chainHead a ∉ s.oppHeadsSeen) :
    s.board.pending loc seen (s.board.chainHead a) = 1 := by
  have stone : (s.board.colors a).IsStone := by rw [opposite]; exact player.opp
  have locStone : (s.board.colors loc).IsStone := by rw [inv.loc_colour player]; exact player
  refine if_pos ⟨fun merged => player.opp_ne ?_, ⟨a, by rw [inv.adj_eq]; exact near, stone, rfl⟩,
    fun found => fresh ((inv.headsSeen a opposite).2 found)⟩
  have path := inv.connected a loc stone locStone merged
  rw [← opposite, inv.colour stone.ne_empty, ← path.label, inv.placed]

theorem friend_pending (inv : PlayInv b₀ c loc pla seen s) (player : pla.IsStone) (near : a ∈ b₀.adj loc)
    (seenNear : ∀ x ∈ seen, x ∈ b₀.adj loc) (friend : s.board.colors a = pla)
    (apart : s.board.chainHead a ≠ s.board.chainHead loc) :
    s.board.pending loc seen (s.board.chainHead a) = 1 := by
  have stone : (s.board.colors a).IsStone := by rw [friend]; exact player
  have locColour := inv.loc_colour player
  refine if_pos ⟨apart, ⟨a, by rw [inv.adj_eq]; exact near, stone, rfl⟩, ?_⟩
  rintro ⟨x, member, isStone, head⟩
  have path := inv.connected a x stone isStone head.symm
  have colour : s.board.colors x = s.board.colors loc := by
    rw [locColour, inv.colour isStone.ne_empty, path.label, ← inv.colour stone.ne_empty, friend]
  have joined := inv.closed loc x (by rw [locColour]; exact player) (seenNear x member) colour
    (fun _ => member) (fun here => absurd (here ▸ seenNear x member) (not_mem_adj_self b₀ loc))
  exact apart (head.symm.trans joined)

theorem opp_count (inv : PlayInv b₀ c loc pla seen s) (player : pla.IsStone) (near : a ∈ b₀.adj loc)
    (opposite : s.board.colors a = getOpp pla) (fresh : s.board.chainHead a ∉ s.oppHeadsSeen) :
    (s.board.addLiberties (s.board.chainHead a) (-1)).getNumLiberties a = 0 ↔
      ¬ ∃ e, Liberty (grid b₀.xSize) .empty c a e := by
  have stone : (s.board.colors a).IsStone := by rw [opposite]; exact player.opp
  have ok := (inv.settle stone (inv.opp_pending player near opposite fresh)).chain a stone
  have settled : s.board.pending loc (seen ++ [a]) (s.board.chainHead a) = 0 :=
    if_neg fun found => found.2.2 ⟨a, by simp, stone, rfl⟩
  have counted := ok.liberties
  rw [addLiberties_chainHead, settled, add_zero] at counted
  change _ = ((s.board.libs (s.board.chainHead a)).card : Int) at counted
  rw [getNumLiberties, addLiberties_chainHead, counted, Nat.cast_eq_zero, Finset.card_eq_zero,
    Finset.eq_empty_iff_forall_notMem, not_exists]
  exact forall_congr' fun e => not_congr (inv.opp_libs player opposite)

/-- An opposing chain that keeps a liberty. -/
theorem pressed (inv : PlayInv b₀ c loc pla seen s) (player : pla.IsStone) (near : a ∈ b₀.adj loc)
    (opposite : s.board.colors a = getOpp pla) (fresh : s.board.chainHead a ∉ s.oppHeadsSeen)
    (free : (s.board.addLiberties (s.board.chainHead a) (-1)).getNumLiberties a ≠ 0) :
    PlayInv b₀ c loc pla (seen ++ [a])
      { s with
        board := s.board.addLiberties (s.board.chainHead a) (-1)
        oppHeadsSeen := s.oppHeadsSeen ++ [s.board.chainHead a] } := by
  have stone : (s.board.colors a).IsStone := by rw [opposite]; exact player.opp
  refine inv.look _ _ (inv.settle stone (inv.opp_pending player near opposite fresh)) ?_ ?_ ?_
  · intro p opposing
    rw [List.mem_append, inv.headsSeen p opposing, List.mem_singleton]
    simp only [List.mem_append, List.mem_singleton, or_and_right, exists_or, exists_eq_left]
    exact or_congr_right ⟨fun same => ⟨stone, same.symm⟩, fun inside => inside.2.symm⟩
  · intro same
    rw [opposite, inv.loc_colour player] at same
    exact absurd same player.opp_ne
  · intro _ none
    exact absurd ((inv.opp_count player near opposite fresh).2 none) free

/-- An opposing chain that loses its last liberty is removed. -/
theorem capture (inv : PlayInv b₀ c loc pla seen s) (player : pla.IsStone) (near : a ∈ b₀.adj loc)
    (opposite : s.board.colors a = getOpp pla) (fresh : s.board.chainHead a ∉ s.oppHeadsSeen)
    (none : (s.board.addLiberties (s.board.chainHead a) (-1)).getNumLiberties a = 0) :
    ∃ b' removed, (s.board.addLiberties (s.board.chainHead a) (-1)).removeChain a = some (b', removed) ∧
      PlayInv b₀ c loc pla (seen ++ [a])
        ⟨b', s.numCaptured + removed, a, s.oppHeadsSeen ++ [s.board.chainHead a]⟩ := by
  have stone : (s.board.colors a).IsStone := by rw [opposite]; exact player.opp
  have recorded := inv.settle stone (inv.opp_pending player near opposite fresh)
  have dead := (inv.opp_count player near opposite fresh).1 none
  have label : c a = getOpp pla := (inv.colour stone.ne_empty).symm.trans opposite
  have goneOk := recorded.chain a stone
  rw [addLiberties_chainHead] at goneOk
  obtain ⟨b', l, removed, ring, size, cleared⟩ := removeChain_eq recorded.shape goneOk ⟨stone, rfl⟩
  have headColour : s.board.colors (s.board.chainHead a) = getOpp pla := by
    rw [← opposite]
    exact (goneOk.colour a ⟨stone, rfl⟩).symm
  have members : ∀ q, q ∈ l ↔ Chain (grid b₀.xSize) c a q := fun q =>
    (ring.mem q).trans (inv.opp_inChain player opposite)
  have colours : ∀ q, b'.colors q = if q ∈ l then .empty else s.board.colors q := cleared.colors
  have heads : b'.chainHead = s.board.chainHead := cleared.chainHead
  have remains : ∀ q, (b'.colors q).IsStone → q ∉ l ∧ b'.colors q = s.board.colors q := by
    intro q isStone
    rw [colours q] at isStone ⊢
    split_ifs at isStone ⊢ with inside
    · exact absurd rfl isStone.ne_empty
    · exact ⟨inside, rfl⟩
  have otherHead : ∀ q, (s.board.colors q).IsStone → q ∉ l → s.board.chainHead q ≠ s.board.chainHead a :=
    fun q isStone outside same => outside ((ring.mem q).2 ⟨isStone, same⟩)
  have inChain : ∀ g q, g ≠ s.board.chainHead a → (b'.InChain g q ↔ s.board.InChain g q) := by
    intro g q apart
    rw [InChain, InChain, heads, colours q]
    split_ifs with inside
    · exact iff_of_false (fun found => found.1.ne_empty rfl)
        (fun found => apart (found.2.symm.trans ((ring.mem q).1 inside).2))
    · exact Iff.rfl
  have isolated : ∀ q, (s.board.addLiberties (s.board.chainHead a) (-1)).InChain (s.board.chainHead a) q →
      ∀ x ∈ (s.board.addLiberties (s.board.chainHead a) (-1)).adj q,
        s.board.colors x = s.board.colors (s.board.chainHead a) →
        (s.board.addLiberties (s.board.chainHead a) (-1)).InChain (s.board.chainHead a) x := by
    intro q inside x adjacent same
    have path := (inv.opp_inChain player opposite).1 inside
    rw [headColour] at same
    refine (inv.opp_inChain player opposite).2 (path.trans (Chain.single ?_ ?_))
    · rw [← inv.xSize]
      exact adjacent
    · rw [path.label, label, ← inv.colour (by rw [same]; exact player.opp.ne_empty), same]
  refine ⟨b', _, removed, ⟨cleared.xSize.trans inv.xSize, cleared.ySize.trans inv.ySize,
    cleared.koLoc.trans inv.koLoc, cleared.numBlackCaptures.trans inv.numBlackCaptures,
    cleared.numWhiteCaptures.trans inv.numWhiteCaptures, inv.placed, ⟨?_, cleared.posHash inv.recorded.hash, ?_⟩,
    ?_, ?_, ?_, ?_, ?_, ?_, ?_⟩⟩
  · exact cleared.shape recorded.shape fun q inside => ((ring.mem q).1 inside).1.ne_wall
  · intro p isStone
    obtain ⟨outside, same⟩ := remains p isStone
    rw [same] at isStone
    have apart := otherHead p isStone outside
    have ok := cleared.chainOk recorded.shape ring.nodup (fun q => (ring.mem q).1) goneOk.stone
      (fun q member => isolated q ((ring.mem q).1 member)) (recorded.chain p isStone) apart
    have pendings : b'.pending loc (seen ++ [a]) (s.board.chainHead p) =
        s.board.pending loc (seen ++ [a]) (s.board.chainHead p) := by
      have adjacent : b'.adj loc = s.board.adj loc := by rw [adj, adj, cleared.xSize]; rfl
      unfold pending
      simp only [heads, adjacent, inChain _ _ apart]
    rw [heads, pendings]
    exact ok
  · intro q gone
    rw [colours q]
    split_ifs with inside
    · rfl
    · rcases deadBy_snoc.1 gone with old | ⟨-, -, path⟩
      · exact inv.dead q old
      · exact absurd ((members q).2 path.symm) inside
  · intro q alive
    rw [colours q, if_neg]
    · exact inv.kept q fun old => alive (deadBy_snoc.2 (Or.inl old))
    · intro inside
      have path := (members q).1 inside
      exact alive (deadBy_snoc.2 (Or.inr ⟨path.label.trans label,
        fun reached => dead (reached.imp fun _ free => free.of_chain path), path.symm⟩))
  · intro p q stoneP stoneQ same
    rw [(remains p stoneP).2] at stoneP
    rw [(remains q stoneQ).2] at stoneQ
    rw [heads] at same
    exact inv.connected p q stoneP stoneQ same
  · intro p q stoneP adjacent same left right
    have stoneQ : (b'.colors q).IsStone := by rw [same]; exact stoneP
    rw [(remains p stoneP).2, (remains q stoneQ).2] at same
    rw [(remains p stoneP).2] at stoneP
    rw [heads]
    simp only [List.mem_append, List.mem_singleton] at left right
    refine inv.closed p q stoneP adjacent same (fun here => (left here).resolve_right ?_)
      (fun here => (right here).resolve_right ?_)
    · rintro rfl
      rw [opposite, here, inv.loc_colour player] at same
      exact player.opp_ne same
    · rintro rfl
      rw [opposite, here, inv.loc_colour player] at same
      exact player.opp_ne same.symm
  · intro p opposing
    have isStone : (b'.colors p).IsStone := by rw [opposing]; exact player.opp
    obtain ⟨outside, same⟩ := remains p isStone
    rw [same] at isStone opposing
    have apart := otherHead p isStone outside
    rw [heads, List.mem_append, inv.headsSeen p opposing, List.mem_singleton]
    simp only [List.mem_append, List.mem_singleton, or_and_right, exists_or, exists_eq_left,
      inChain _ _ apart]
    exact or_congr_right ⟨fun equal => absurd equal apart, fun inside => absurd inside.2.symm apart⟩
  · have union : taken c b'.colors (getOpp pla) = taken c s.board.colors (getOpp pla) ∪ (l.toFinset : Set Loc) := by
      ext q
      simp only [taken, Set.mem_ofPred_eq, Set.mem_union, Finset.mem_coe, List.mem_toFinset, colours q]
      by_cases inside : q ∈ l
      · simp [inside, ((members q).1 inside).label.trans label]
      · simp [inside]
    have disjoint : Disjoint (taken c s.board.colors (getOpp pla)) (l.toFinset : Set Loc) := by
      rw [Set.disjoint_left]
      intro q gone inside
      rw [Finset.mem_coe, List.mem_toFinset] at inside
      exact ((ring.mem q).1 inside).1.ne_empty gone.2
    have finite : (taken c s.board.colors (getOpp pla)).Finite := by
      refine Set.Finite.subset (Finset.finite_toSet s.board.locs.toFinset) fun q gone => ?_
      rw [Finset.mem_coe, List.mem_toFinset]
      exact inv.recorded.shape.mem_locs (by rw [gone.2]; decide)
    change s.numCaptured + _ = _
    rw [union, Set.ncard_union_eq disjoint finite (Finset.finite_toSet _), Set.ncard_coe_finset,
      List.toFinset_card_of_nodup ring.nodup, size, inv.captured]
    push_cast
    rfl
  · intro _
    have inside : a ∈ l := (members a).2 (Chain.refl a)
    exact ⟨near, label, by rw [colours a, if_pos inside]⟩

/-- A friendly chain that is merged with the chain of `loc`. -/
theorem join (inv : PlayInv b₀ c loc pla seen s) (player : pla.IsStone) (near : a ∈ b₀.adj loc)
    (seenNear : ∀ x ∈ seen, x ∈ b₀.adj loc) (friend : s.board.colors a = pla)
    (apart : s.board.chainHead a ≠ s.board.chainHead loc) :
    ∃ b', (s.board.addLiberties (s.board.chainHead a) (-1)).mergeChains a loc = some b' ∧
      PlayInv b₀ c loc pla (seen ++ [a]) { s with board := b' } := by
  have stone : (s.board.colors a).IsStone := by rw [friend]; exact player
  have locColour := inv.loc_colour player
  have locStone : (s.board.colors loc).IsStone := by rw [locColour]; exact player
  have recorded := inv.settle stone (inv.friend_pending player near seenNear friend apart)
  have okA := recorded.chain a stone
  have okLoc := recorded.chain loc locStone
  rw [addLiberties_chainHead, show s.board.pending loc (seen ++ [a]) (s.board.chainHead a) = 0 from
    if_neg fun found => found.2.2 ⟨a, by simp, stone, rfl⟩] at okA
  rw [addLiberties_chainHead, show s.board.pending loc (seen ++ [a]) (s.board.chainHead loc) = 0 from
    if_neg fun found => found.1 rfl] at okLoc
  have headColours : s.board.colors (s.board.chainHead loc) = s.board.colors (s.board.chainHead a) :=
    (okLoc.colour loc ⟨locStone, rfl⟩).symm.trans
      ((locColour.trans friend.symm).trans (okA.colour a ⟨stone, rfl⟩))
  obtain ⟨b', h₁, h₂, merge, merged, which⟩ := mergeChains_spec recorded.shape okA okLoc apart headColours
  rw [addLiberties_chainHead] at which
  have colours : b'.colors = s.board.colors := merged.colors
  -- The two chains now have head `h₁`; all other heads are as before.
  have survivor : h₁ = s.board.chainHead a ∨ h₁ = s.board.chainHead loc := which.imp And.left And.left
  have heads : ∀ q, (s.board.colors q).IsStone → b'.chainHead q =
      if s.board.chainHead q = s.board.chainHead a ∨ s.board.chainHead q = s.board.chainHead loc then h₁
      else s.board.chainHead q := by
    intro q isStone
    have absorbed : (s.board.addLiberties (s.board.chainHead a) (-1)).InChain h₂ q ↔
        s.board.chainHead q = h₂ := and_iff_right isStone
    rw [merged.chainHead q]
    simp only [absorbed, addLiberties_chainHead]
    rcases which with ⟨rfl, rfl⟩ | ⟨rfl, rfl⟩ <;> split_ifs <;> tauto
  have headOf : ∀ q, (s.board.colors q).IsStone → (b'.chainHead q = h₁ ↔
      s.board.chainHead q = s.board.chainHead a ∨ s.board.chainHead q = s.board.chainHead loc) := by
    intro q isStone
    rw [heads q isStone]
    split_ifs with inside
    · exact iff_of_true rfl inside
    · refine iff_of_false (fun same => inside ?_) inside
      rw [same]
      exact survivor
  have newHead : b'.chainHead loc = h₁ := (headOf loc locStone).2 (Or.inr rfl)
  have inChain : ∀ g q, g ≠ s.board.chainHead a → g ≠ s.board.chainHead loc →
      (b'.InChain g q ↔ s.board.InChain g q) := by
    intro g q notA notLoc
    rw [InChain, InChain, colours]
    refine and_congr_right fun isStone => ?_
    rw [heads q isStone]
    split_ifs with inside
    · refine iff_of_false (fun same => ?_) (fun same => ?_)
      · exact survivor.elim (fun equal => notA (same.symm.trans equal)) fun equal => notLoc (same.symm.trans equal)
      · exact inside.elim (fun equal => notA (same.symm.trans equal)) fun equal => notLoc (same.symm.trans equal)
    · exact Iff.rfl
  have oppHead : ∀ p, s.board.colors p = getOpp pla →
      s.board.chainHead p ≠ s.board.chainHead a ∧ s.board.chainHead p ≠ s.board.chainHead loc := by
    intro p opposite
    have isStone : (s.board.colors p).IsStone := by rw [opposite]; exact player.opp
    have label : c p = getOpp pla := (inv.colour isStone.ne_empty).symm.trans opposite
    refine ⟨fun same => player.opp_ne ?_, fun same => player.opp_ne ?_⟩
    · rw [← label, ← (inv.connected p a isStone stone same).label, ← inv.colour stone.ne_empty, friend]
    · rw [← label, ← (inv.connected p loc isStone locStone same).label, inv.placed]
  have linkA : Chain (grid b₀.xSize) c a loc := by
    refine Chain.symm (Chain.single near ?_)
    rw [inv.placed, ← inv.colour stone.ne_empty, friend]
  have same : ∀ q, DeadBy b₀.xSize c (getOpp pla) (seen ++ [a]) q ↔ DeadBy b₀.xSize c (getOpp pla) seen q := by
    intro q
    rw [deadBy_snoc]
    refine ⟨fun found => found.resolve_right ?_, Or.inl⟩
    rintro ⟨label, -, path⟩
    refine player.opp_ne ?_
    rw [← label, ← path.label, ← inv.colour stone.ne_empty, friend]
  refine ⟨b', merge, ⟨merged.xSize.trans inv.xSize, merged.ySize.trans inv.ySize, merged.koLoc.trans inv.koLoc,
    merged.numBlackCaptures.trans inv.numBlackCaptures, merged.numWhiteCaptures.trans inv.numWhiteCaptures,
    inv.placed, ⟨?_, ?_, ?_⟩, ?_, ?_, ?_, ?_, ?_, ?_, ?_⟩⟩
  · exact inv.recorded.shape.recolor merged.xSize merged.ySize fun p => by rw [colours]
  · change b'.posHash = positionHash b'.xSize b'.ySize b'.colors
    rw [merged.posHash, merged.xSize, merged.ySize, merged.colors]
    exact recorded.hash
  · intro p isStone
    rw [colours] at isStone
    change b'.ChainOk (b'.chainHead p) (b'.pending loc (seen ++ [a]) (b'.chainHead p))
    by_cases inside : s.board.chainHead p = s.board.chainHead a ∨ s.board.chainHead p = s.board.chainHead loc
    · rw [(headOf p isStone).2 inside, pending, if_neg fun found => found.1 newHead.symm]
      exact merged.joined
    · obtain ⟨notA, notLoc⟩ := not_or.1 inside
      have kept : b'.chainHead p = s.board.chainHead p := by rw [heads p isStone, if_neg inside]
      have pendings : b'.pending loc (seen ++ [a]) (s.board.chainHead p) =
          s.board.pending loc (seen ++ [a]) (s.board.chainHead p) := by
        have adjacent : b'.adj loc = s.board.adj loc := by rw [adj, adj, merged.xSize]; rfl
        have other : s.board.chainHead p ≠ h₁ := by
          rintro equal
          exact inside (equal ▸ survivor)
        unfold pending
        simp only [newHead, other, notLoc, adjacent, inChain _ _ notA notLoc, ne_eq, not_false_eq_true, true_and]
      rw [kept, pendings]
      refine merged.others _ _ ?_ ?_ (recorded.chain p isStone)
      · rcases which with ⟨rfl, -⟩ | ⟨rfl, -⟩
        · exact notA
        · exact notLoc
      · rcases which with ⟨-, rfl⟩ | ⟨-, rfl⟩
        · exact notLoc
        · exact notA
  · intro q dead
    change b'.colors q = _
    rw [colours]
    exact inv.dead q ((same q).1 dead)
  · intro q alive
    change b'.colors q = _
    rw [colours]
    exact inv.kept q fun dead => alive ((same q).2 dead)
  · intro p q stoneP stoneQ equal
    change b'.chainHead p = b'.chainHead q at equal
    change (b'.colors p).IsStone at stoneP
    change (b'.colors q).IsStone at stoneQ
    rw [colours] at stoneP stoneQ
    have toLoc : ∀ x, (s.board.colors x).IsStone → b'.chainHead x = h₁ → Chain (grid b₀.xSize) c x loc := by
      intro x isStone head
      rcases (headOf x isStone).1 head with withA | withLoc
      · exact (inv.connected x a isStone stone withA).trans linkA
      · exact inv.connected x loc isStone locStone withLoc
    by_cases inside : b'.chainHead p = h₁
    · exact (toLoc p stoneP inside).trans (toLoc q stoneQ (equal ▸ inside)).symm
    · have outsideP := fun found => inside ((headOf p stoneP).2 found)
      have outsideQ := fun found => inside (equal.trans ((headOf q stoneQ).2 found))
      rw [heads p stoneP, heads q stoneQ, if_neg outsideP, if_neg outsideQ] at equal
      exact inv.connected p q stoneP stoneQ equal
  · intro p q stoneP adjacent equal left right
    change b'.chainHead q = b'.chainHead p
    change (b'.colors p).IsStone at stoneP
    change b'.colors q = b'.colors p at equal
    rw [colours] at stoneP equal
    have stoneQ : (s.board.colors q).IsStone := by rw [equal]; exact stoneP
    simp only [List.mem_append, List.mem_singleton] at left right
    by_cases new : p = loc ∧ q = a
    · rw [new.1, new.2, newHead]
      exact (headOf a stone).2 (Or.inl rfl)
    by_cases new' : q = loc ∧ p = a
    · rw [new'.1, new'.2, newHead]
      exact ((headOf a stone).2 (Or.inl rfl)).symm
    · have old := inv.closed p q stoneP adjacent equal
        (fun here => (left here).resolve_right fun there => new ⟨here, there⟩)
        (fun here => (right here).resolve_right fun there => new' ⟨here, there⟩)
      rw [heads p stoneP, heads q stoneQ, old]
  · intro p opposite
    change b'.colors p = _ at opposite
    rw [colours] at opposite
    obtain ⟨notA, notLoc⟩ := oppHead p opposite
    have isStone : (s.board.colors p).IsStone := by rw [opposite]; exact player.opp
    have kept : b'.chainHead p = s.board.chainHead p := by
      rw [heads p isStone, if_neg (not_or.2 ⟨notA, notLoc⟩)]
    change b'.chainHead p ∈ s.oppHeadsSeen ↔ ∃ x ∈ seen ++ [a], b'.InChain (b'.chainHead p) x
    rw [kept, inv.headsSeen p opposite]
    simp only [List.mem_append, List.mem_singleton, or_and_right, exists_or, exists_eq_left,
      inChain _ _ notA notLoc]
    exact ⟨Or.inl, fun found => found.resolve_right fun inside => notA inside.2.symm⟩
  · change s.numCaptured = (taken c b'.colors (getOpp pla)).ncard
    rw [colours]
    exact inv.captured
  · change s.numCaptured ≠ 0 → _ ∧ s.possibleKoLoc ∈ taken c b'.colors (getOpp pla)
    rw [colours]
    exact inv.koPoint

/-- One direction of the loop. -/
theorem step (inv : PlayInv b₀ c loc pla seen s) (player : pla.IsStone) (near : a ∈ b₀.adj loc)
    (seenNear : ∀ x ∈ seen, x ∈ b₀.adj loc) :
    ∃ s', playDir loc pla s a = some s' ∧ PlayInv b₀ c loc pla (seen ++ [a]) s' := by
  unfold playDir
  by_cases friend : s.board.colors a = pla
  · by_cases merged : s.board.chainHead a = s.board.chainHead loc
    · exact ⟨s, by simp [friend, merged], inv.skip player fun _ => Or.inl merged⟩
    · obtain ⟨b', merge, next⟩ := inv.join player near seenNear friend merged
      exact ⟨_, by simp [friend, merged, merge], next⟩
  by_cases opposite : s.board.colors a = getOpp pla
  · by_cases known : s.board.chainHead a ∈ s.oppHeadsSeen
    · refine ⟨s, by simp [opposite, known, player.opp_ne], inv.skip player fun _ => Or.inr ⟨opposite, ?_⟩⟩
      exact (inv.headsSeen a opposite).1 known
    · by_cases none : (s.board.addLiberties (s.board.chainHead a) (-1)).getNumLiberties a = 0
      · obtain ⟨b', removed, remove, next⟩ := inv.capture player near opposite known none
        exact ⟨_, by simp [opposite, known, player.opp_ne, none, remove], next⟩
      · exact ⟨_, by simp [opposite, known, player.opp_ne, none], inv.pressed player near opposite known none⟩
  · refine ⟨s, by simp [friend, opposite], inv.skip player fun stone => ?_⟩
    exact ((player.eq_or_eq_opp stone).elim friend opposite).elim

theorem loop (inv : PlayInv b₀ c loc pla seen s) (player : pla.IsStone) (rest : List Loc)
    (split : seen ++ rest = b₀.adj loc) :
    ∃ s', rest.foldlM (playDir loc pla) s = some s' ∧ PlayInv b₀ c loc pla (b₀.adj loc) s' := by
  induction rest generalizing seen s with
  | nil =>
    obtain rfl : seen = b₀.adj loc := by simpa using split
    exact ⟨s, rfl, inv⟩
  | cons a rest ih =>
    obtain ⟨s₁, first, next⟩ := inv.step player (a := a) (by rw [← split]; simp)
      (fun x member => by rw [← split]; exact List.mem_append_left _ member)
    obtain ⟨s', tail, final⟩ := ih next (by simpa using split)
    refine ⟨s', ?_, final⟩
    rw [List.foldlM_cons, first]
    exact tail

end PlayInv

end Board
end KataGo.Game
