import KataGo.Game.Move
import KataGo.Game.Setup

/-! Chains rebuilt from the colours by flood fill. A stone whose head is `nullLoc` has not
been reached yet; everything else is recorded correctly. -/

namespace KataGo.Game
open KataGo.Lib CircularList Flood Labelling

namespace Board

variable {b b' : Board} {h p q e v : Loc} {k : Color}

section Visits

/-- What the visits of `rebuildChainHelper` do to the list under construction. -/
theorem foldl_rebuildVisit_snd (head : Loc) (l : List Loc) (b : Board) (front : Loc) :
    ((l.foldl (rebuildVisit head) (b, front)).1.nextInChain, (l.foldl (rebuildVisit head) (b, front)).2) =
      l.foldl push (b.nextInChain, front) := by
  induction l generalizing b front with
  | nil => rfl
  | cons v l ih =>
    rw [List.foldl_cons, List.foldl_cons, rebuildVisit]
    exact ih _ v

/-- What they do to everything else. -/
theorem foldl_rebuildVisit (shape : b.Shape) (stone : (b.colors h).IsStone)
    (colour : ∀ q, b.InChain h q → b.colors q = b.colors h) {l : List Loc} (nodup : l.Nodup)
    (joining : ∀ q ∈ l, b.colors q = b.colors h ∧ b.chainHead q ≠ h) (front : Loc) :
    (l.foldl (rebuildVisit h) (b, front)).1 = { b.setHeads l h with
      chainData := Function.update b.chainData h ⟨(b.chainData h).owner, (b.chainData h).numLocs + l.length,
        (b.chainData h).numLiberties + (((b.setHeads l h).libs h).card - (b.libs h).card)⟩
      nextInChain := (l.foldl push (b.nextInChain, front)).1 } := by
  induction l generalizing b front with
  | nil => simp [setHeads]
  | cons v l ih =>
    have apart := List.nodup_cons.1 nodup
    obtain ⟨same, outside⟩ := joining v (by simp)
    have isStone : (b.colors v).IsStone := by rw [same]; exact stone
    have step : rebuildVisit h (b, front) v = (({ b with
        chainHead := Function.update b.chainHead v h
        chainData := Function.update b.chainData h ⟨(b.chainData h).owner, (b.chainData h).numLocs + 1,
          (b.chainData h).numLiberties +
            (((b.setHeads [v] h).libs h).card - (b.libs h).card)⟩
        nextInChain := Function.update b.nextInChain v front } : Board), v) := by
      have grown := card_libs_join shape isStone outside
      change ((b.setHeads [v] h).libs h).card = _ at grown
      rw [rebuildVisit, countP_new_liberties shape stone colour, grown]
      simp only [addLiberties, addLocs, ChainData.bump, Function.update_self, Function.update_idem]
      push_cast
      simp only [add_sub_cancel_left]
    rw [List.foldl_cons, step, ih]
    · refine Board.ext rfl rfl rfl ?_ rfl rfl rfl rfl rfl rfl
      simp only [Function.update_self, Function.update_idem]
      congr 2
      · rw [List.length_cons]
        push_cast
        ring
      · change _ + (((b.setHeads [v] h).libs h).card - ((b.libs h).card : Int)) +
          (((b.setHeads (v :: l) h).libs h).card - ((b.setHeads [v] h).libs h).card) = _
        ring
    · exact shape.recolor rfl rfl fun _ => Iff.rfl
    · exact stone
    · rintro x ⟨xStone, head⟩
      by_cases here : x = v
      · subst here
        exact same
      · exact colour x ⟨xStone, (Function.update_of_ne here ..).symm.trans head⟩
    · exact apart.2
    · intro x member
      have different : x ≠ v := fun here => apart.1 (here ▸ member)
      obtain ⟨sameX, outsideX⟩ := joining x (by simp [member])
      exact ⟨sameX, by simpa [Function.update_of_ne different] using outsideX⟩

end Visits

variable [Zobrist]

/-- The stones with a head are recorded correctly, and their chains are components. -/
structure Built (b : Board) : Prop where
  shape : b.Shape
  hash : b.posHash = positionHash b.xSize b.ySize b.colors
  chain : ∀ p, (b.colors p).IsStone → b.chainHead p ≠ nullLoc → b.ChainOk (b.chainHead p) 0
  component : ∀ p q, (b.colors p).IsStone → b.chainHead p ≠ nullLoc →
    (b.InChain (b.chainHead p) q ↔ Chain (grid b.xSize) b.colors p q)

/-- `b'` is `b` with the component of `p` turned into a chain with head `p`. -/
structure Rebuilt (b b' : Board) (p : Loc) : Prop where
  xSize : b'.xSize = b.xSize
  ySize : b'.ySize = b.ySize
  colors : b'.colors = b.colors
  koLoc : b'.koLoc = b.koLoc
  numBlackCaptures : b'.numBlackCaptures = b.numBlackCaptures
  numWhiteCaptures : b'.numWhiteCaptures = b.numWhiteCaptures
  new : ∀ q, q ∈ b.component p → b'.chainHead q = p
  old : ∀ q, q ∉ b.component p → b'.chainHead q = b.chainHead q

theorem Built.regular (built : b.Built) (all : ∀ p, (b.colors p).IsStone → b.chainHead p ≠ nullLoc) : b.Regular :=
  ⟨⟨built.shape, built.hash, fun p stone => built.chain p stone (all p stone)⟩,
    fun p q stone => built.component p q stone (all p stone)⟩

/-- No chain is headed by a stone that has no head itself. -/
theorem Built.headless (built : b.Built) (fresh : b.chainHead p = nullLoc) (notNull : p ≠ nullLoc) (q : Loc) :
    ¬ b.InChain p q := by
  rintro ⟨stone, head⟩
  have ok := built.chain q stone (by rw [head]; exact notNull)
  rw [head] at ok
  exact notNull (ok.self.symm.trans fresh)

omit [Zobrist] in
/-- The flood fill visits the component of its start. -/
theorem rebuildChainHelper_visits (shape : b.Shape) (notHeaded : ∀ q, ¬ b.InChain p q)
    (stone : (b.colors p).IsStone) (tail : Loc) :
    ∃ l, b.rebuildChainHelper p tail p (b.colors p) = some ((p :: l).foldl (rebuildVisit p) (b, tail)) ∧
      (p :: l).Nodup ∧ ∀ q, q ∈ p :: l ↔ q ∈ b.component p := by
  have outside : ∀ a, b.colors a = b.colors p → b.chainHead a ≠ p := fun a same head =>
    notHeaded a ⟨by rw [same]; exact stone, head⟩
  obtain ⟨l, run, filled⟩ := flood_spec b.adj
    (fun (s : Board × Loc) a => decide (s.1.colors a = b.colors p ∧ s.1.chainHead a ≠ p)) (rebuildVisit p) (fun s v a => by
      by_cases here : a = v <;>
        simp [rebuildVisit, addLiberties, addLocs, here])
    maxArrSize (b, tail) p b.locs.toFinset (by simpa using outside p rfl)
    (fun a wanted => by
      simp only [decide_eq_true_eq] at wanted
      exact List.mem_toFinset.2 (shape.stone_mem_locs (by rw [wanted.1]; exact stone)))
    (card_boardLocs_le shape.wide.2 shape.high.2)
  refine ⟨l, run, filled.nodup, filled.mem_iff_chain (G := grid b.xSize) (c := b.colors) (fun _ _ => Iff.rfl) ?_⟩
  intro a
  rw [decide_eq_true_eq]
  exact ⟨And.left, fun same => ⟨same, outside a same⟩⟩

omit [Zobrist] in
/-- The board `rebuildChain` returns, in one piece. -/
theorem rebuildChain_eq (shape : b.Shape) (notHeaded : ∀ q, ¬ b.InChain p q) (stone : (b.colors p).IsStone) :
    ∃ l, (p :: l).Nodup ∧ (∀ q, q ∈ p :: l ↔ q ∈ b.component p) ∧
      b.rebuildChain p (b.colors p) = some { b.setHeads (p :: l) p with
        chainData := Function.update b.chainData p
          ⟨b.colors p, (p :: l).length, ((b.setHeads (p :: l) p).libs p).card⟩
        nextInChain := Function.update ((p :: l).foldl push (b.nextInChain, p)).1 p
          ((p :: l).foldl push (b.nextInChain, p)).2 } := by
  obtain ⟨b₁, b₁Eq⟩ : ∃ b₁ : Board, b₁ = { b with
    chainData := Function.update b.chainData p ⟨b.colors p, 0, 0⟩ } := ⟨_, rfl⟩
  have shape₁ : b₁.Shape := by
    rw [b₁Eq]
    exact shape.recolor rfl rfl fun _ => Iff.rfl
  have notHeaded₁ : ∀ q, ¬ b₁.InChain p q := by rw [b₁Eq]; exact notHeaded
  have stone₁ : (b₁.colors p).IsStone := by rw [b₁Eq]; exact stone
  obtain ⟨l, run, nodup, members⟩ := rebuildChainHelper_visits shape₁ notHeaded₁ stone₁ p
  have joining : ∀ q ∈ p :: l, b₁.colors q = b₁.colors p ∧ b₁.chainHead q ≠ p := by
    intro q inside
    have colour : b₁.colors q = b₁.colors p := Chain.label ((members q).1 inside)
    exact ⟨colour, fun head => notHeaded₁ q ⟨by rw [colour]; exact stone₁, head⟩⟩
  have fold := foldl_rebuildVisit shape₁ stone₁ (fun q inside => absurd inside (notHeaded₁ q)) nodup joining p
  have links := foldl_rebuildVisit_snd p (p :: l) b₁ p
  have noLibs : b₁.libs p = ∅ := by
    refine Finset.eq_empty_of_forall_notMem fun e free => ?_
    obtain ⟨-, q, -, inside⟩ := (mem_libs shape₁).1 free
    exact notHeaded₁ q inside
  refine ⟨l, nodup, fun q => by rw [members q, b₁Eq]; rfl, ?_⟩
  have start : b.rebuildChain p (b.colors p) = (b₁.rebuildChainHelper p p p (b₁.colors p)).map fun s =>
      { s.1 with nextInChain := Function.update s.1.nextInChain p s.2 } := by
    rw [b₁Eq, rebuildChain]
    cases rebuildChainHelper _ p p p (b.colors p) <;> rfl
  have front := congrArg Prod.snd links
  have chained := congrArg Prod.fst links
  simp only at front chained
  rw [start, run, Option.map_some, front, chained, fold, noLibs, Option.some.injEq]
  subst b₁Eq
  refine Board.ext rfl rfl rfl ?_ rfl rfl rfl rfl rfl rfl
  simp only [Function.update_self, Function.update_idem, Finset.card_empty, Nat.cast_zero, sub_zero, zero_add]
  rfl

theorem rebuildChain_spec (built : b.Built) (stone : (b.colors p).IsStone) (fresh : b.chainHead p = nullLoc) :
    ∃ b', b.rebuildChain p (b.colors p) = some b' ∧ b'.Built ∧ Rebuilt b b' p := by
  have notNull : p ≠ nullLoc := built.shape.ne_null stone.ne_wall
  have notHeaded := built.headless fresh notNull
  obtain ⟨l, nodup, members, run⟩ := rebuildChain_eq built.shape notHeaded stone
  refine ⟨_, run, ?_⟩
  have heads := setHeads_chainHead b (p :: l) p
  -- The component had no heads, so no recorded chain loses a stone to it.
  have headless : ∀ q, q ∈ p :: l → b.chainHead q = nullLoc := by
    intro q inside
    have chain : Chain (grid b.xSize) b.colors p q := (members q).1 inside
    by_contra headed
    have joined := (built.component q p (by rw [chain.label]; exact stone) headed).2 chain.symm
    exact headed (joined.2.symm.trans fresh)
  have inNew : ∀ q, (b.setHeads (p :: l) p).InChain p q ↔ q ∈ p :: l := by
    intro q
    constructor
    · rintro ⟨isStone, head⟩
      by_contra outside
      rw [heads q, if_neg outside] at head
      exact notHeaded q ⟨isStone, head⟩
    · intro inside
      exact ⟨by rw [show (b.setHeads (p :: l) p).colors q = b.colors p from Chain.label ((members q).1 inside)]; exact stone,
        by rw [heads q, if_pos inside]⟩
  have inOld : ∀ g q, g ≠ p → g ≠ nullLoc → ((b.setHeads (p :: l) p).InChain g q ↔ b.InChain g q) := by
    intro g q other real
    refine and_congr_right fun _ => ?_
    rw [heads q]
    split_ifs with inside
    · exact iff_of_false (fun same => other same.symm) (fun same => real (same.symm.trans (headless q inside)))
    · exact Iff.rfl
  refine ⟨⟨built.shape.recolor rfl rfl fun _ => Iff.rfl, built.hash, ?_, ?_⟩,
    ⟨rfl, rfl, rfl, rfl, rfl, rfl, ?_, ?_⟩⟩
  · intro q isStone headed
    change (b.setHeads (p :: l) p).chainHead q ≠ nullLoc at headed
    change Board.ChainOk _ ((b.setHeads (p :: l) p).chainHead q) 0
    by_cases inside : q ∈ p :: l
    · rw [heads q, if_pos inside]
      have self := (inNew p).2 (by simp)
      refine ⟨stone, self.2, ⟨p :: l.reverse, ⟨?_, ?_, linked_push nodup⟩, ?_⟩, ?_, ?_, ?_⟩
      · simpa using nodup
      · intro x
        refine Iff.trans ?_ (inNew x).symm
        simp
      · simp only [Function.update_self, List.length_cons, List.length_reverse]
      · intro x found
        exact Chain.label ((members x).1 ((inNew x).1 found))
      · simp only [Function.update_self]
        rfl
      · simp only [Function.update_self, add_zero]
        rfl
    · rw [heads q, if_neg inside] at headed ⊢
      have ok := built.chain q isStone headed
      have other : b.chainHead q ≠ p := fun same => notHeaded q ⟨isStone, same⟩
      have outside : ∀ x, b.InChain (b.chainHead q) x → x ∉ p :: l := fun x found member =>
        headed (found.2.symm.trans (headless x member))
      refine ok.frame (fun x => inOld _ x other headed) (fun _ _ => rfl) ?_ ?_ ?_ ?_
      · intro x found
        have apart : x ≠ p := fun same => outside x found (by simp [same])
        simp only [Function.update_of_ne apart]
        exact foldl_push_of_notMem (outside x found)
      · simp only [Function.update_of_ne other]
      · simp only [Function.update_of_ne other]
      · simp only [Function.update_of_ne other, ok.liberties]
        change _ = (((b.setHeads (p :: l) p).libs (b.chainHead q)).card : Int) + 0
        have libs : (b.setHeads (p :: l) p).libs (b.chainHead q) = b.libs (b.chainHead q) :=
          libs_congr rfl rfl (fun _ => Iff.rfl) fun x => inOld _ x other headed
        rw [libs]
  · intro q x isStone headed
    change (b.setHeads (p :: l) p).chainHead q ≠ nullLoc at headed
    change (b.setHeads (p :: l) p).InChain ((b.setHeads (p :: l) p).chainHead q) x ↔
      Chain (grid b.xSize) b.colors q x
    by_cases inside : q ∈ p :: l
    · rw [heads q, if_pos inside, inNew x, members x]
      have path : Chain (grid b.xSize) b.colors p q := (members q).1 inside
      exact ⟨fun chain => path.symm.trans chain, fun chain => path.trans chain⟩
    · rw [heads q, if_neg inside] at headed ⊢
      rw [inOld _ x (fun same => notHeaded q ⟨isStone, same⟩) headed]
      exact built.component q x isStone headed
  · intro q inside
    exact (heads q).trans (if_pos ((members q).2 inside))
  · intro q outside
    exact (heads q).trans (if_neg fun inside => outside ((members q).1 inside))

section Regen

/-- `b'` has the stones of `b`; its chains may be recorded differently. -/
structure SamePosition (b b' : Board) : Prop where
  xSize : b'.xSize = b.xSize
  ySize : b'.ySize = b.ySize
  colors : b'.colors = b.colors
  koLoc : b'.koLoc = b.koLoc
  numBlackCaptures : b'.numBlackCaptures = b.numBlackCaptures
  numWhiteCaptures : b'.numWhiteCaptures = b.numWhiteCaptures

omit [Zobrist] in
theorem SamePosition.trans {b'' : Board} (first : SamePosition b b') (second : SamePosition b' b'') :
    SamePosition b b'' :=
  ⟨second.xSize.trans first.xSize, second.ySize.trans first.ySize, second.colors.trans first.colors,
    second.koLoc.trans first.koLoc, second.numBlackCaptures.trans first.numBlackCaptures,
    second.numWhiteCaptures.trans first.numWhiteCaptures⟩

omit [Zobrist] in
theorem Rebuilt.samePosition (rebuilt : Rebuilt b b' p) : SamePosition b b' :=
  ⟨rebuilt.xSize, rebuilt.ySize, rebuilt.colors, rebuilt.koLoc, rebuilt.numBlackCaptures,
    rebuilt.numWhiteCaptures⟩

/-- Rebuilding every listed stone that has no head leaves a head on each listed stone. -/
theorem rebuildAll_spec (S : Color → Prop) [DecidablePred S] (stones : ∀ c, S c → c.IsStone) (l : List Loc)
    (built : b.Built) :
    ∃ b', l.foldlM (fun b p => if S (b.colors p) ∧ b.chainHead p = nullLoc then b.rebuildChain p (b.colors p)
        else some b) b = some b' ∧
      b'.Built ∧ SamePosition b b' ∧ (∀ q, b.chainHead q ≠ nullLoc → b'.chainHead q ≠ nullLoc) ∧
      ∀ p ∈ l, S (b.colors p) → b'.chainHead p ≠ nullLoc := by
  induction l generalizing b with
  | nil => exact ⟨b, rfl, built, ⟨rfl, rfl, rfl, rfl, rfl, rfl⟩, fun _ headed => headed, by simp⟩
  | cons p l ih =>
    by_cases fresh : S (b.colors p) ∧ b.chainHead p = nullLoc
    · have stone := stones _ fresh.1
      obtain ⟨b₁, run, built₁, rebuilt⟩ := rebuildChain_spec built stone fresh.2
      obtain ⟨b', rest, built', same, keeps, heads⟩ := ih built₁
      have headP : b₁.chainHead p ≠ nullLoc := by
        rw [rebuilt.new p (Chain.refl p)]
        exact built.shape.ne_null stone.ne_wall
      refine ⟨b', by rw [List.foldlM_cons, if_pos fresh, run]; exact rest, built',
        rebuilt.samePosition.trans same, ?_, ?_⟩
      · intro q headed
        refine keeps q ?_
        by_cases inside : q ∈ b.component p
        · rw [rebuilt.new q inside]
          exact built.shape.ne_null stone.ne_wall
        · rw [rebuilt.old q inside]
          exact headed
      · intro q member chosen
        rcases List.mem_cons.1 member with rfl | later
        · exact keeps q headP
        · exact heads q later (by rw [rebuilt.colors]; exact chosen)
    · obtain ⟨b', rest, built', same, keeps, heads⟩ := ih built
      refine ⟨b', by rw [List.foldlM_cons, if_neg fresh]; exact rest, built', same, keeps, ?_⟩
      intro q member chosen
      rcases List.mem_cons.1 member with rfl | later
      · exact keeps q fun headless => fresh ⟨chosen, headless⟩
      · exact heads q later chosen

/-- The first loop of `regenChainsFromColors`, over any list of locations. -/
theorem foldl_clear (l : List Loc) (nodup : l.Nodup) (b : Board) :
    ∃ b', l.foldl (fun b loc =>
        if (b.colors loc).IsStone then
          { b.xorHash loc (b.colors loc) with chainHead := Function.update b.chainHead loc nullLoc }
        else b) b = b' ∧ SamePosition b b' ∧
      b'.posHash = l.toFinset.fold (fun x y : Hash128 => x ^^^ y) b.posHash (fun p => stoneHash p (b.colors p)) ∧
      ∀ p ∈ l, (b.colors p).IsStone → b'.chainHead p = nullLoc := by
  induction l using List.reverseRecOn with
  | nil => exact ⟨b, rfl, ⟨rfl, rfl, rfl, rfl, rfl, rfl⟩, rfl, by simp⟩
  | append_singleton l v ih =>
    obtain ⟨first, -, apart⟩ := List.nodup_append.1 nodup
    obtain ⟨b₁, run, same, hash, heads⟩ := ih first
    have fresh : v ∉ l.toFinset := fun inside =>
      apart v (List.mem_toFinset.1 inside) v (by simp) rfl
    have members : (l ++ [v]).toFinset = insert v l.toFinset := by
      ext x
      simp
    rw [List.foldl_append, run, members, Finset.fold_insert fresh, ← hash]
    simp only [List.foldl_cons, List.foldl_nil, same.colors]
    by_cases stone : (b.colors v).IsStone
    · rw [if_pos stone]
      refine ⟨_, rfl, same.trans ⟨rfl, rfl, rfl, rfl, rfl, rfl⟩, ?_, ?_⟩
      · rw [stoneHash_of_stone stone, Hash128.xor_comm]
        rfl
      · intro p member isStone
        by_cases here : p = v
        · subst here
          exact Function.update_self ..
        · refine (Function.update_of_ne here ..).trans (heads p ?_ isStone)
          simpa [here] using member
    · rw [if_neg stone]
      refine ⟨b₁, rfl, same, ?_, ?_⟩
      · rw [stoneHash, if_neg stone, Hash128.zero_xor]
      · intro p member isStone
        have other : p ≠ v := by
          rintro rfl
          exact stone isStone
        exact heads p (by simpa [other] using member) isStone

theorem clearChains_built (shape : b.Shape) : b.clearChains.Built ∧ SamePosition b b.clearChains := by
  obtain ⟨b', run, same, hash, heads⟩ := foldl_clear b.locs (boardLocs_nodup b.xSize b.ySize)
    { b with posHash := Zobrist.sizeXHash b.xSize ^^^ Zobrist.sizeYHash b.ySize }
  have position : SamePosition b b' :=
    ⟨same.xSize, same.ySize, same.colors, same.koLoc, same.numBlackCaptures, same.numWhiteCaptures⟩
  have headless : ∀ p, (b'.colors p).IsStone → b'.chainHead p = nullLoc := by
    intro p stone
    rw [position.colors] at stone
    exact heads p (shape.stone_mem_locs stone) stone
  rw [clearChains, run]
  refine ⟨⟨shape.recolor position.xSize position.ySize fun p => by rw [position.colors], ?_,
    fun p stone headed => absurd (headless p stone) headed,
    fun p _ stone headed => absurd (headless p stone) headed⟩, position⟩
  rw [hash, position.xSize, position.ySize, position.colors]
  rfl

/-- Regenerating the chains of any colours gives their components. -/
theorem regenChainsFromColors_spec (shape : b.Shape) :
    ∃ b', b.regenChainsFromColors = some b' ∧ b'.Regular ∧ SamePosition b b' := by
  obtain ⟨built, cleared⟩ := clearChains_built shape
  obtain ⟨b', run, built', same, -, heads⟩ := rebuildAll_spec Color.IsStone (fun _ stone => stone)
    b.locs built
  refine ⟨b', run, built'.regular fun p stone => ?_, cleared.trans same⟩
  rw [same.colors, cleared.colors] at stone
  exact heads p (shape.stone_mem_locs stone) (by rw [cleared.colors]; exact stone)

end Regen

end Board
end KataGo.Game
