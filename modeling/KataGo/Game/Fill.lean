import KataGo.Game.Rebuild

/-! Filling an empty region with stones. `undo` puts captured chains back this way, with
no more to go by than that the region is empty and that no stone of the colour it is
filled with stands next to it. -/

namespace KataGo.Game
open KataGo.Lib CircularList Flood Labelling

variable [Zobrist]

namespace Board

variable {b b' : Board} {h p q e v head front : Loc} {k : Color}

/-- `b'` is `b` after the points `l` were filled with `k` under one head. -/
structure FilledIn (b b' : Board) (head : Loc) (l : List Loc) (k : Color) : Prop where
  xSize : b'.xSize = b.xSize
  ySize : b'.ySize = b.ySize
  koLoc : b'.koLoc = b.koLoc
  numBlackCaptures : b'.numBlackCaptures = b.numBlackCaptures
  numWhiteCaptures : b'.numWhiteCaptures = b.numWhiteCaptures
  colors : ∀ q, b'.colors q = if q ∈ l then k else b.colors q
  chainHead : ∀ q, b'.chainHead q = if q ∈ l then head else b.chainHead q
  headData : b'.chainData head = ⟨(b.chainData head).owner, (b.chainData head).numLocs + l.length,
    (b.chainData head).numLiberties⟩
  chainData : ∀ h, h ≠ head → b'.chainData h = (b.chainData h).bump
    (-(l.countP fun cur => ∃ a ∈ b.adj cur, b.colors a = getOpp k ∧ b.chainHead a = h))
  posHash : b.posHash = positionHash b.xSize b.ySize b.colors →
    b'.posHash = positionHash b'.xSize b'.ySize b'.colors

/-- The board of one visit, before the counters around it go down. -/
def fillPoint (b : Board) (head v front : Loc) (k : Color) : Board :=
  let b := (b.setColor v k).xorHash v k
  let b := { b with chainHead := Function.update b.chainHead v head }
  let b := b.addLocs head 1
  { b with nextInChain := Function.update b.nextInChain v front }

theorem addVisit_eq (b : Board) (head v front : Loc) (k : Color) :
    addVisit head k (b, front) v = ({ b.fillPoint head v front k with
      chainData := ((b.fillPoint head v front k).changeSurroundingLiberties v (getOpp k) (-1)).chainData }, v) := by
  have frame := changeSurroundingLiberties_frame (b.fillPoint head v front k) v (getOpp k) (-1)
  rw [← frame]
  rfl

theorem filledIn_visit (head front : Loc) (shape : b.Shape) (player : k.IsStone) (blank : b.colors v = .empty)
    (foreign : ∀ a, b.colors a = getOpp k → b.chainHead a ≠ head) :
    FilledIn b (addVisit head k (b, front) v).1 head [v] k := by
  have opposite : ∀ a, (b.fillPoint head v front k).colors a = getOpp k ↔ b.colors a = getOpp k := by
    intro a
    change Function.update b.colors v k a = getOpp k ↔ _
    by_cases here : a = v
    · subst here
      rw [Function.update_self, blank]
      exact iff_of_false player.opp_ne.symm player.opp.ne_empty.symm
    · rw [Function.update_of_ne here]
  have around : ∀ h, (∃ a ∈ (b.fillPoint head v front k).adj v, (b.fillPoint head v front k).colors a = getOpp k ∧
      (b.fillPoint head v front k).chainHead a = h) ↔
        ∃ a ∈ b.adj v, b.colors a = getOpp k ∧ b.chainHead a = h := by
    intro h
    refine exists_congr fun a => and_congr_right fun adjacent => ?_
    rw [opposite a]
    refine and_congr_right fun _ => ?_
    change Function.update b.chainHead v head a = h ↔ _
    rw [Function.update_of_ne (ne_of_mem_adj adjacent)]
  rw [addVisit_eq]
  refine ⟨rfl, rfl, rfl, rfl, rfl, ?_, ?_, ?_, ?_, ?_⟩
  · intro q
    change Function.update b.colors v k q = _
    by_cases here : q = v <;> simp [here]
  · intro q
    change Function.update b.chainHead v head q = _
    by_cases here : q = v <;> simp [here]
  · simp only [changeSurroundingLiberties_chainData, around]
    rw [if_neg]
    · exact Function.update_self ..
    · rintro ⟨a, -, opposing, same⟩
      exact foreign a opposing same
  · intro h other
    have keep : (b.fillPoint head v front k).chainData h = b.chainData h := Function.update_of_ne other ..
    simp only [changeSurroundingLiberties_chainData, around, keep]
    split_ifs with found <;> simp [found]
  · intro hash
    change b.posHash ^^^ Zobrist.boardHash v k = positionHash b.xSize b.ySize (Function.update b.colors v k)
    rw [positionHash_update (shape.mem_locs (by rw [blank]; decide)), hash, blank, stoneHash_empty,
      Hash128.xor_zero, stoneHash_of_stone player]

theorem FilledIn.cons {b₁ : Board} {l : List Loc} (player : k.IsStone) (blank : b.colors v = .empty)
    (first : FilledIn b b₁ head [v] k) (rest : FilledIn b₁ b' head l k) (fresh : v ∉ l) :
    FilledIn b b' head (v :: l) k := by
  have opposite : ∀ a h, (b₁.colors a = getOpp k ∧ b₁.chainHead a = h) ↔
      (b.colors a = getOpp k ∧ b.chainHead a = h) := by
    intro a h
    rw [first.colors a, first.chainHead a]
    by_cases here : a = v
    · subst here
      rw [if_pos (by simp), blank]
      exact iff_of_false (fun found => player.opp_ne found.1.symm) (fun found => player.opp.ne_empty found.1.symm)
    · rw [if_neg (by simpa using here), if_neg (by simpa using here)]
  have adjacent : ∀ a, b₁.adj a = b.adj a := fun a => by rw [adj, adj, first.xSize]
  refine ⟨rest.xSize.trans first.xSize, rest.ySize.trans first.ySize, rest.koLoc.trans first.koLoc,
    rest.numBlackCaptures.trans first.numBlackCaptures, rest.numWhiteCaptures.trans first.numWhiteCaptures,
    ?_, ?_, ?_, ?_, fun hash => rest.posHash (first.posHash hash)⟩
  · intro q
    rw [rest.colors, first.colors]
    by_cases here : q = v <;> by_cases inside : q ∈ l <;> simp [here, inside]
  · intro q
    rw [rest.chainHead, first.chainHead]
    by_cases here : q = v <;> by_cases inside : q ∈ l <;> simp [here, inside]
  · rw [rest.headData, first.headData]
    simp only [List.length_cons, List.length_nil, ChainData.mk.injEq, true_and, and_true]
    push_cast
    ring
  · intro h other
    rw [rest.chainData h other, first.chainData h other, ChainData.bump_bump]
    simp only [opposite, adjacent]
    rw [← List.singleton_append (l := l), List.countP_append]
    push_cast
    congr 1
    ring

theorem filledIn_foldl (head front : Loc) (shape : b.Shape) (player : k.IsStone) {l : List Loc} (nodup : l.Nodup)
    (blank : ∀ q ∈ l, b.colors q = .empty) (foreign : ∀ a, b.colors a = getOpp k → b.chainHead a ≠ head) :
    FilledIn b (l.foldl (addVisit head k) (b, front)).1 head l k := by
  induction l generalizing b front with
  | nil => exact ⟨rfl, rfl, rfl, rfl, rfl, by simp, by simp, by simp, by simp, fun hash => hash⟩
  | cons v l ih =>
    obtain ⟨fresh, rest⟩ := List.nodup_cons.1 nodup
    have here := blank v (by simp)
    have first := filledIn_visit head front shape player here foreign
    have second : (addVisit head k (b, front) v).2 = v := rfl
    rw [List.foldl_cons, ← Prod.mk.eta (p := addVisit head k (b, front) v)]
    refine first.cons player here (ih v ?_ rest ?_ ?_) fresh
    · refine shape.recolor first.xSize first.ySize fun p => ?_
      rw [first.colors p]
      split_ifs with same
      · rw [List.mem_singleton.1 same, here]
        exact iff_of_false player.ne_wall (by decide)
      · exact Iff.rfl
    · intro q member
      have different : q ≠ v := fun same => fresh (same ▸ member)
      rw [first.colors q, if_neg (by simpa using different)]
      exact blank q (by simp [member])
    · intro a opposite
      rw [first.colors a] at opposite
      rw [first.chainHead a]
      split_ifs at opposite ⊢ with same
      · exact absurd opposite.symm player.opp_ne
      · exact foreign a opposite

theorem foldl_addVisit_snd (head : Loc) (k : Color) (l : List Loc) (b : Board) (front : Loc) :
    ((l.foldl (addVisit head k) (b, front)).1.nextInChain, (l.foldl (addVisit head k) (b, front)).2) =
      l.foldl push (b.nextInChain, front) := by
  induction l generalizing b front with
  | nil => rfl
  | cons v l ih =>
    rw [List.foldl_cons, List.foldl_cons, addVisit_eq]
    exact ih _ v

/-- The fill visits the empty region of its start. -/
theorem addChainHelper_visits (shape : b.Shape) (player : k.IsStone) (blank : b.colors p = .empty) (tail : Loc) :
    ∃ l, b.addChainHelper p tail p k = some ((p :: l).foldl (addVisit p k) (b, tail)) ∧
      (p :: l).Nodup ∧ ∀ q, q ∈ p :: l ↔ q ∈ b.component p := by
  obtain ⟨l, run, filled⟩ := flood_spec b.adj (fun (s : Board × Loc) a => decide (s.1.colors a = .empty)) (addVisit p k)
    (fun s v a => by
      rw [← Prod.mk.eta (p := s), addVisit_eq]
      change decide (Function.update s.1.colors v k a = .empty) = _
      by_cases here : a = v <;> simp [here, player.ne_empty])
    maxArrSize (b, tail) p b.locs.toFinset (by simpa using blank)
    (fun a wanted => by
      simp only [decide_eq_true_eq] at wanted
      exact List.mem_toFinset.2 (shape.mem_locs (by rw [wanted]; decide)))
    (card_boardLocs_le shape.wide.2 shape.high.2)
  refine ⟨l, run, filled.nodup, filled.mem_iff_chain (G := grid b.xSize) (c := b.colors) (fun _ _ => Iff.rfl) ?_⟩
  intro a
  rw [decide_eq_true_eq, blank]

/-- `b'` is `b` with the empty region of `p` filled with `k`. -/
structure Refilled (b b' : Board) (p : Loc) (k : Color) : Prop where
  xSize : b'.xSize = b.xSize
  ySize : b'.ySize = b.ySize
  koLoc : b'.koLoc = b.koLoc
  numBlackCaptures : b'.numBlackCaptures = b.numBlackCaptures
  numWhiteCaptures : b'.numWhiteCaptures = b.numWhiteCaptures
  filled : ∀ q, q ∈ b.component p → b'.colors q = k
  kept : ∀ q, q ∉ b.component p → b'.colors q = b.colors q
  size : b'.getChainSize p = (b.component p).ncard

theorem addChain_eq (regular : b.Regular) (player : k.IsStone) (blank : b.colors p = .empty) :
    ∃ b' l, b.addChain p k = some b' ∧ (p :: l).Nodup ∧ (∀ q, q ∈ p :: l ↔ q ∈ b.component p) ∧
      FilledIn { b with chainData := Function.update b.chainData p ⟨k, 0, 0⟩ } b' p (p :: l) k ∧
      b'.nextInChain = Function.update ((p :: l).foldl push (b.nextInChain, p)).1 p
        ((p :: l).foldl push (b.nextInChain, p)).2 := by
  have shape₀ : ({ b with chainData := Function.update b.chainData p ⟨k, 0, 0⟩ } : Board).Shape :=
    regular.shape.recolor rfl rfl fun _ => Iff.rfl
  obtain ⟨l, run, nodup, members⟩ := addChainHelper_visits shape₀ player blank p
  have fill := filledIn_foldl p p shape₀ player nodup
    (fun q inside => (Chain.label ((members q).1 inside)).trans blank) (fun a opposite same => by
      change b.chainHead a = p at same
      have ok := regular.chainOk (p := a) (by
        rw [show b.colors a = getOpp k from opposite]
        exact player.opp)
      rw [same] at ok
      exact ok.stone.ne_empty blank)
  have links := foldl_addVisit_snd p k (p :: l)
    { b with chainData := Function.update b.chainData p ⟨k, 0, 0⟩ } p
  have front := congrArg Prod.snd links
  have chained := congrArg Prod.fst links
  simp only at front chained
  refine ⟨{ ((p :: l).foldl (addVisit p k)
      ({ b with chainData := Function.update b.chainData p ⟨k, 0, 0⟩ }, p)).1 with
    nextInChain := Function.update ((p :: l).foldl push (b.nextInChain, p)).1 p
      ((p :: l).foldl push (b.nextInChain, p)).2 }, l, ?_, nodup, members, ?_, rfl⟩
  · rw [addChain, run]
    simp only [Option.bind_eq_bind, Option.bind_some, Option.pure_def]
    rw [front, chained]
  · exact ⟨fill.xSize, fill.ySize, fill.koLoc, fill.numBlackCaptures, fill.numWhiteCaptures, fill.colors,
      fill.chainHead, fill.headData, fill.chainData, fill.posHash⟩

/-- Filling the region of `p` with a colour that does not border on it makes it one chain
without liberties, and takes its points from the liberties of the chains around it. -/
theorem addChain_spec (regular : b.Regular) (player : k.IsStone) (blank : b.colors p = .empty)
    (border : ∀ q, q ∈ b.component p → ∀ a ∈ b.adj q, b.colors a ≠ k) :
    ∃ b', b.addChain p k = some b' ∧ b'.Regular ∧ Refilled b b' p k := by
  have shape := regular.shape
  obtain ⟨b', l, run, nodup, members, fill, links⟩ := addChain_eq regular player blank
  have region : ∀ q, q ∈ p :: l → b.colors q = .empty := fun q inside =>
    (Chain.label ((members q).1 inside)).trans blank
  have noHead : ∀ q, (b.colors q).IsStone → b.chainHead q ≠ p := by
    intro q stone same
    have ok := regular.chainOk stone
    rw [same] at ok
    exact ok.stone.ne_empty blank
  have colours : ∀ q, b'.colors q = if q ∈ p :: l then k else b.colors q := fill.colors
  have heads : ∀ q, b'.chainHead q = if q ∈ p :: l then p else b.chainHead q := fill.chainHead
  have sizeX : b'.xSize = b.xSize := fill.xSize
  have shape' : b'.Shape := by
    refine shape.recolor fill.xSize fill.ySize fun q => ?_
    rw [colours q]
    split_ifs with inside
    · exact iff_of_false player.ne_wall (by rw [region q inside]; decide)
    · exact Iff.rfl
  have inNew : ∀ q, b'.InChain p q ↔ q ∈ p :: l := by
    intro q
    rw [InChain, colours q, heads q]
    split_ifs with inside
    · exact iff_of_true ⟨player, rfl⟩ inside
    · exact iff_of_false (fun found => noHead q found.1 found.2) inside
  have inOld : ∀ g q, g ≠ p → (b'.InChain g q ↔ b.InChain g q) := by
    intro g q other
    rw [InChain, InChain, colours q, heads q]
    split_ifs with inside
    · exact iff_of_false (fun found => other found.2.symm) (fun found => found.1.ne_empty (region q inside))
    · exact Iff.rfl
  have size : (b'.chainData p).numLocs = (p :: l).length := by
    rw [fill.headData]
    simp only [Function.update_self, zero_add]
  refine ⟨b', run, Recorded.regular ⟨shape', fill.posHash regular.recorded.hash, ?_⟩ ?_ ?_, ?_⟩
  · intro q stone
    by_cases inside : q ∈ p :: l
    · rw [heads q, if_pos inside]
      have self := (inNew p).2 (by simp)
      refine ⟨self.1, self.2, ⟨p :: l.reverse, ⟨?_, ?_, by rw [links]; exact linked_push nodup⟩, ?_⟩, ?_, ?_, ?_⟩
      · simpa using nodup
      · intro x
        rw [inNew x]
        simp
      · rw [size]
        simp
      · intro x found
        rw [colours x, colours p, if_pos ((inNew x).1 found), if_pos (by simp)]
      · rw [fill.headData, colours p, if_pos (by simp)]
        simp only [Function.update_self]
      · have noLibs : b'.libs p = ∅ := by
          refine Finset.eq_empty_of_forall_notMem fun e free => ?_
          obtain ⟨empty, x, adjacent, found⟩ := (mem_libs shape').1 free
          have outside : e ∉ p :: l := by
            intro filled
            rw [colours e, if_pos filled] at empty
            exact player.ne_empty empty
          rw [colours e, if_neg outside] at empty
          rw [adj, sizeX] at adjacent
          have path : Chain (grid b.xSize) b.colors p x := (members x).1 ((inNew x).1 found)
          refine outside ((members e).2 (path.trans (Chain.single (adjs_symm adjacent) ?_)))
          rw [empty, path.label, blank]
        rw [fill.headData, noLibs]
        simp only [Function.update_self, Finset.card_empty]
        rfl
    · have isStone : (b.colors q).IsStone := by rwa [colours q, if_neg inside] at stone
      have ok := regular.chainOk isStone
      have other := noHead q isStone
      have outside : ∀ x, b.InChain (b.chainHead q) x → x ∉ p :: l := fun x found member =>
        found.1.ne_empty (region x member)
      rw [heads q, if_neg inside]
      -- The counter goes down once for every filled point next to the chain.
      have count : ((p :: l).countP fun cur => ∃ a ∈ b.adj cur, b.colors a = getOpp k ∧
          b.chainHead a = b.chainHead q) = (b.libs (b.chainHead q) ∩ (p :: l).toFinset).card := by
        rw [List.countP_eq_length_filter, ← List.toFinset_card_of_nodup (nodup.filter _), List.toFinset_filter]
        congr 1
        ext cur
        simp only [Finset.mem_filter, List.mem_toFinset, Finset.mem_inter, mem_libs shape, decide_eq_true_eq]
        constructor
        · rintro ⟨member, a, adjacent, opposite, head⟩
          exact ⟨⟨region cur member, a, adjacent, by rw [opposite]; exact player.opp, head⟩, member⟩
        · rintro ⟨⟨-, a, adjacent, aStone, head⟩, member⟩
          refine ⟨member, a, adjacent, (player.eq_or_eq_opp aStone).resolve_left ?_, head⟩
          exact border cur ((members cur).1 member) a adjacent
      have fewer : b'.libs (b.chainHead q) = b.libs (b.chainHead q) \ (p :: l).toFinset := by
        ext e
        rw [mem_libs shape', Finset.mem_sdiff, mem_libs shape, List.mem_toFinset, colours e]
        simp only [inOld _ _ other, adj, sizeX]
        by_cases member : e ∈ p :: l
        · rw [if_pos member]
          exact iff_of_false (fun found => player.ne_empty found.1) (fun found => found.2 member)
        · rw [if_neg member]
          exact (and_iff_left member).symm
      refine ok.frame (fun x => inOld _ x other) ?_ ?_ ?_ ?_ ?_
      · intro x found
        rw [colours x, if_neg (outside x found)]
      · intro x found
        have apart : x ≠ p := fun same => outside x found (by simp [same])
        rw [links, Function.update_of_ne apart]
        exact foldl_push_of_notMem (outside x found)
      · rw [fill.chainData _ other]
        simp only [ChainData.bump, Function.update_of_ne other]
      · rw [fill.chainData _ other]
        simp only [ChainData.bump, Function.update_of_ne other]
      · rw [fill.chainData _ other]
        simp only [ChainData.bump, Function.update_of_ne other]
        change (b.chainData (b.chainHead q)).numLiberties + -(((p :: l).countP fun cur =>
          ∃ a ∈ b.adj cur, b.colors a = getOpp k ∧ b.chainHead a = b.chainHead q : Nat) : Int) = _
        have parts := Finset.card_sdiff_add_card_inter (b.libs (b.chainHead q)) (p :: l).toFinset
        rw [count, fewer, ok.liberties]
        omega
  · intro q x stoneQ stoneX same
    rw [sizeX]
    rw [heads q, heads x] at same
    split_ifs at same with insideQ insideX insideX
    · have inComponent : ∀ y, y ∈ p :: l → Chain (grid b.xSize) b'.colors p y := by
        intro y member
        have path : Chain (grid b.xSize) b.colors p y := (members y).1 member
        refine Chain.mem_of_closed (S := fun y => y ∈ p :: l ∧ Chain (grid b.xSize) b'.colors p y)
          ⟨by simp, Chain.refl p⟩ ?_ path |>.2
        rintro z a ⟨inside, chain⟩ adjacent label
        have insideA : a ∈ p :: l := (members a).2 (Chain.trans ((members z).1 inside) (Chain.single adjacent label))
        refine ⟨insideA, chain.trans (Chain.single adjacent ?_)⟩
        rw [colours a, colours z, if_pos insideA, if_pos inside]
      exact (inComponent q insideQ).symm.trans (inComponent x insideX)
    · rw [colours x, if_neg insideX] at stoneX
      exact absurd same.symm (noHead x stoneX)
    · rw [colours q, if_neg insideQ] at stoneQ
      exact absurd same (noHead q stoneQ)
    · rw [colours q, if_neg insideQ] at stoneQ
      rw [colours x, if_neg insideX] at stoneX
      have path := (regular.component q x stoneQ).1 ⟨stoneX, same.symm⟩
      refine path.relabel fun y along => ?_
      rw [colours y, if_neg]
      intro member
      exact stoneQ.ne_empty (along.label.symm.trans (region y member))
  · intro q x stoneQ adjacent same
    rw [adj, sizeX] at adjacent
    rw [colours q, colours x] at same
    rw [colours q] at stoneQ
    rw [heads q, heads x]
    split_ifs at same stoneQ ⊢ with insideX insideQ insideQ
    · rfl
    · exact absurd same.symm (border x ((members x).1 insideX) q (adjs_symm adjacent))
    · exact absurd same (border q ((members q).1 insideQ) x adjacent)
    · exact regular.head_eq stoneQ adjacent same
  · refine ⟨fill.xSize, fill.ySize, fill.koLoc, fill.numBlackCaptures, fill.numWhiteCaptures, ?_, ?_, ?_⟩
    · intro q inside
      rw [colours q, if_pos ((members q).2 inside)]
    · intro q outside
      rw [colours q, if_neg fun inside => outside ((members q).1 inside)]
    · have same : b.component p = ((p :: l).toFinset : Set Loc) := by
        ext q
        rw [Finset.mem_coe, List.mem_toFinset, members q]
      rw [getChainSize, heads p, if_pos (by simp), size, same, Set.ncard_coe_finset,
        List.toFinset_card_of_nodup nodup]

end Board
end KataGo.Game
