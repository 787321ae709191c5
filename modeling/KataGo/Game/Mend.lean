import KataGo.Game.Rebuild
import KataGo.Game.Queries

/-! Taking one stone out of its chain. If at most one neighbour belongs to the chain the
stone is unlinked and the counts are patched; otherwise the chain may fall apart and is
rebuilt. -/

namespace KataGo.Game
open KataGo.Lib CircularList Labelling

variable [Zobrist]

namespace Board

variable {b b₁ b' : Board} {p q e loc a g : Loc} {pla : Player} {t : List Loc}

/-- `b₁` is `b` with the stone at `loc` taken off, and the chain `loc :: t` with head `g` that
it belonged to not yet mended. -/
structure Lifted (b b₁ : Board) (loc g : Loc) (t : List Loc) (pla : Player) : Prop where
  xSize : b₁.xSize = b.xSize
  ySize : b₁.ySize = b.ySize
  koLoc : b₁.koLoc = b.koLoc
  numBlackCaptures : b₁.numBlackCaptures = b.numBlackCaptures
  numWhiteCaptures : b₁.numWhiteCaptures = b.numWhiteCaptures
  shape : b₁.Shape
  hash : b₁.posHash = positionHash b₁.xSize b₁.ySize b₁.colors
  colors : b₁.colors = Function.update b.colors loc .empty
  chainHead : b₁.chainHead = b.chainHead
  nextInChain : b₁.nextInChain = b.nextInChain
  data : b₁.chainData g = b.chainData g
  otherOk : ∀ q, (b₁.colors q).IsStone → b.chainHead q ≠ g → b₁.ChainOk (b.chainHead q) 0
  otherChain : ∀ q x, (b₁.colors q).IsStone → b.chainHead q ≠ g →
    (b₁.InChain (b.chainHead q) x ↔ Chain (grid b₁.xSize) b₁.colors q x)
  own : ∀ q, b₁.InChain g q ↔ q ∈ t
  attached : ∀ q ∈ t, ∃ a ∈ b₁.adj loc, b₁.colors a = pla ∧ Chain (grid b₁.xSize) b₁.colors a q

theorem lifted_removeStone (regular : b.Regular) (stone : pla.IsStone) (colour : b.colors loc = pla)
    (ring : b.Ring (b.chainHead loc) (loc :: t)) :
    Lifted b (removeStone (getOpp pla) b loc) loc (b.chainHead loc) t pla := by
  have shape := regular.shape
  have locStone : (b.colors loc).IsStone := by rw [colour]; exact stone
  have ok := regular.chainOk locStone
  have headColour : b.colors (b.chainHead loc) = pla := by
    rw [← ok.colour loc ⟨locStone, rfl⟩, colour]
  have cleared := cleared_removeStone shape stone colour
  have colours : (removeStone (getOpp pla) b loc).colors = Function.update b.colors loc .empty :=
    removeStone_colors _ _ _
  have shape₁ : (removeStone (getOpp pla) b loc).Shape := cleared.shape shape fun q member => by
    rw [List.mem_singleton.1 member]
    exact locStone.ne_wall
  have before : ∀ q, ((removeStone (getOpp pla) b loc).colors q).IsStone → q ≠ loc ∧ (b.colors q).IsStone := by
    intro q isStone
    rw [colours] at isStone
    by_cases here : q = loc
    · rw [here, Function.update_self] at isStone
      exact absurd rfl isStone.ne_empty
    · rw [Function.update_of_ne here] at isStone
      exact ⟨here, isStone⟩
  have inChain : ∀ h q, (removeStone (getOpp pla) b loc).InChain h q ↔ q ≠ loc ∧ b.InChain h q := by
    intro h q
    rw [InChain, InChain, cleared.chainHead]
    constructor
    · rintro ⟨isStone, head⟩
      exact ⟨(before q isStone).1, (before q isStone).2, head⟩
    · rintro ⟨other, isStone, head⟩
      exact ⟨by rw [colours, Function.update_of_ne other]; exact isStone, head⟩
  have absent : loc ∉ t := (List.nodup_cons.1 ring.nodup).1
  refine ⟨cleared.xSize, cleared.ySize, cleared.koLoc, cleared.numBlackCaptures, cleared.numWhiteCaptures, shape₁,
    cleared.posHash regular.recorded.hash, colours, cleared.chainHead, cleared.nextInChain, ?_, ?_, ?_, ?_, ?_⟩
  · rw [cleared.chainData]
    have none : ¬ ∃ a ∈ b.adj loc, b.colors a = getOpp pla ∧ b.chainHead a = b.chainHead loc := by
      rintro ⟨a, -, opposite, head⟩
      have same := ok.colour a ⟨by rw [opposite]; exact stone.opp, head⟩
      rw [opposite, headColour] at same
      exact stone.opp_ne same
    simp [none]
  · intro q isStone other
    refine Cleared.chainOk (g := b.chainHead loc) (by rw [headColour]; exact cleared) shape (by simp) ?_ ?_ ?_
      (regular.chainOk (before q isStone).2) other
    · intro x member
      rw [List.mem_singleton.1 member]
      exact ⟨locStone, rfl⟩
    · rw [headColour]
      exact stone
    · intro x member y adjacent same
      rw [List.mem_singleton.1 member] at adjacent
      rw [headColour] at same
      exact ⟨by rw [same]; exact stone, regular.head_eq locStone adjacent (same.trans colour.symm)⟩
  · intro q x isStone other
    have isStone' := (before q isStone).2
    have outside : ∀ y, Chain (grid b.xSize) b.colors q y → y ≠ loc := by
      rintro y path rfl
      exact other ((regular.component q y isStone').2 path).2.symm
    rw [inChain, regular.component q x isStone', cleared.xSize]
    constructor
    · rintro ⟨-, path⟩
      refine path.relabel fun y along => ?_
      rw [colours, Function.update_of_ne (outside y along)]
    · intro path
      have back : Chain (grid b.xSize) b.colors q x := by
        apply path.weaken (k := (removeStone (getOpp pla) b loc).colors q) _ rfl
        intro y label
        have here := (before y (by rw [label]; exact isStone)).1
        rw [← label, colours, Function.update_of_ne here]
      exact ⟨outside x back, back⟩
  · intro q
    rw [inChain, ← ring.mem q, List.mem_cons]
    constructor
    · rintro ⟨other, here | inside⟩
      · exact absurd here other
      · exact inside
    · intro inside
      exact ⟨fun here => absent (here ▸ inside), Or.inr inside⟩
  · intro q inside
    have path := (regular.component loc q locStone).1 ((ring.mem q).1 (List.mem_cons_of_mem _ inside))
    have placed : b.colors = Function.update (removeStone (getOpp pla) b loc).colors loc pla := by
      rw [colours, Function.update_idem, ← colour, Function.update_eq_self]
    rw [placed, ← cleared.xSize] at path
    refine ((chain_placed_iff ?_ stone).1 path).resolve_left fun here => absent (here ▸ inside)
    rw [colours, Function.update_self]

/-- The stone was a chain of its own. -/
theorem Lifted.regular (lifted : Lifted b b₁ loc g [] pla) : b₁.Regular := by
  have other : ∀ q, (b₁.colors q).IsStone → b.chainHead q ≠ g := by
    intro q stone head
    have inside := (lifted.own q).1 ⟨stone, by rw [lifted.chainHead]; exact head⟩
    simp at inside
  refine ⟨⟨lifted.shape, lifted.hash, fun q stone => ?_⟩, fun q x stone => ?_⟩
  · rw [lifted.chainHead]
    exact lifted.otherOk q stone (other q stone)
  · rw [lifted.chainHead]
    exact lifted.otherChain q x stone (other q stone)

theorem Lifted.rebuilt (lifted : Lifted b b₁ loc g t pla) (player : pla.IsStone)
    (walked : b.chainLocs loc = some (loc :: t)) :
    ∃ b', b₁.undoRebuild loc pla = some b' ∧ b'.Regular ∧ SamePosition b₁ b' := by
  have heads := setHeads_chainHead b₁ (loc :: t) nullLoc
  have blank : b₁.colors loc = .empty := by rw [lifted.colors, Function.update_self]
  -- Of the stones left, those of the chain are the ones that lose their head.
  have headed : ∀ q, (b₁.colors q).IsStone → (b₁.setHeads (loc :: t) nullLoc).chainHead q ≠ nullLoc →
      b.chainHead q ≠ g ∧ (b₁.setHeads (loc :: t) nullLoc).chainHead q = b.chainHead q := by
    intro q stone real
    rw [heads q] at real ⊢
    split_ifs at real ⊢ with inside
    · exact absurd rfl real
    · rw [lifted.chainHead]
      refine ⟨fun head => inside (List.mem_cons_of_mem _ ((lifted.own q).1 ⟨stone, ?_⟩)), rfl⟩
      rw [lifted.chainHead]
      exact head
  have inChain : ∀ h q, h ≠ nullLoc → h ≠ g → ((b₁.setHeads (loc :: t) nullLoc).InChain h q ↔ b₁.InChain h q) := by
    intro h q real other
    refine and_congr_right fun stone => ?_
    rw [heads q]
    split_ifs with inside
    · refine iff_of_false (fun same => real same.symm) fun same => other ?_
      have member : q ∈ t := by
        refine (List.mem_cons.1 inside).resolve_left ?_
        rintro rfl
        exact stone.ne_empty blank
      exact same.symm.trans ((lifted.own q).2 member).2
    · exact Iff.rfl
  have built : (b₁.setHeads (loc :: t) nullLoc).Built := by
    refine ⟨lifted.shape.recolor rfl rfl fun _ => Iff.rfl, lifted.hash, ?_, ?_⟩
    · intro q stone real
      obtain ⟨other, same⟩ := headed q stone real
      rw [same] at real ⊢
      have ok := lifted.otherOk q stone other
      refine ok.frame (fun x => inChain _ x real other) (fun _ _ => rfl) (fun _ _ => rfl) rfl rfl ?_
      have libs : (b₁.setHeads (loc :: t) nullLoc).libs (b.chainHead q) = b₁.libs (b.chainHead q) :=
        libs_congr rfl rfl (fun _ => Iff.rfl) fun x => inChain _ x real other
      rw [libs]
      exact ok.liberties
    · intro q x stone real
      obtain ⟨other, same⟩ := headed q stone real
      rw [same] at real ⊢
      rw [inChain _ x real other]
      exact lifted.otherChain q x stone other
  obtain ⟨b', run, built', same, keeps, found⟩ := rebuildAll_spec (· = pla) (fun c equal => by rw [equal]; exact player)
    (b₁.adj loc) built
  refine ⟨b', ?_, built'.regular fun q stone => ?_, ⟨same.xSize, same.ySize, same.colors, same.koLoc,
    same.numBlackCaptures, same.numWhiteCaptures⟩⟩
  · have walked₁ : b₁.chainLocs loc = some (loc :: t) := by
      rw [chainLocs, lifted.nextInChain]
      exact walked
    have bodies : (fun (b : Board) a => if b.colors a = pla ∧ b.chainHead a = nullLoc then b.rebuildChain a pla
        else some b) = fun (b : Board) a => if b.colors a = pla ∧ b.chainHead a = nullLoc then
          b.rebuildChain a (b.colors a) else some b := by
      funext b a
      split_ifs with chosen
      · rw [chosen.1]
      · rfl
    rw [undoRebuild, walked₁, bodies]
    exact run
  · have stone₁ : (b₁.colors q).IsStone := by
      rw [same.colors] at stone
      exact stone
    by_cases inside : q ∈ t
    · obtain ⟨a, near, mine, path⟩ := lifted.attached q inside
      have headA : b'.chainHead a ≠ nullLoc := found a near mine
      have joined := (built'.component a q (by rw [same.colors]; exact mine ▸ player) headA).2 (by
        rw [same.xSize, same.colors]
        exact path)
      rw [joined.2]
      exact headA
    · refine keeps q fun lost => ?_
      have outside : q ∉ loc :: t := by
        intro member
        rcases List.mem_cons.1 member with rfl | later
        · exact stone₁.ne_empty blank
        · exact inside later
      rw [heads q, if_neg outside, lifted.chainHead] at lost
      have other : b.chainHead q ≠ g := fun head => inside ((lifted.own q).1 ⟨stone₁, by rw [lifted.chainHead]; exact head⟩)
      have ok := lifted.otherOk q stone₁ other
      exact lifted.shape.ne_null ok.stone.ne_wall lost

section Detach

/-- `b₂` is `b₁` with `h`, which is not the lifted stone, as the head of the chain. -/
structure Moved (b b₁ b₂ : Board) (loc g h : Loc) (t : List Loc) : Prop where
  xSize : b₂.xSize = b₁.xSize
  ySize : b₂.ySize = b₁.ySize
  koLoc : b₂.koLoc = b₁.koLoc
  numBlackCaptures : b₂.numBlackCaptures = b₁.numBlackCaptures
  numWhiteCaptures : b₂.numWhiteCaptures = b₁.numWhiteCaptures
  posHash : b₂.posHash = b₁.posHash
  colors : b₂.colors = b₁.colors
  nextInChain : b₂.nextInChain = b₁.nextInChain
  member : h ∈ t
  chainHead : ∀ q, b₂.chainHead q = if q ∈ loc :: t then h else b₁.chainHead q
  data : b₂.chainData h = b.chainData g
  otherData : ∀ k, k ≠ h → b₂.chainData k = b₁.chainData k

theorem Lifted.moveHead (lifted : Lifted b b₁ loc g t pla) (self : b.chainHead loc = g)
    (headMember : g ∈ loc :: t) (ring : b.Ring g (loc :: t)) (walked : b.chainLocs loc = some (loc :: t))
    (more : t ≠ []) : ∃ b₂ h, b₁.moveHead loc = some (b₂, h) ∧ Moved b b₁ b₂ loc g h t := by
  have self₁ : b₁.chainHead loc = g := by rw [lifted.chainHead, self]
  have walked₁ : b₁.chainLocs loc = some (loc :: t) := by
    rw [chainLocs, lifted.nextInChain]
    exact walked
  by_cases isHead : g = loc
  · obtain ⟨x, rest, rfl⟩ := List.exists_cons_of_ne_nil more
    have next : b₁.nextInChain loc = x := by
      have chain := linked_cons.1 ring.linked
      rw [List.cons_append, List.isChain_cons_cons] at chain
      rw [lifted.nextInChain]
      exact chain.1
    refine ⟨{ b₁.setHeads (loc :: x :: rest) x with chainData := Function.update b₁.chainData x (b₁.chainData g) },
      x, ?_, ⟨rfl, rfl, rfl, rfl, rfl, rfl, rfl, rfl, by simp,
      setHeads_chainHead b₁ (loc :: x :: rest) x, ?_, fun k other => Function.update_of_ne other ..⟩⟩
    · rw [Board.moveHead, self₁, if_pos isHead, walked₁, next]
      rfl
    · rw [← lifted.data]
      exact Function.update_self ..
  · refine ⟨b₁, g, ?_, ⟨rfl, rfl, rfl, rfl, rfl, rfl, rfl, rfl, (List.mem_cons.1 headMember).resolve_left isHead, ?_,
      lifted.data, fun _ _ => rfl⟩⟩
    · rw [Board.moveHead, self₁, if_neg isHead]
      rfl
    · intro q
      split_ifs with inside
      · rw [lifted.chainHead]
        exact ((ring.mem q).1 inside).2
      · rfl

omit [Zobrist] in
theorem eq_of_countP_le_one {l : List Loc} {test : Loc → Bool} {x y : Loc} (few : l.countP test ≤ 1)
    (memX : x ∈ l) (memY : y ∈ l) (testX : test x = true) (testY : test y = true) : x = y := by
  rw [List.countP_eq_length_filter] at few
  have inX : x ∈ l.filter test := List.mem_filter.2 ⟨memX, testX⟩
  have inY : y ∈ l.filter test := List.mem_filter.2 ⟨memY, testY⟩
  rcases filtered : l.filter test with _ | ⟨z, _ | ⟨w, rest⟩⟩
  · rw [filtered] at inX
    simp at inX
  · rw [filtered, List.mem_singleton] at inX inY
    rw [inX, inY]
  · rw [filtered] at few
    simp at few

/-- `b'` is `b₁` with the lifted stone unlinked from its chain and the counts of the chain
changed by hand. -/
structure Detached (b b₁ b' : Board) (loc g h z : Loc) (t : List Loc) : Prop where
  position : SamePosition b₁ b'
  posHash : b'.posHash = b₁.posHash
  member : h ∈ t
  chainHead : ∀ q, b'.chainHead q = if q ∈ loc :: t then h else b.chainHead q
  nextInChain : b'.nextInChain = Function.update b.nextInChain z (b.nextInChain loc)
  data : b'.chainData h = ⟨(b.chainData g).owner, (b.chainData g).numLocs - 1, (b.chainData g).numLiberties +
    (1 - ((b'.adj loc).countP fun a => b'.colors a = .empty ∧ ¬ b'.isLibertyOf a h))⟩
  otherData : ∀ k, k ≠ h → b'.chainData k = b₁.chainData k

theorem Lifted.undoDetach {m : List Loc} {z : Loc} (lifted : Lifted b b₁ loc g (m ++ [z]) pla) (shape : b.Shape)
    (self : b.chainHead loc = g) (headMember : g ∈ loc :: (m ++ [z])) (ring : b.Ring g (loc :: (m ++ [z])))
    (walked : b.chainLocs loc = some (loc :: (m ++ [z]))) :
    ∃ b' h, b₁.undoDetach loc = some b' ∧ Detached b b₁ b' loc g h z (m ++ [z]) := by
  obtain ⟨b₂, h, move, moved⟩ := lifted.moveHead self headMember ring walked (by simp)
  have next : b₂.nextInChain = b.nextInChain := moved.nextInChain.trans lifted.nextInChain
  have length := ring.length_le shape
  simp only [List.length_cons, List.length_append, List.length_nil] at length
  have found : findPrev b₂.nextInChain loc maxArrSize h = some z :=
    findPrev_of_linked (by rw [next]; exact ring.linked) ring.nodup moved.member (by omega)
  obtain ⟨unlinked, unlinkedEq⟩ : ∃ unlinked : Board, unlinked = { b₂ with
    nextInChain := Function.update b₂.nextInChain z (b₂.nextInChain loc) } := ⟨_, rfl⟩
  refine ⟨(unlinked.addLiberties h (1 - ((unlinked.adj loc).countP fun a =>
      unlinked.colors a = .empty ∧ ¬ unlinked.isLibertyOf a h))).addLocs h (-1), h, ?_, ⟨?_, ?_, moved.member,
    ?_, ?_, ?_, ?_⟩⟩
  · rw [Board.undoDetach, move]
    simp only [Option.bind_eq_bind, Option.bind_some, found, Option.pure_def]
    rw [unlinkedEq]
  · subst unlinkedEq
    exact ⟨moved.xSize, moved.ySize, moved.colors, moved.koLoc, moved.numBlackCaptures, moved.numWhiteCaptures⟩
  · subst unlinkedEq
    exact moved.posHash
  · intro q
    rw [← lifted.chainHead, ← moved.chainHead q, unlinkedEq]
    rfl
  · rw [← next, unlinkedEq]
    rfl
  · rw [← moved.data, unlinkedEq]
    simp only [addLocs, addLiberties, Function.update_self, ChainData.bump]
    rfl
  · intro k other
    rw [← moved.otherData k other, unlinkedEq]
    simp only [addLocs, addLiberties, Function.update_of_ne other]

namespace Detached

variable {h z : Loc}

theorem blank (lifted : Lifted b b₁ loc g t pla) : b₁.colors loc = .empty := by
  rw [lifted.colors, Function.update_self]

/-- The stones left of the chain, and their old head. -/
theorem inside (lifted : Lifted b b₁ loc g t pla) (member : q ∈ t) :
    (b₁.colors q).IsStone ∧ b.chainHead q = g := by
  have found := (lifted.own q).2 member
  rw [InChain, lifted.chainHead] at found
  exact found

theorem outside (lifted : Lifted b b₁ loc g t pla) (stone : (b₁.colors q).IsStone) (absent : q ∉ t) :
    q ∉ loc :: t ∧ b.chainHead q ≠ g := by
  refine ⟨fun member => ?_, fun head => absent ((lifted.own q).1 ⟨stone, by rw [lifted.chainHead]; exact head⟩)⟩
  rcases List.mem_cons.1 member with rfl | later
  · exact stone.ne_empty (blank lifted)
  · exact absent later

/-- The heads of the other chains are not the new head of this one. -/
theorem otherHead (detached : Detached b b₁ b' loc g h z t) (lifted : Lifted b b₁ loc g t pla)
    (stone : (b₁.colors q).IsStone) (absent : q ∉ t) : b.chainHead q ≠ h := by
  intro same
  have otherOk := lifted.otherOk q stone (outside lifted stone absent).2
  have self := otherOk.self
  rw [same, lifted.chainHead, (inside lifted detached.member).2] at self
  exact (outside lifted stone absent).2 (same.trans self.symm)

theorem inOwn (detached : Detached b b₁ b' loc g h z t) (lifted : Lifted b b₁ loc g t pla) (q : Loc) :
    b'.InChain h q ↔ q ∈ t := by
  rw [InChain, detached.position.colors, detached.chainHead q]
  constructor
  · rintro ⟨stone, head⟩
    by_contra absent
    rw [if_neg (outside lifted stone absent).1] at head
    exact detached.otherHead lifted stone absent head
  · intro member
    exact ⟨(inside lifted member).1, if_pos (List.mem_cons_of_mem _ member)⟩

theorem inOther (detached : Detached b b₁ b' loc g h z t) (lifted : Lifted b b₁ loc g t pla)
    (stone : (b₁.colors q).IsStone) (absent : q ∉ t) (x : Loc) :
    b'.InChain (b.chainHead q) x ↔ b₁.InChain (b.chainHead q) x := by
  rw [InChain, InChain, detached.position.colors]
  refine and_congr_right fun stoneX => ?_
  rw [detached.chainHead x, lifted.chainHead]
  by_cases member : x ∈ t
  · rw [if_pos (List.mem_cons_of_mem _ member), (inside lifted member).2]
    exact iff_of_false (detached.otherHead lifted stone absent).symm (outside lifted stone absent).2.symm
  · rw [if_neg (outside lifted stoneX member).1]

theorem otherOk (detached : Detached b b₁ b' loc g h z t) (lifted : Lifted b b₁ loc g t pla) (last : z ∈ t)
    (stone : (b₁.colors q).IsStone) (absent : q ∉ t) : b'.ChainOk (b.chainHead q) 0 := by
  have ok := lifted.otherOk q stone (outside lifted stone absent).2
  have other := detached.otherHead lifted stone absent
  have members := detached.inOther lifted stone absent
  refine ok.frame members (fun x _ => by rw [detached.position.colors]) ?_ (by rw [detached.otherData _ other])
    (by rw [detached.otherData _ other]) ?_
  · intro x found
    rw [detached.nextInChain, lifted.nextInChain, Function.update_of_ne]
    rintro rfl
    refine (outside lifted stone absent).2 (found.2.symm.trans ?_)
    rw [lifted.chainHead]
    exact (inside lifted last).2
  · have libs : b'.libs (b.chainHead q) = b₁.libs (b.chainHead q) := libs_congr detached.position.xSize
      detached.position.ySize (fun e => by rw [detached.position.colors]) members
    rw [detached.otherData _ other, ok.liberties, libs]

/-- What the chain touched before: what it touches now, less the point of the stone, and the
empty neighbours of the stone. -/
theorem libs_before (detached : Detached b b₁ b' loc g h z t) (lifted : Lifted b b₁ loc g t pla) (shape : b.Shape)
    (ring : b.Ring g (loc :: t)) (locStone : (b.colors loc).IsStone) (shape' : b'.Shape) :
    b.libs g = (b'.libs h).erase loc ∪ (b'.adj loc).toFinset.filter fun a => b'.colors a = .empty := by
  have colours : ∀ x, x ≠ loc → b'.colors x = b.colors x := by
    intro x other
    rw [detached.position.colors, lifted.colors, Function.update_of_ne other]
  have adjacent : ∀ x, b'.adj x = b.adj x := fun x => by
    rw [adj, adj, detached.position.xSize, lifted.xSize]
  ext e
  rw [mem_libs shape, Finset.mem_union, Finset.mem_erase, mem_libs shape', Finset.mem_filter, List.mem_toFinset,
    adjacent, adjacent]
  simp only [← ring.mem, detached.inOwn lifted, List.mem_cons]
  constructor
  · rintro ⟨free, q, near, here | later⟩
    · subst here
      have other : e ≠ q := ne_of_mem_adj (adj_symm near)
      exact Or.inr ⟨adj_symm near, by rw [colours e other]; exact free⟩
    · have other : e ≠ loc := by
        rintro rfl
        exact locStone.ne_empty free
      exact Or.inl ⟨other, by rw [colours e other]; exact free, q, near, later⟩
  · rintro (⟨other, free, q, near, later⟩ | ⟨near, free⟩)
    · exact ⟨by rw [← colours e other]; exact free, q, near, Or.inr later⟩
    · exact ⟨by rw [← colours e (ne_of_mem_adj near)]; exact free, loc, adj_symm near, Or.inl rfl⟩

theorem ownOk {m : List Loc} (detached : Detached b b₁ b' loc g h z (m ++ [z]))
    (lifted : Lifted b b₁ loc g (m ++ [z]) pla) (shape : b.Shape) (player : pla.IsStone) (ok : b.ChainOk g 0)
    (ring : b.Ring g (loc :: (m ++ [z]))) (size : (b.chainData g).numLocs = (loc :: (m ++ [z])).length)
    (colour : b.colors loc = pla) (shape' : b'.Shape) : b'.ChainOk h 0 := by
  have locStone : (b.colors loc).IsStone := by rw [colour]; exact player
  have headColour : b.colors g = pla := by
    rw [← ok.colour loc ((ring.mem loc).1 (by simp)), colour]
  have absent : loc ∉ m ++ [z] := (List.nodup_cons.1 ring.nodup).1
  have own := detached.inOwn lifted
  have mine : ∀ q, q ∈ m ++ [z] → b'.colors q = pla := by
    intro q member
    rw [detached.position.colors, lifted.colors, Function.update_of_ne fun here => absent (by rw [← here]; exact member),
      ok.colour q ((ring.mem q).1 (List.mem_cons_of_mem _ member)), headColour]
  have headMine := mine h detached.member
  have self := (own h).2 detached.member
  have colourOwn : ∀ q, b'.InChain h q → b'.colors q = b'.colors h := fun q found => by
    rw [mine q ((own q).1 found), headMine]
  refine ⟨self.1, self.2, ⟨m ++ [z], ⟨(List.nodup_cons.1 ring.nodup).2, fun q => (own q).symm, ?_⟩, ?_⟩,
    colourOwn, by rw [detached.data, headMine, ok.owner, headColour], ?_⟩
  · rw [detached.nextInChain]
    exact linked_unlink ring.linked ring.nodup
  · rw [detached.data, size]
    simp
  · -- The point of the stone is a liberty now, because the rest of the chain was attached there.
    have freed : loc ∈ b'.libs h := by
      obtain ⟨a, near, friend, path⟩ := lifted.attached z (by simp)
      have stone : (b₁.colors a).IsStone := by rw [friend]; exact player
      have member : a ∈ m ++ [z] := by
        by_contra other
        have joined := (lifted.otherChain a z stone (outside lifted stone other).2).2 path
        have headZ := ((lifted.own z).2 (by simp)).2
        exact (outside lifted stone other).2 (joined.2.symm.trans headZ)
      rw [mem_libs shape', adj, detached.position.xSize]
      exact ⟨by rw [detached.position.colors]; exact blank lifted, a, near, (own a).2 member⟩
    have cards : ((b.libs g).card : Int) = (b'.libs h).card - 1 +
        (((b'.adj loc).toFinset.filter fun a => b'.colors a = .empty) \ b'.libs h).card := by
      have erased : ((b'.adj loc).toFinset.filter fun a => b'.colors a = .empty) \ (b'.libs h).erase loc =
          ((b'.adj loc).toFinset.filter fun a => b'.colors a = .empty) \ b'.libs h := by
        ext e
        simp only [Finset.mem_sdiff, Finset.mem_filter, List.mem_toFinset, Finset.mem_erase, not_and]
        refine and_congr_right fun found => ?_
        have other := ne_of_mem_adj found.1
        exact ⟨fun miss => miss other, fun miss _ => miss⟩
      rw [detached.libs_before lifted shape ring locStone shape', ← Finset.union_sdiff_self_eq_union,
        Finset.card_union_of_disjoint Finset.disjoint_sdiff, erased, Finset.card_erase_of_mem freed]
      have positive := Finset.card_pos.2 ⟨loc, freed⟩
      push_cast [Nat.cast_sub positive]
      ring
    rw [detached.data, countP_new_liberties shape' self.1 colourOwn, ok.liberties, cards]
    ring

/-- The patched chain is connected, since the stone held on to it by one neighbour only. -/
theorem regular {m : List Loc} (detached : Detached b b₁ b' loc g h z (m ++ [z]))
    (lifted : Lifted b b₁ loc g (m ++ [z]) pla) (regular : b.Regular) (player : pla.IsStone)
    (colour : b.colors loc = pla) (self : b.chainHead loc = g) (ring : b.Ring g (loc :: (m ++ [z])))
    (size : (b.chainData g).numLocs = (loc :: (m ++ [z])).length)
    (few : ((b₁.adj loc).countP fun a => b₁.colors a = pla) ≤ 1) : b'.Regular := by
  have ok := regular.chainOk (p := loc) (by rw [colour]; exact player)
  rw [self] at ok
  have position := detached.position
  have shape' : b'.Shape := lifted.shape.recolor position.xSize position.ySize fun q => by rw [position.colors]
  refine Recorded.regular ⟨shape', ?_, ?_⟩ ?_ ?_
  · rw [detached.posHash, position.xSize, position.ySize, position.colors]
    exact lifted.hash
  · intro q stone
    rw [position.colors] at stone
    rw [detached.chainHead q]
    by_cases member : q ∈ m ++ [z]
    · rw [if_pos (List.mem_cons_of_mem _ member)]
      exact detached.ownOk lifted regular.shape player ok ring size colour shape'
    · rw [if_neg (outside lifted stone member).1]
      exact detached.otherOk lifted (by simp) stone member
  · intro p q stoneP stoneQ same
    rw [position.colors] at stoneP stoneQ ⊢
    rw [position.xSize]
    by_cases memberP : p ∈ m ++ [z]
    · have headP := ((detached.inOwn lifted p).2 memberP).2
      have memberQ := (detached.inOwn lifted q).1 ⟨by rw [position.colors]; exact stoneQ, same.symm.trans headP⟩
      obtain ⟨x, nearX, mineX, pathX⟩ := lifted.attached p memberP
      obtain ⟨y, nearY, mineY, pathY⟩ := lifted.attached q memberQ
      obtain rfl := eq_of_countP_le_one few nearX nearY (decide_eq_true mineX) (decide_eq_true mineY)
      exact pathX.symm.trans pathY
    · have absent := outside lifted stoneP memberP
      rw [detached.chainHead p, if_neg absent.1] at same
      refine (lifted.otherChain p q stoneP absent.2).1 ((detached.inOther lifted stoneP memberP q).1 ⟨?_, same.symm⟩)
      rw [position.colors]
      exact stoneQ
  · intro p q stoneP adjacent same
    rw [position.colors] at stoneP same
    have stoneQ : (b₁.colors q).IsStone := by rw [same]; exact stoneP
    have apart : ∀ x, (b₁.colors x).IsStone → b₁.colors x = b.colors x := by
      intro x stone
      rw [lifted.colors, Function.update_of_ne]
      rintro rfl
      exact stone.ne_empty (blank lifted)
    rw [apart p stoneP, apart q stoneQ] at same
    rw [adj, position.xSize, lifted.xSize] at adjacent
    have head := regular.head_eq (by rw [← apart p stoneP]; exact stoneP) adjacent same
    rw [detached.chainHead p, detached.chainHead q]
    by_cases member : p ∈ m ++ [z]
    · have memberQ : q ∈ m ++ [z] := by
        by_contra absent
        exact (outside lifted stoneQ absent).2 (head.trans (inside lifted member).2)
      rw [if_pos (List.mem_cons_of_mem _ member), if_pos (List.mem_cons_of_mem _ memberQ)]
    · have memberQ : q ∉ m ++ [z] := fun found =>
        (outside lifted stoneP member).2 (head.symm.trans (inside lifted found).2)
      rw [if_neg (outside lifted stoneP member).1, if_neg (outside lifted stoneQ memberQ).1, head]

end Detached

end Detach

/-- The end of `undo`: the stone is taken off and its chain is mended. -/
theorem mend_spec (regular : b.Regular) (player : pla.IsStone) (colour : b.colors loc = pla) :
    ∃ b', (if (removeStone (getOpp pla) b loc).getChainSize loc > 1 then
        if (((removeStone (getOpp pla) b loc).adj loc).countP fun a =>
            (removeStone (getOpp pla) b loc).colors a = pla) ≤ 1 then
          (removeStone (getOpp pla) b loc).undoDetach loc
        else (removeStone (getOpp pla) b loc).undoRebuild loc pla
      else some (removeStone (getOpp pla) b loc)) = some b' ∧
      b'.Regular ∧ b'.xSize = b.xSize ∧ b'.ySize = b.ySize ∧ b'.koLoc = b.koLoc ∧
      b'.numBlackCaptures = b.numBlackCaptures ∧ b'.numWhiteCaptures = b.numWhiteCaptures ∧
      b'.colors = Function.update b.colors loc .empty := by
  have stone : (b.colors loc).IsStone := by rw [colour]; exact player
  have ok := regular.chainOk stone
  obtain ⟨t, walked, ring, size⟩ := ok.chainLocs regular.shape ⟨stone, rfl⟩
  have lifted := lifted_removeStone regular player colour ring
  obtain ⟨b₁, b₁Eq⟩ : ∃ b₁, b₁ = removeStone (getOpp pla) b loc := ⟨_, rfl⟩
  rw [← b₁Eq] at lifted ⊢
  have count : b₁.getChainSize loc = (loc :: t).length := by
    rw [getChainSize, lifted.chainHead, lifted.data, size]
  suffices mended : ∃ b', (if b₁.getChainSize loc > 1 then
      if ((b₁.adj loc).countP fun a => b₁.colors a = pla) ≤ 1 then b₁.undoDetach loc else b₁.undoRebuild loc pla
      else some b₁) = some b' ∧ b'.Regular ∧ SamePosition b₁ b' by
    obtain ⟨b', run, regular', same⟩ := mended
    exact ⟨b', run, regular', same.xSize.trans lifted.xSize, same.ySize.trans lifted.ySize,
      same.koLoc.trans lifted.koLoc, same.numBlackCaptures.trans lifted.numBlackCaptures,
      same.numWhiteCaptures.trans lifted.numWhiteCaptures, same.colors.trans lifted.colors⟩
  rcases List.eq_nil_or_concat t with rfl | ⟨m, z, rfl⟩
  · refine ⟨b₁, if_neg ?_, lifted.regular, ⟨rfl, rfl, rfl, rfl, rfl, rfl⟩⟩
    rw [count]
    simp
  · have large : b₁.getChainSize loc > 1 := by
      rw [count]
      simp only [List.concat_eq_append, List.length_cons, List.length_append, List.length_nil]
      omega
    rw [if_pos large]
    rw [List.concat_eq_append] at walked ring size lifted
    split_ifs with few
    · obtain ⟨b', h, run, detached⟩ := lifted.undoDetach regular.shape rfl ((ring.mem _).2 ok.head_mem) ring walked
      exact ⟨b', run, detached.regular lifted regular player colour rfl ring size few, detached.position⟩
    · exact lifted.rebuilt player walked

end Board
end KataGo.Game
