import KataGo.Python.Fill
import KataGo.Game.Queries

/-! A stone taken out of its group. The stones that are left lose their head, and every
part of the group next to the deleted stone is rebuilt by flood fill. -/

namespace KataGo.Python
open KataGo.Lib CircularList Flood Labelling
open KataGo.Game (Color Player getOpp Loc grid adjs_symm)

namespace Board

variable {b b' b₁ : Board} {g h p q e a v loc tail : Loc} {pla k : Color}

section Visits

/-- What the visits of `rebuildChainHelper` make of `b`. -/
structure Visited (b b' : Board) (h : Loc) (l : List Loc) : Prop extends SameRest b b' where
  board : b'.board = b.board
  zobrist : b'.zobrist = b.zobrist
  groupHead : ∀ q, b'.groupHead q = if q ∈ l then h else b.groupHead q
  groupStoneCount : ∀ g, b'.groupStoneCount g = b.groupStoneCount g + if g = h then (l.length : Int) else 0
  groupLibertyCount : ∀ g, b'.groupLibertyCount g =
    b.groupLibertyCount g + if g = h then ((b'.libs h).card : Int) - (b.libs h).card else 0

theorem visited_rebuildVisit (tail : Loc) (shape : b.Shape) (outside : b.groupHead v ≠ h) :
    Visited b (rebuildVisit h (b, tail) v).1 h [v] := by
  have same : SameRest b (rebuildVisit h (b, tail) v).1 := ⟨rfl, rfl, rfl, rfl, rfl, rfl⟩
  refine ⟨same, rfl, rfl, fun q => ?_, fun g => ?_, fun g => ?_⟩
  · change Function.update b.groupHead v h q = _
    by_cases here : q = v <;> simp [here]
  · change Function.update b.groupStoneCount h _ g = _
    by_cases here : g = h <;> simp [here]
  · change Function.update b.groupLibertyCount h _ g = _
    by_cases here : g = h
    · rw [here, Function.update_self, if_pos rfl, countP_new_liberties shape,
        card_libs_join shape same outside rfl rfl]
      push_cast
      ring
    · rw [Function.update_of_ne here, if_neg here, add_zero]

theorem Visited.cons {l : List Loc} (first : Visited b b₁ h [v]) (rest : Visited b₁ b' h l) :
    Visited b b' h (v :: l) := by
  refine ⟨first.toSameRest.trans rest.toSameRest, rest.board.trans first.board, rest.zobrist.trans first.zobrist,
    fun q => ?_, fun g => ?_, fun g => ?_⟩
  · rw [rest.groupHead, first.groupHead]
    by_cases inside : q ∈ l <;> by_cases here : q = v <;> simp [inside, here]
  · rw [rest.groupStoneCount, first.groupStoneCount]
    split_ifs
    · rw [List.length_cons, List.length_cons, List.length_nil]
      push_cast
      ring
    · ring
  · rw [rest.groupLibertyCount, first.groupLibertyCount]
    split_ifs <;> ring

theorem visited_foldl (l : List Loc) (nodup : l.Nodup) (tail : Loc) {b : Board} (shape : b.Shape)
    (joining : ∀ q ∈ l, b.groupHead q ≠ h) : Visited b (l.foldl (rebuildVisit h) (b, tail)).1 h l := by
  induction l generalizing b tail with
  | nil => exact ⟨SameRest.refl b, rfl, rfl, by simp, by simp, by simp⟩
  | cons v l ih =>
    obtain ⟨fresh, rest⟩ := List.nodup_cons.1 nodup
    have first := visited_rebuildVisit tail shape (joining v (by simp))
    have second : (rebuildVisit h (b, tail) v).2 = v := rfl
    rw [List.foldl_cons, ← Prod.mk.eta (p := rebuildVisit h (b, tail) v), second]
    refine first.cons (ih rest v (first.shape shape fun _ => by rw [first.board]) fun x inside => ?_)
    rw [first.groupHead, if_neg (by simpa using ne_of_mem_of_not_mem inside fresh)]
    exact joining x (by simp [inside])

theorem foldl_rebuildVisit_links (h : Loc) (l : List Loc) (b : Board) (tail : Loc) :
    ((l.foldl (rebuildVisit h) (b, tail)).1.groupNext, (l.foldl (rebuildVisit h) (b, tail)).2) =
        l.foldl push (b.groupNext, tail) ∧
      ((l.foldl (rebuildVisit h) (b, tail)).1.groupPrev, (l.foldl (rebuildVisit h) (b, tail)).2) =
        l.foldl pushPrev (b.groupPrev, tail) := by
  induction l generalizing b tail with
  | nil => exact ⟨rfl, rfl⟩
  | cons v l ih =>
    rw [List.foldl_cons, List.foldl_cons, List.foldl_cons, rebuildVisit]
    exact ih _ v

end Visits

/-- The stones with a head are recorded correctly, and their groups are components. At the
point `loc`, which was emptied last, the links may still be there. -/
structure Built (b : Board) (loc : Loc) : Prop where
  shape : b.Shape
  unheaded : ∀ p, b.board p = .empty → b.groupHead p = 0
  vacant : ∀ p, b.board p = .empty → p ≠ loc → b.Vacant p
  wall : ∀ p, b.board p = .wall → b.groupHead p ≤ 0
  group : ∀ p, (b.board p).IsStone → b.groupHead p ≠ 0 → b.Group (b.groupHead p)
  component : ∀ p q, (b.board p).IsStone → b.groupHead p ≠ 0 →
    (b.groupHead q = b.groupHead p ↔ Chain (grid b.xSize) b.board p q)

/-- `b'` is `b` with the component of `p` turned into a group with head `p`. -/
structure Rebuilt (b b' : Board) (p : Loc) : Prop extends SameRest b b' where
  board : b'.board = b.board
  zobrist : b'.zobrist = b.zobrist
  new : ∀ q, q ∈ b.component p → b'.groupHead q = p
  old : ∀ q, q ∉ b.component p → b'.groupHead q = b.groupHead q

/-- No group is headed by a stone that has no head itself. -/
theorem Built.headless (built : b.Built loc) (stone : (b.board p).IsStone) (fresh : b.groupHead p = 0) (q : Loc) :
    b.groupHead q ≠ p := by
  intro same
  have positive := built.shape.positive stone.ne_wall
  by_cases isStone : (b.board q).IsStone
  · have group := built.group q isStone (by rw [same]; exact positive.ne')
    rw [same] at group
    exact positive.ne (fresh.symm.trans group.self)
  · rcases cases_of_not_stone isStone with blank | wall
    · exact positive.ne ((built.unheaded q blank).symm.trans same)
    · have nonpos := built.wall q wall
      rw [same] at nonpos
      exact absurd positive (not_lt_of_ge nonpos)

/-- The flood fill visits the component of its start. -/
theorem rebuildChainHelper_visits (shape : b.Shape) (notHeaded : ∀ q, b.groupHead q ≠ p)
    (stone : (b.board p).IsStone) (tail : Loc) :
    ∃ l, b.rebuildChainHelper p tail p (b.board p) = some ((p :: l).foldl (rebuildVisit p) (b, tail)) ∧
      (p :: l).Nodup ∧ ∀ q, q ∈ p :: l ↔ q ∈ b.component p := by
  obtain ⟨l, run, filled⟩ := flood_spec b.adj
    (fun (s : Board × Loc) a => decide (s.1.board a = b.board p ∧ s.1.groupHead a ≠ p)) (rebuildVisit p)
    (fun s v a => by
      change decide (s.1.board a = b.board p ∧ Function.update s.1.groupHead v p a ≠ p) = _
      by_cases here : a = v <;> simp [here])
    b.arrsize (b, tail) p b.locs.toFinset (by simpa using notHeaded p)
    (fun a wanted => by
      simp only [decide_eq_true_eq] at wanted
      exact List.mem_toFinset.2 (shape.mem_locs (by rw [wanted.1]; exact stone.ne_wall)))
    b.card_locs_le
  refine ⟨l, run, filled.nodup, filled.mem_iff_chain (G := grid b.xSize) (c := b.board) (fun _ _ => Iff.rfl) ?_⟩
  intro a
  rw [decide_eq_true_eq]
  exact ⟨And.left, fun same => ⟨same, notHeaded a⟩⟩

theorem rebuildChain_spec (built : b.Built loc) (stone : (b.board p).IsStone) (fresh : b.groupHead p = 0) :
    ∃ b', b.rebuildChain (b.board p) p = some b' ∧ b'.Built loc ∧ Rebuilt b b' p := by
  have notHeaded := built.headless stone fresh
  have positive := built.shape.positive stone.ne_wall
  obtain ⟨b₀, zeroed⟩ : ∃ b₀, b₀ = b.zeroCounts p := ⟨_, rfl⟩
  have same₀ : SameRest b b₀ := by rw [zeroed]; exact ⟨rfl, rfl, rfl, rfl, rfl, rfl⟩
  have board₀ : b₀.board = b.board := by rw [zeroed]; rfl
  have heads₀ : b₀.groupHead = b.groupHead := by rw [zeroed]; rfl
  have shape₀ : b₀.Shape := same₀.shape built.shape fun q => by rw [board₀]
  obtain ⟨l, run, nodup, members⟩ := rebuildChainHelper_visits shape₀ (p := p) (by rw [heads₀]; exact notHeaded)
    (by rw [board₀]; exact stone) p
  have region : ∀ q, q ∈ p :: l ↔ q ∈ b.component p := by
    intro q
    rw [members q, component, component, board₀, same₀.xSize]
  have visited := visited_foldl (p :: l) nodup p shape₀ fun q _ => by rw [heads₀]; exact notHeaded q
  obtain ⟨nexts, prevs⟩ := foldl_rebuildVisit_links p (p :: l) b₀ p
  obtain ⟨s, filled⟩ : ∃ s, s = (p :: l).foldl (rebuildVisit p) (b₀, p) := ⟨_, rfl⟩
  rw [← filled] at run visited nexts prevs
  have form : b.rebuildChain (b.board p) p = some (s.1.closeRing p s.2) := by
    rw [rebuildChain, ← zeroed, ← board₀, run]
    rfl
  obtain ⟨b', closed⟩ : ∃ b', b' = s.1.closeRing p s.2 := ⟨_, rfl⟩
  rw [← closed] at form
  have board : b'.board = b.board := by
    rw [closed]
    exact visited.board.trans board₀
  have headsAt : ∀ q, b'.groupHead q = if q ∈ p :: l then p else b.groupHead q := by
    intro q
    rw [closed, ← heads₀]
    exact visited.groupHead q
  have sameRest : SameRest b b' := by
    rw [closed]
    exact (same₀.trans visited.toSameRest).trans ⟨rfl, rfl, rfl, rfl, rfl, rfl⟩
  have shape' : b'.Shape := sameRest.shape built.shape fun q => by rw [board]
  have here : p ∈ p :: l := by simp
  have ring : Ringed b'.groupNext b'.groupPrev (p :: l.reverse) := by
    have pushed := ringed_push b₀.groupNext b₀.groupPrev p nodup
    rw [← nexts, ← prevs] at pushed
    rw [closed]
    exact pushed
  have front : s.2 ∈ p :: l := by
    have forward := next_mem ring.forward (p := p) (by simp)
    have first : b'.groupNext p = s.2 := by
      rw [closed]
      exact Function.update_self ..
    rw [first] at forward
    simpa using forward
  have links : ∀ q, q ∉ p :: l → b'.groupNext q = b.groupNext q ∧ b'.groupPrev q = b.groupPrev q := by
    intro q outside
    have apart : q ≠ p := (ne_of_mem_of_not_mem here outside).symm
    have forward : s.1.groupNext q = b₀.groupNext q := by
      have same := congrFun (congrArg Prod.fst nexts) q
      exact same.trans (foldl_push_of_notMem outside)
    have backward : s.1.groupPrev q = b₀.groupPrev q := by
      have same := congrFun (congrArg Prod.fst prevs) q
      exact same.trans (foldl_pushPrev_of_notMem apart outside)
    rw [closed]
    refine ⟨(Function.update_of_ne apart ..).trans (forward.trans ?_),
      (Function.update_of_ne (ne_of_mem_of_not_mem front outside).symm ..).trans (backward.trans ?_)⟩
    · rw [zeroed]
      rfl
    · rw [zeroed]
      rfl
  have members' : ∀ q, b'.groupHead q = p ↔ q ∈ p :: l := by
    intro q
    rw [headsAt q]
    split_ifs with inside
    · exact iff_of_true rfl inside
    · exact iff_of_false (notHeaded q) inside
  have label : ∀ q, q ∈ p :: l → b.board q = b.board p := fun q inside => Chain.label ((region q).1 inside)
  -- The component had no heads, so no recorded group loses a stone to it.
  have headless : ∀ q, q ∈ p :: l → b.groupHead q = 0 := by
    intro q inside
    by_contra headed
    have path : Chain (grid b.xSize) b.board p q := (region q).1 inside
    have joined := (built.component q p (by rw [label q inside]; exact stone) headed).2 path.symm
    exact headed (joined.symm.trans fresh)
  have new : b'.Group p := by
    refine ⟨by rw [board]; exact stone, (members' p).2 here, fun q inside => ?_,
      ⟨p :: l.reverse, ⟨by simpa using nodup, fun q => ?_, ring⟩, ?_⟩, ?_⟩
    · rw [board, label q ((members' q).1 inside)]
    · rw [members' q]
      simp
    · have zero : b₀.groupStoneCount p = 0 := by rw [zeroed]; exact Function.update_self ..
      rw [closed]
      refine (visited.groupStoneCount p).trans ?_
      rw [zero, zero_add, if_pos rfl, List.length_cons, List.length_cons, List.length_reverse]
    · have zero : b₀.groupLibertyCount p = 0 := by rw [zeroed]; exact Function.update_self ..
      have none : b₀.libs p = ∅ := by
        refine Finset.eq_empty_of_forall_notMem fun e free => ?_
        obtain ⟨-, q, -, inside⟩ := (mem_libs shape₀).1 free
        rw [heads₀] at inside
        exact notHeaded q inside
      have same : b'.libs p = s.1.libs p := by
        rw [closed]
        rfl
      rw [same, closed]
      refine (visited.groupLibertyCount p).trans ?_
      rw [zero, none, if_pos rfl, Finset.card_empty]
      push_cast
      ring
  have oldMembers : ∀ g, g ≠ p → g ≠ 0 → ∀ q, b'.groupHead q = g ↔ b.groupHead q = g := by
    intro g other real q
    rw [headsAt q]
    split_ifs with inside
    · exact iff_of_false (fun same => other same.symm) fun same => real (same.symm.trans (headless q inside))
    · exact Iff.rfl
  have outside : ∀ q, b.board q = .empty → q ∉ p :: l := by
    intro q blank inside
    have isStone := stone
    rw [← label q inside, blank] at isStone
    exact isStone.ne_empty rfl
  refine ⟨b', form, ⟨shape', fun q blank => ?_, fun q blank other => ?_, fun q wall => ?_, fun q isStone headed => ?_,
    fun q x isStone headed => ?_⟩, ⟨sameRest, board, ?_, fun q inside => ?_, fun q absent => ?_⟩⟩
  · rw [board] at blank
    rw [headsAt q, if_neg (outside q blank), built.unheaded q blank]
  · rw [board] at blank
    have vacant := built.vacant q blank other
    obtain ⟨next, prev⟩ := links q (outside q blank)
    exact ⟨by rw [headsAt q, if_neg (outside q blank), vacant.head], next.trans vacant.next, prev.trans vacant.prev⟩
  · rw [board] at wall
    have absent : q ∉ p :: l := by
      intro inside
      have isStone := stone
      rw [← label q inside, wall] at isStone
      exact isStone.ne_wall rfl
    rw [headsAt q, if_neg absent]
    exact built.wall q wall
  · rw [board] at isStone
    by_cases inside : q ∈ p :: l
    · rw [(members' q).2 inside]
      exact new
    · rw [headsAt q, if_neg inside] at headed ⊢
      have group := built.group q isStone headed
      have other := notHeaded q
      have apart : ∀ x, b.groupHead x = b.groupHead q → x ∉ p :: l := fun x same found =>
        headed (same.symm.trans (headless x found))
      refine group.frame (oldMembers _ other headed) (fun _ _ => by rw [board])
        (fun x same => (links x (apart x same)).1) (fun x same => (links x (apart x same)).2) ?_ ?_
      · rw [closed]
        refine (visited.groupStoneCount _).trans ?_
        rw [if_neg other, add_zero, zeroed]
        exact Function.update_of_ne other ..
      · have count : b'.groupLibertyCount (b.groupHead q) = b.groupLibertyCount (b.groupHead q) := by
          rw [closed]
          refine (visited.groupLibertyCount _).trans ?_
          rw [if_neg other, add_zero, zeroed]
          exact Function.update_of_ne other ..
        rw [count, group.liberties,
          libs_congr sameRest (fun e => by rw [board]) (oldMembers _ other headed)]
  · rw [board] at isStone
    rw [board, sameRest.xSize]
    by_cases inside : q ∈ p :: l
    · have path : Chain (grid b.xSize) b.board p q := (region q).1 inside
      rw [(members' q).2 inside, members' x, region x]
      exact ⟨fun chain => path.symm.trans chain, fun chain => path.trans chain⟩
    · rw [headsAt q, if_neg inside] at headed ⊢
      rw [oldMembers _ (notHeaded q) headed x]
      exact built.component q x isStone headed
  · rw [closed]
    refine visited.zobrist.trans ?_
    rw [zeroed]
    rfl
  · exact (members' q).2 ((region q).2 inside)
  · rw [headsAt q, if_neg fun inside => absent ((region q).1 inside)]

end Board
end KataGo.Python
