import KataGo.Python.Move

/-! Filling an empty region with stones, which is how `undo` puts captured groups back. It
goes by nothing more than that the region is empty and that no stone of the colour it
is filled with stands next to it. -/

namespace KataGo.Python
open KataGo.Lib CircularList Flood Labelling
open KataGo.Game (Color Player getOpp Loc grid adjs_symm)

namespace Board

variable [ZobristStone] {b b' : Board} {h p q e v tail : Loc} {k : Color}

/-- The points `done` have been filled with `k` under the head `h`. -/
structure Filling (b : Board) (h : Loc) (k : Color) (done : List Loc) : Prop where
  shape : b.Shape
  vacant : ∀ p, b.board p = .empty → b.Vacant p
  wall : ∀ p, b.board p = .wall → b.groupHead p ≤ 0
  positive : 0 < h
  members : ∀ q, b.groupHead q = h ↔ q ∈ done
  colour : ∀ q ∈ done, b.board q = k
  others : ∀ p, (b.board p).IsStone → b.groupHead p ≠ h → b.Group (b.groupHead p)

/-- The board of one visit, before the counters around it go down. -/
def fillPoint (b : Board) (h v tail : Loc) (k : Color) : Board :=
  { b with
    board := Function.update b.board v k
    zobrist := b.zobrist ^^^ ZobristStone.key k v
    groupHead := Function.update b.groupHead v h
    groupStoneCount := Function.update b.groupStoneCount h (b.groupStoneCount h + 1)
    groupNext := Function.update b.groupNext v tail
    groupPrev := Function.update b.groupPrev tail v }

theorem floodFillVisit_eq (b : Board) (h v tail : Loc) (k : Color) :
    floodFillVisit h k (b, tail) v = ({ b.fillPoint h v tail k with
      groupLibertyCount :=
        ((b.fillPoint h v tail k).changeLiberties (· = getOpp k) v (-1)).groupLibertyCount }, v) := by
  have frame := changeLiberties_frame (b.fillPoint h v tail k) (· = getOpp k) v (-1)
  rw [← frame]
  rfl

omit [ZobristStone] in
theorem Filling.ne_empty {done : List Loc} (filling : Filling b h k done) (player : k.IsStone) (inside : q ∈ done) :
    b.board q ≠ .empty := by
  rw [filling.colour q inside]
  exact player.ne_empty

theorem Filling.uniform_fillPoint {done : List Loc} (filling : Filling b h k done) :
    (b.fillPoint h v tail k).Uniform := by
  intro p q stone same
  change Function.update b.groupHead v h q = Function.update b.groupHead v h p at same
  change (Function.update b.board v k p).IsStone at stone
  change Function.update b.board v k q = Function.update b.board v k p
  have inNew : ∀ x, Function.update b.groupHead v h x = h → Function.update b.board v k x = k := by
    intro x head
    by_cases here : x = v
    · rw [here, Function.update_self]
    · rw [Function.update_of_ne here] at head ⊢
      exact filling.colour x ((filling.members x).1 head)
  by_cases head : Function.update b.groupHead v h p = h
  · rw [inNew p head, inNew q (same.trans head)]
  · have apartP : p ≠ v := fun here => head (by rw [here, Function.update_self])
    have apartQ : q ≠ v := fun here => head (by rw [← same, here, Function.update_self])
    rw [Function.update_of_ne apartP] at head stone same
    rw [Function.update_of_ne apartQ] at same
    rw [Function.update_of_ne apartP, Function.update_of_ne apartQ]
    have group := filling.others p stone head
    rw [group.colour q same, group.colour p rfl]

/-- What one visit preserves, at a point with no stone of colour `k` outside the fill next to it. -/
theorem Filling.visit {done : List Loc} (filling : Filling b h k done) (player : k.IsStone)
    (blank : b.board v = .empty) (border : ∀ a ∈ b.adj v, b.groupHead a ≠ h → b.board a ≠ k)
    (back : tail = v ∨ tail ∈ done) :
    Filling (floodFillVisit h k (b, tail) v).1 h k (v :: done) ∧
      SameRest b (floodFillVisit h k (b, tail) v).1 ∧
      (floodFillVisit h k (b, tail) v).1.groupLibertyCount h = b.groupLibertyCount h := by
  have point : b.board v ≠ .wall := by rw [blank]; decide
  have uniform : (b.fillPoint h v tail k).Uniform := filling.uniform_fillPoint
  have touched : ∀ g, (∃ a ∈ (b.fillPoint h v tail k).adj v,
      (b.fillPoint h v tail k).board a = getOpp k ∧ (b.fillPoint h v tail k).groupHead a = g) ↔
        ∃ a ∈ b.adj v, b.board a = getOpp k ∧ b.groupHead a = g := by
    intro g
    refine exists_congr fun a => and_congr_right fun adjacent => ?_
    have other : a ≠ v := ne_of_mem_adj (b := b) adjacent
    change Function.update b.board v k a = getOpp k ∧ Function.update b.groupHead v h a = g ↔ _
    rw [Function.update_of_ne other, Function.update_of_ne other]
  have counted : ∀ g, (floodFillVisit h k (b, tail) v).1.groupLibertyCount g = b.groupLibertyCount g +
      if ∃ a ∈ b.adj v, b.board a = getOpp k ∧ b.groupHead a = g then -1 else 0 := by
    intro g
    have count := changeLiberties_count_of uniform player.opp v (-1) g
    simp only [touched] at count
    exact count
  obtain ⟨b₁, result⟩ : ∃ b₁, b₁ = (floodFillVisit h k (b, tail) v).1 := ⟨_, rfl⟩
  have form : b₁ = { b.fillPoint h v tail k with groupLibertyCount := b₁.groupLibertyCount } := by
    rw [result, floodFillVisit_eq]
  rw [← result] at counted ⊢
  have same : SameRest b b₁ := by rw [form]; exact ⟨rfl, rfl, rfl, rfl, rfl, rfl⟩
  have board : b₁.board = Function.update b.board v k := by rw [form]; rfl
  have heads : b₁.groupHead = Function.update b.groupHead v h := by rw [form]; rfl
  have nexts : b₁.groupNext = Function.update b.groupNext v tail := by rw [form]; rfl
  have prevs : b₁.groupPrev = Function.update b.groupPrev tail v := by rw [form]; rfl
  have counts : b₁.groupStoneCount = Function.update b.groupStoneCount h (b.groupStoneCount h + 1) := by
    rw [form]
    rfl
  have shape' := same.shape filling.shape (walls_update point player.ne_wall board)
  have fresh : v ∉ done := fun inside => filling.ne_empty player inside blank
  -- The points whose links are written carry the head `h` or become stones.
  have untouched : ∀ q, q ≠ v → q ∉ done → q ≠ tail := by
    rintro q other outside rfl
    exact back.elim other outside
  refine ⟨⟨shape', ?_, ?_, filling.positive, ?_, ?_, ?_⟩, same, ?_⟩
  · intro q free
    have other : q ≠ v := by
      rintro rfl
      rw [board, Function.update_self] at free
      exact player.ne_empty free
    rw [board, Function.update_of_ne other] at free
    have vacant := filling.vacant q free
    have outside : q ∉ done := fun inside => filling.ne_empty player inside free
    exact ⟨by rw [heads, Function.update_of_ne other, vacant.head],
      by rw [nexts, Function.update_of_ne other, vacant.next],
      by rw [prevs, Function.update_of_ne (untouched q other outside), vacant.prev]⟩
  · intro q wall
    rw [walls_update point player.ne_wall board] at wall
    have other : q ≠ v := by
      rintro rfl
      exact point wall
    rw [heads, Function.update_of_ne other]
    exact filling.wall q wall
  · intro q
    rw [heads, List.mem_cons]
    by_cases here : q = v
    · rw [here, Function.update_self]
      exact iff_of_true rfl (Or.inl rfl)
    · rw [Function.update_of_ne here, filling.members q]
      exact (or_iff_right here).symm
  · intro q inside
    rw [board]
    rcases List.mem_cons.1 inside with rfl | before
    · exact Function.update_self ..
    · rw [Function.update_of_ne (ne_of_mem_of_not_mem before fresh)]
      exact filling.colour q before
  · intro q stone outside
    have other : q ≠ v := fun here => outside (by rw [heads, here, Function.update_self])
    rw [board, Function.update_of_ne other] at stone
    rw [heads, Function.update_of_ne other] at outside ⊢
    have group := filling.others q stone outside
    obtain ⟨g, headEq⟩ : ∃ g, g = b.groupHead q := ⟨_, rfl⟩
    rw [← headEq] at outside group ⊢
    have apart : ∀ x, b.groupHead x = g → x ≠ v ∧ x ∉ done := by
      intro x inside
      refine ⟨?_, fun found => outside (inside.symm.trans ((filling.members x).2 found))⟩
      rintro rfl
      exact (group.stones inside).ne_empty blank
    have members : ∀ x, b₁.groupHead x = g ↔ b.groupHead x = g := by
      intro x
      rw [heads]
      by_cases here : x = v
      · rw [here, Function.update_self]
        exact iff_of_false (fun equal => outside equal.symm) fun inside => (apart v inside).1 rfl
      · rw [Function.update_of_ne here]
    refine group.frame members (fun x inside => by rw [board, Function.update_of_ne (apart x inside).1])
      (fun x inside => by rw [nexts, Function.update_of_ne (apart x inside).1])
      (fun x inside => by
        rw [prevs, Function.update_of_ne (untouched x (apart x inside).1 (apart x inside).2)])
      (by rw [counts, Function.update_of_ne outside]) ?_
    have opposing : (∃ a ∈ b.adj v, b.board a = getOpp k ∧ b.groupHead a = g) ↔ ∃ a ∈ b.adj v, b.groupHead a = g := by
      refine exists_congr fun a => and_congr_right fun adjacent => and_iff_right_of_imp fun inside => ?_
      refine (player.eq_or_eq_opp (group.stones inside)).resolve_left (border a adjacent ?_)
      rw [inside]
      exact outside
    have blanked := card_libs_of_blanked (h := g) shape' same.symm
      (show b₁.board v ≠ .empty by rw [board, Function.update_self]; exact player.ne_empty)
      (by rw [board, Function.update_self]; exact player.ne_wall)
      (by rw [board, Function.update_idem, ← blank, Function.update_eq_self]) (fun x => (members x).symm)
    rw [counted, group.liberties, blanked, same.adj]
    simp only [opposing, members]
    split_ifs <;> ring
  · rw [counted, if_neg, add_zero]
    rintro ⟨a, -, opposite, inside⟩
    rw [filling.colour a ((filling.members a).1 inside)] at opposite
    exact player.opp_ne opposite.symm

theorem Filling.foldl (player : k.IsStone) (l : List Loc) (nodup : l.Nodup) (tail : Loc) {done : List Loc} {b : Board}
    (filling : Filling b h k done) (blank : ∀ v ∈ l, b.board v = .empty)
    (border : ∀ v ∈ l, ∀ a ∈ b.adj v, b.groupHead a ≠ h → b.board a ≠ k)
    (back : ∀ v ∈ l.head?, tail = v ∨ tail ∈ done) :
    Filling (l.foldl (floodFillVisit h k) (b, tail)).1 h k (l.reverse ++ done) ∧
      SameRest b (l.foldl (floodFillVisit h k) (b, tail)).1 ∧
      (l.foldl (floodFillVisit h k) (b, tail)).1.groupLibertyCount h = b.groupLibertyCount h := by
  induction l generalizing done b tail with
  | nil => exact ⟨by simpa using filling, SameRest.refl b, rfl⟩
  | cons v l ih =>
    obtain ⟨fresh, rest⟩ := List.nodup_cons.1 nodup
    obtain ⟨next, same, kept⟩ := filling.visit player (blank v (by simp)) (border v (by simp))
      (back v (by simp))
    have board : (floodFillVisit h k (b, tail) v).1.board = Function.update b.board v k := by
      rw [floodFillVisit_eq]
      rfl
    have heads : (floodFillVisit h k (b, tail) v).1.groupHead = Function.update b.groupHead v h := by
      rw [floodFillVisit_eq]
      rfl
    have second : (floodFillVisit h k (b, tail) v).2 = v := rfl
    rw [List.foldl_cons, ← Prod.mk.eta (p := floodFillVisit h k (b, tail) v), second]
    obtain ⟨final, sameRest, count⟩ := ih rest v next
      (fun x inside => by
        rw [board, Function.update_of_ne (ne_of_mem_of_not_mem inside fresh)]
        exact blank x (by simp [inside]))
      (fun x inside a adjacent outside => by
        have other : a ≠ v := fun here => outside (by rw [heads, here, Function.update_self])
        rw [same.adj] at adjacent
        rw [heads, Function.update_of_ne other] at outside
        rw [board, Function.update_of_ne other]
        exact border x (by simp [inside]) a adjacent outside)
      (fun _ _ => Or.inr (List.mem_cons_self : v ∈ v :: done))
    exact ⟨by simpa using final, same.trans sameRest, count.trans kept⟩

/-- What the visits do to the arrays that they write unconditionally. -/
theorem foldl_floodFillVisit (h : Loc) (k : Color) (l : List Loc) (b : Board) (tail : Loc) :
    (∀ q, (l.foldl (floodFillVisit h k) (b, tail)).1.board q = if q ∈ l then k else b.board q) ∧
      (∀ q, (l.foldl (floodFillVisit h k) (b, tail)).1.groupHead q = if q ∈ l then h else b.groupHead q) ∧
      (l.foldl (floodFillVisit h k) (b, tail)).1.groupStoneCount h = b.groupStoneCount h + l.length ∧
      ((l.foldl (floodFillVisit h k) (b, tail)).1.groupNext, (l.foldl (floodFillVisit h k) (b, tail)).2) =
        l.foldl push (b.groupNext, tail) ∧
      ((l.foldl (floodFillVisit h k) (b, tail)).1.groupPrev, (l.foldl (floodFillVisit h k) (b, tail)).2) =
        l.foldl pushPrev (b.groupPrev, tail) := by
  induction l generalizing b tail with
  | nil => exact ⟨by simp, by simp, by simp, rfl, rfl⟩
  | cons v l ih =>
    rw [List.foldl_cons, List.foldl_cons, List.foldl_cons, floodFillVisit_eq]
    obtain ⟨board, heads, count, nexts, prevs⟩ := ih { b.fillPoint h v tail k with
      groupLibertyCount := ((b.fillPoint h v tail k).changeLiberties (· = getOpp k) v (-1)).groupLibertyCount } v
    refine ⟨fun q => ?_, fun q => ?_, ?_, nexts, prevs⟩
    · rw [board q]
      change (if q ∈ l then k else Function.update b.board v k q) = _
      by_cases inside : q ∈ l
      · simp [inside]
      · by_cases here : q = v <;> simp [inside, here]
    · rw [heads q]
      change (if q ∈ l then h else Function.update b.groupHead v h q) = _
      by_cases inside : q ∈ l
      · simp [inside]
      · by_cases here : q = v <;> simp [inside, here]
    · rw [count]
      change Function.update b.groupStoneCount h (b.groupStoneCount h + 1) h + _ = _
      rw [Function.update_self, List.length_cons]
      push_cast
      ring

/-- The fill visits the empty region of its start. -/
theorem floodFillStonesHelper_visits (shape : b.Shape) (player : k.IsStone) (blank : b.board p = .empty) (tail : Loc) :
    ∃ l, b.floodFillStonesHelper p tail p k = some ((p :: l).foldl (floodFillVisit p k) (b, tail)) ∧
      (p :: l).Nodup ∧ ∀ q, q ∈ p :: l ↔ q ∈ b.component p := by
  obtain ⟨l, run, filled⟩ := flood_spec b.adj (fun (s : Board × Loc) a => decide (s.1.board a = .empty))
    (floodFillVisit p k)
    (fun s v a => by
      rw [← Prod.mk.eta (p := s), floodFillVisit_eq]
      change decide (Function.update s.1.board v k a = .empty) = _
      by_cases here : a = v <;> simp [here, player.ne_empty])
    b.arrsize (b, tail) p b.locs.toFinset (by simpa using blank)
    (fun a wanted => by
      simp only [decide_eq_true_eq] at wanted
      exact List.mem_toFinset.2 (shape.mem_locs (by rw [wanted]; decide)))
    b.card_locs_le
  refine ⟨l, run, filled.nodup, filled.mem_iff_chain (G := grid b.xSize) (c := b.board) (fun _ _ => Iff.rfl) ?_⟩
  intro a
  rw [decide_eq_true_eq, blank]

/-- `b'` is `b` with the empty region of `p` filled with `k`. -/
structure Refilled (b b' : Board) (p : Loc) (k : Color) : Prop extends SameRest b b' where
  filled : ∀ q, q ∈ b.component p → b'.board q = k
  kept : ∀ q, q ∉ b.component p → b'.board q = b.board q

/-- Filling the region of `p` with a colour that does not border on it makes it one group
without liberties, and takes its points from the liberties of the groups around it. -/
theorem floodFillStones_spec (regular : b.Regular) (player : k.IsStone) (blank : b.board p = .empty)
    (border : ∀ q, q ∈ b.component p → ∀ a ∈ b.adj q, b.board a ≠ k) :
    ∃ b', b.floodFillStones k p = some b' ∧ b'.Regular ∧ Refilled b b' p k := by
  have booked := regular.booked
  have noHead := booked.head_ne blank
  have positive := booked.shape.positive (p := p) (by rw [blank]; decide)
  obtain ⟨b₀, zeroed⟩ : ∃ b₀, b₀ = b.zeroCounts p := ⟨_, rfl⟩
  have same₀ : SameRest b b₀ := by rw [zeroed]; exact ⟨rfl, rfl, rfl, rfl, rfl, rfl⟩
  have board₀ : b₀.board = b.board := by rw [zeroed]; rfl
  have heads₀ : b₀.groupHead = b.groupHead := by rw [zeroed]; rfl
  have shape₀ : b₀.Shape := same₀.shape booked.shape fun q => by rw [board₀]
  have start : Filling b₀ p k [] := by
    refine ⟨shape₀, fun q free => ?_, fun q wall => ?_, positive, fun q => ?_, by simp, fun q stone other => ?_⟩
    · have vacant := booked.vacant q (by rw [← board₀, free])
      rw [zeroed]
      exact ⟨vacant.head, vacant.next, vacant.prev⟩
    · rw [heads₀]
      exact booked.wall q (by rw [← board₀, wall])
    · rw [heads₀]
      simpa using noHead q
    · rw [heads₀] at other ⊢
      rw [board₀] at stone
      have group := booked.group q stone
      rw [zeroed]
      exact group.frame (fun _ => Iff.rfl) (fun _ _ => rfl) (fun _ _ => rfl) (fun _ _ => rfl)
        (Function.update_of_ne other ..) ((Function.update_of_ne other ..).trans group.liberties)
  have component₀ : ∀ q, q ∈ b₀.component p ↔ q ∈ b.component p := by
    intro q
    rw [component, component, board₀, same₀.xSize]
  obtain ⟨l, run, nodup, members⟩ := floodFillStonesHelper_visits shape₀ player (p := p) (by rw [board₀, blank]) p
  have region : ∀ q, q ∈ p :: l ↔ q ∈ b.component p := fun q => (members q).trans (component₀ q)
  have empties : ∀ q, q ∈ p :: l → b.board q = .empty := fun q inside =>
    (Chain.label ((region q).1 inside)).trans blank
  obtain ⟨final, same, liberties⟩ := start.foldl player (p :: l) nodup p
    (fun q inside => by rw [board₀]; exact empties q inside)
    (fun q inside a adjacent _ => by
      rw [same₀.adj] at adjacent
      rw [board₀]
      exact border q ((region q).1 inside) a adjacent)
    (fun v first => Or.inl (by simpa using first))
  obtain ⟨board, heads, count, nexts, prevs⟩ := foldl_floodFillVisit p k (p :: l) b₀ p
  obtain ⟨s, filled⟩ : ∃ s, s = (p :: l).foldl (floodFillVisit p k) (b₀, p) := ⟨_, rfl⟩
  rw [← filled] at run final same liberties board heads count nexts prevs
  have form : b.floodFillStones k p = some (s.1.closeRing p s.2) := by
    rw [floodFillStones, ← zeroed, run]
    rfl
  obtain ⟨b', closed⟩ : ∃ b', b' = s.1.closeRing p s.2 := ⟨_, rfl⟩
  rw [← closed] at form
  have colours : ∀ q, b'.board q = if q ∈ p :: l then k else b.board q := by
    intro q
    rw [closed, ← board₀]
    exact board q
  have headsAt : ∀ q, b'.groupHead q = if q ∈ p :: l then p else b.groupHead q := by
    intro q
    rw [closed, ← heads₀]
    exact heads q
  have sameRest : SameRest b b' := by
    rw [closed]
    exact (same₀.trans same).trans ⟨rfl, rfl, rfl, rfl, rfl, rfl⟩
  have shape' : b'.Shape := by
    rw [closed]
    exact ⟨final.shape.wide, final.shape.high, final.shape.wall_iff⟩
  have here : p ∈ p :: l := by simp
  have ring : Ringed b'.groupNext b'.groupPrev (p :: l.reverse) := by
    have pushed := ringed_push b₀.groupNext b₀.groupPrev p nodup
    rw [← nexts, ← prevs] at pushed
    rw [closed]
    exact pushed
  have front : s.2 ∈ p :: l := by
    have forward := next_mem ring.forward (p := p) (by simp)
    have first : b'.groupNext p = s.2 := by
      rw [closed]
      exact Function.update_self ..
    rw [first] at forward
    simpa using forward
  -- Closing the ring writes links of filled points only.
  have links : ∀ q, q ∉ p :: l → b'.groupNext q = s.1.groupNext q ∧ b'.groupPrev q = s.1.groupPrev q := by
    intro q outside
    rw [closed]
    exact ⟨Function.update_of_ne (ne_of_mem_of_not_mem here outside).symm ..,
      Function.update_of_ne (ne_of_mem_of_not_mem front outside).symm ..⟩
  have members' : ∀ q, b'.groupHead q = p ↔ q ∈ p :: l := by
    intro q
    rw [headsAt q]
    split_ifs with inside
    · exact iff_of_true rfl inside
    · exact iff_of_false (noHead q) inside
  have noLibs : b'.libs p = ∅ := by
    refine Finset.eq_empty_of_forall_notMem fun e free => ?_
    obtain ⟨empty, x, adjacent, found⟩ := (Board.mem_libs shape').1 free
    have outside : e ∉ p :: l := by
      intro inside
      rw [colours e, if_pos inside] at empty
      exact player.ne_empty empty
    rw [colours e, if_neg outside] at empty
    rw [sameRest.adj] at adjacent
    have path : Chain (grid b.xSize) b.board p x := (region x).1 ((members' x).1 found)
    refine outside ((region e).2 (path.trans (Chain.single (adjs_symm adjacent) ?_)))
    rw [empty, path.label, blank]
  have new : b'.Group p := by
    refine ⟨by rw [colours p, if_pos here]; exact player, (members' p).2 here, fun q inside => ?_,
      ⟨p :: l.reverse, ⟨by simpa using nodup, fun q => ?_, ring⟩, ?_⟩, ?_⟩
    · rw [colours q, colours p, if_pos ((members' q).1 inside), if_pos here]
    · rw [members' q]
      simp
    · have zero : b₀.groupStoneCount p = 0 := by rw [zeroed]; exact Function.update_self ..
      rw [closed]
      refine count.trans ?_
      rw [zero, zero_add, List.length_cons, List.length_cons, List.length_reverse]
    · have zero : b₀.groupLibertyCount p = 0 := by rw [zeroed]; exact Function.update_self ..
      rw [noLibs, closed]
      exact liberties.trans zero
  have kept : ∀ q, (b.board q).IsStone → q ∉ p :: l := by
    intro q stone inside
    rw [empties q inside] at stone
    exact stone.ne_empty rfl
  refine ⟨b', form, Booked.regular ⟨shape', fun q free => ?_, fun q wall => ?_, fun q stone => ?_⟩ ?_ ?_, ?_⟩
  · have outside : q ∉ p :: l := by
      intro inside
      rw [colours q, if_pos inside] at free
      exact player.ne_empty free
    have vacant := final.vacant q (by rw [closed] at free; exact free)
    obtain ⟨next, prev⟩ := links q outside
    exact ⟨by rw [closed]; exact vacant.head, next.trans vacant.next, prev.trans vacant.prev⟩
  · rw [closed] at wall ⊢
    exact final.wall q wall
  · by_cases inside : q ∈ p :: l
    · rw [(members' q).2 inside]
      exact new
    · rw [headsAt q, if_neg inside]
      have before : s.1.groupHead q = b.groupHead q := by rw [heads q, if_neg inside, heads₀]
      have other : b.groupHead q ≠ p := noHead q
      have group := final.others q (by rw [closed] at stone; exact stone) (by rw [before]; exact other)
      rw [before] at group
      have outside : ∀ x, s.1.groupHead x = b.groupHead q → x ∉ p :: l := by
        intro x equal found
        rw [heads x, if_pos found] at equal
        exact other equal.symm
      refine group.frame (fun _ => by rw [closed]; rfl) (fun _ _ => by rw [closed]; rfl)
        (fun x equal => (links x (outside x equal)).1) (fun x equal => (links x (outside x equal)).2)
        (by rw [closed]; rfl) ?_
      rw [closed]
      exact group.liberties
  · intro q x stone equal
    rw [sameRest.xSize]
    rw [headsAt q, headsAt x] at equal
    split_ifs at equal with insideX insideQ insideQ
    · have inRegion : ∀ y, y ∈ p :: l → Chain (grid b.xSize) b'.board p y := by
        intro y member
        have path : Chain (grid b.xSize) b.board p y := (region y).1 member
        refine (Chain.mem_of_closed (S := fun y => y ∈ p :: l ∧ Chain (grid b.xSize) b'.board p y)
          ⟨here, Chain.refl p⟩ ?_ path).2
        rintro z a ⟨inside, chain⟩ adjacent label
        have insideA : a ∈ p :: l := (region a).2 (Chain.trans ((region z).1 inside) (Chain.single adjacent label))
        refine ⟨insideA, chain.trans (Chain.single adjacent ?_)⟩
        rw [colours a, colours z, if_pos insideA, if_pos inside]
      exact (inRegion q insideQ).symm.trans (inRegion x insideX)
    · exact absurd equal.symm (noHead q)
    · exact absurd equal (noHead x)
    · rw [colours q, if_neg insideQ] at stone
      have path := (regular.component q x stone).1 equal
      refine path.relabel fun y along => ?_
      rw [colours y, if_neg]
      refine kept y ?_
      rw [along.label]
      exact stone
  · intro q x stone adjacent equal
    rw [sameRest.adj] at adjacent
    rw [colours q, colours x] at equal
    rw [colours q] at stone
    rw [headsAt q, headsAt x]
    split_ifs at equal stone ⊢ with insideX insideQ insideQ
    · rfl
    · exact absurd equal.symm (border x ((region x).1 insideX) q (adjs_symm adjacent))
    · exact absurd equal (border q ((region q).1 insideQ) x adjacent)
    · exact regular.head_eq stone adjacent equal
  · exact ⟨sameRest, fun q inside => by rw [colours q, if_pos ((region q).2 inside)],
      fun q outside => by rw [colours q, if_neg fun inside => outside ((region q).1 inside)]⟩

end Board
end KataGo.Python
