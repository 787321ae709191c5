import KataGo.Python.GroupOps

/-! A stone added to the board. `add_unsafe` works in phases: the stone is put down, the
friendly groups around it are merged, the opponent's groups without liberties are taken
off, and then the own one. Between the phases the groups are the components of the
colours, so the result is the one that the rules of the game give. -/

namespace KataGo.Python
open KataGo.Lib CircularList Labelling
open KataGo.Game (Color Player getOpp Loc grid adjs_symm grid_adj)
open KataGo.Game.Board (DeadBy deadBy_snoc taken KoPoint)

namespace Board

variable {b b' b₁ : Board} {g h p q e loc a : Loc} {pla k : Color}

/-- The stones of the group of `p`, from the colours alone. -/
def component (b : Board) (p : Loc) : Set Loc := {q | Chain (grid b.xSize) b.board p q}

/-- The liberties of the group of `p`, from the colours alone. -/
def liberties (b : Board) (p : Loc) : Set Loc := {e | Liberty (grid b.xSize) .empty b.board p e}

/-- Every stone's group has a liberty. -/
def AllAlive (b : Board) : Prop := ∀ p, (b.board p).IsStone → ∃ e, e ∈ b.liberties p

/-- The colours alone, as a board of the C++ engine. -/
def position (b : Board) : KataGo.Game.Board where
  xSize := b.xSize
  ySize := b.ySize
  colors := b.board
  chainData := fun _ => ⟨.empty, 0, 0⟩
  chainHead := fun _ => 0
  nextInChain := fun _ => 0
  koLoc := 0
  posHash := 0
  numBlackCaptures := 0
  numWhiteCaptures := 0

section Regular

/-- Groups that are connected, and to which no equal neighbour is missing, are components. -/
theorem Booked.regular (booked : b.Booked)
    (connected : ∀ p q, (b.board p).IsStone → b.groupHead q = b.groupHead p → Chain (grid b.xSize) b.board p q)
    (closed : ∀ p q, (b.board p).IsStone → q ∈ b.adj p → b.board q = b.board p →
      b.groupHead q = b.groupHead p) : b.Regular := by
  refine ⟨booked, fun p q stone => ⟨connected p q stone, fun path => ?_⟩⟩
  refine (Chain.mem_of_closed (S := fun q => (b.board q).IsStone ∧ b.groupHead q = b.groupHead p) ⟨stone, rfl⟩
    ?_ path).2
  rintro x y ⟨isStone, same⟩ adjacent equal
  exact ⟨by rw [equal]; exact isStone, (closed x y isStone adjacent equal).trans same⟩

theorem Regular.mem_libs (regular : b.Regular) (stone : (b.board p).IsStone) :
    e ∈ b.libs (b.groupHead p) ↔ e ∈ b.liberties p := by
  rw [Board.mem_libs regular.booked.shape]
  refine and_congr_right fun _ => exists_congr fun q => ?_
  rw [regular.component p q stone, and_comm, grid_adj]
  exact and_congr_right fun _ => ⟨adjs_symm, adjs_symm⟩

theorem Regular.libertyCount (regular : b.Regular) (stone : (b.board p).IsStone) :
    b.libertyCount p = (b.liberties p).ncard := by
  have same : (b.libs (b.groupHead p) : Set Loc) = b.liberties p := by
    ext e
    exact regular.mem_libs stone
  rw [Board.libertyCount, (regular.booked.group p stone).liberties, ← same, Set.ncard_coe_finset]

theorem Regular.liberties_finite (regular : b.Regular) (stone : (b.board p).IsStone) : (b.liberties p).Finite := by
  refine Set.Finite.subset (Finset.finite_toSet (b.libs (b.groupHead p))) fun e free => ?_
  exact Finset.mem_coe.2 ((regular.mem_libs stone).2 free)

theorem Regular.libertyCount_eq_zero_iff (regular : b.Regular) (stone : (b.board p).IsStone) :
    b.libertyCount p = 0 ↔ ¬ ∃ e, e ∈ b.liberties p := by
  rw [regular.libertyCount stone, Nat.cast_eq_zero, Set.ncard_eq_zero (regular.liberties_finite stone),
    Set.eq_empty_iff_forall_notMem, not_exists]

theorem Regular.stoneCount (regular : b.Regular) (stone : (b.board p).IsStone) :
    b.stoneCount p = (b.component p).ncard := by
  obtain ⟨l, ring, size⟩ := (regular.booked.group p stone).ring
  have same : b.component p = (l.toFinset : Set Loc) := by
    ext q
    rw [Finset.mem_coe, List.mem_toFinset, ring.mem q, regular.component p q stone]
    rfl
  rw [Board.stoneCount, size, same, Set.ncard_coe_finset, List.toFinset_card_of_nodup ring.nodup]

/-- Everything the bookkeeping speaks about is shared. -/
theorem Regular.congr (regular : b.Regular) (xSize : b'.xSize = b.xSize) (ySize : b'.ySize = b.ySize)
    (board : b'.board = b.board) (heads : b'.groupHead = b.groupHead)
    (counts : b'.groupStoneCount = b.groupStoneCount) (libertyCounts : b'.groupLibertyCount = b.groupLibertyCount)
    (nexts : b'.groupNext = b.groupNext) (prevs : b'.groupPrev = b.groupPrev) : b'.Regular := by
  have booked := regular.booked
  have libs : ∀ h, b'.libs h = b.libs h := by
    intro h
    unfold libs locs adj
    rw [xSize, ySize, board, heads]
  refine ⟨⟨booked.shape.recolor xSize ySize fun p => by rw [board], fun p blank => ?_, fun p wall => ?_,
    fun p stone => ?_⟩, fun p q stone => ?_⟩
  · rw [board] at blank
    have vacant := booked.vacant p blank
    exact ⟨by rw [heads, vacant.head], by rw [nexts, vacant.next], by rw [prevs, vacant.prev]⟩
  · rw [heads]
    exact booked.wall p (by rw [← board, wall])
  · rw [board] at stone
    rw [heads]
    have group := booked.group p stone
    exact group.frame (fun q => by rw [heads]) (fun q _ => by rw [board]) (fun q _ => by rw [nexts])
      (fun q _ => by rw [prevs]) (by rw [counts]) (by rw [libertyCounts, libs, group.liberties])
  · rw [board] at stone
    rw [heads, regular.component p q stone, board, xSize]

end Regular

section Remove

variable [ZobristStone]

/-- A component taken off a board of components leaves a board of components. -/
theorem Regular.removeUnsafe (regular : b.Regular) (stone : (b.board p).IsStone) :
    ∃ b', b.removeUnsafe p = some b' ∧ b'.Regular ∧ SameRest b b' ∧
      (∀ q, q ∈ b.component p → b'.board q = .empty) ∧ ∀ q, q ∉ b.component p → b'.board q = b.board q := by
  have booked := regular.booked
  have members : ∀ q, b.groupHead q = b.groupHead p ↔ q ∈ b.component p := fun q => regular.component p q stone
  have isolated : ∀ q, b.groupHead q = b.groupHead p → ∀ a ∈ b.adj q, b.board a = b.board p →
      b.groupHead a = b.groupHead p := by
    intro q inside a adjacent same
    have colour := booked.uniform p q stone inside
    exact (regular.head_eq (by rw [colour]; exact stone) adjacent (same.trans colour.symm)).trans inside
  obtain ⟨b', run, booked', cleared⟩ := booked.removeUnsafe stone isolated
  have gone : ∀ q, q ∈ b.component p → b'.board q = .empty := by
    intro q inside
    rw [cleared.board q, if_pos ((members q).2 inside)]
  have kept : ∀ q, q ∉ b.component p → b'.board q = b.board q := by
    intro q outside
    rw [cleared.board q, if_neg fun inside => outside ((members q).1 inside)]
  have removed : KataGo.Game.Board.Removed b.position b'.position p :=
    ⟨cleared.xSize, cleared.ySize, rfl, rfl, rfl, gone, kept⟩
  refine ⟨b', run, ⟨booked', fun q x isStone => ?_⟩, cleared.toSameRest, gone, kept⟩
  have outside : q ∉ b.component p := fun inside => by
    rw [gone q inside] at isStone
    exact isStone.ne_empty rfl
  have stoneBefore : (b.board q).IsStone := by rwa [kept q outside] at isStone
  have apart : b.groupHead q ≠ b.groupHead p := fun same => outside ((members q).1 same)
  have chains := removed.chain (q := q) isStone x
  change Chain (grid b.xSize) b'.board q x ↔ Chain (grid b.xSize) b.board q x at chains
  rw [cleared.xSize, chains, ← regular.component q x stoneBefore, cleared.groupHead q, cleared.groupHead x, if_neg apart]
  split_ifs with moved
  · exact iff_of_false (booked.head_positive stoneBefore).ne fun same => apart (same.symm.trans moved)
  · exact Iff.rfl

end Remove

section Join

/-- The groups around `loc` that contain a neighbour of `seen` are merged into its own. -/
structure Joining (c : Loc → Color) (loc : Loc) (seen : List Loc) (b : Board) : Prop where
  booked : b.Booked
  board : b.board = c
  connected : ∀ p q, (c p).IsStone → b.groupHead q = b.groupHead p → Chain (grid b.xSize) c p q
  closed : ∀ p q, (c p).IsStone → q ∈ b.adj p → c q = c p → (p = loc → q ∈ seen) → (q = loc → p ∈ seen) →
    b.groupHead q = b.groupHead p

theorem Joining.step {c : Loc → Color} {seen : List Loc} (joining : Joining c loc seen b) (placed : c loc = pla)
    (player : pla.IsStone) (near : a ∈ b.adj loc) :
    ∃ b', (if b.board a = pla then b.mergeUnsafe loc a else some b) = some b' ∧
      Joining c loc (seen ++ [a]) b' ∧ SameRest b b' ∧ b'.zobrist = b.zobrist := by
  have locStone : (c loc).IsStone := by rw [placed]; exact player
  by_cases friend : b.board a = pla
  · rw [if_pos friend]
    have colour : b.board loc = pla := by rw [joining.board, placed]
    have same : c a = c loc := by rw [placed, ← joining.board, friend]
    have aStone : (c a).IsStone := by rw [same]; exact locStone
    obtain ⟨b', run, booked, rest, board, hash, h, which, heads⟩ := joining.booked.mergeUnsafe loc a
      (by rw [colour]; exact player) (by rw [friend, colour])
    have link : Chain (grid b.xSize) c a loc := Chain.symm (Chain.single near same)
    have headOf : ∀ q, b'.groupHead q = h ↔ b.groupHead q = b.groupHead loc ∨ b.groupHead q = b.groupHead a := by
      intro q
      rw [heads q]
      split_ifs with inside
      · exact iff_of_true rfl inside
      · refine iff_of_false (fun equal => inside ?_) inside
        rw [equal]
        exact which
    have toLoc : ∀ x, (c x).IsStone → b'.groupHead x = h → Chain (grid b.xSize) c x loc := by
      intro x isStone head
      rcases (headOf x).1 head with withLoc | withA
      · exact joining.connected x loc isStone withLoc.symm
      · exact (joining.connected x a isStone withA.symm).trans link
    refine ⟨b', run, ⟨booked, board.trans joining.board, ?_, ?_⟩, rest, hash⟩
    · intro p q stone equal
      rw [rest.xSize]
      by_cases inside : b'.groupHead p = h
      · have stoneQ : (c q).IsStone := by
          rcases (headOf q).1 (equal.trans inside) with withLoc | withA
          · rw [(joining.connected loc q locStone withLoc).label]
            exact locStone
          · rw [(joining.connected a q aStone withA).label]
            exact aStone
        exact (toLoc p stone inside).trans (toLoc q stoneQ (equal.trans inside)).symm
      · have outsideP := fun found => inside ((headOf p).2 found)
        have outsideQ := fun found => inside (equal.symm.trans ((headOf q).2 found))
        rw [heads p, heads q, if_neg outsideP, if_neg outsideQ] at equal
        exact joining.connected p q stone equal
    · intro p q stone adjacent equal left right
      rw [rest.adj] at adjacent
      simp only [List.mem_append, List.mem_singleton] at left right
      by_cases new : p = loc ∧ q = a
      · rw [new.1, new.2, (headOf a).2 (Or.inr rfl), (headOf loc).2 (Or.inl rfl)]
      by_cases new' : q = loc ∧ p = a
      · rw [new'.1, new'.2, (headOf a).2 (Or.inr rfl), (headOf loc).2 (Or.inl rfl)]
      · have old := joining.closed p q stone adjacent equal
          (fun here => (left here).resolve_right fun there => new ⟨here, there⟩)
          (fun here => (right here).resolve_right fun there => new' ⟨here, there⟩)
        rw [heads p, heads q, old]
  · rw [if_neg friend]
    rw [joining.board] at friend
    refine ⟨b, rfl, ⟨joining.booked, joining.board, joining.connected, ?_⟩, SameRest.refl b, rfl⟩
    intro p q stone adjacent equal left right
    simp only [List.mem_append, List.mem_singleton] at left right
    refine joining.closed p q stone adjacent equal (fun here => (left here).resolve_right ?_)
      (fun here => (right here).resolve_right ?_)
    · rintro rfl
      rw [here, placed] at equal
      exact friend equal
    · rintro rfl
      rw [here, placed] at equal
      exact friend equal.symm

theorem Joining.loop {c : Loc → Color} (placed : c loc = pla) (player : pla.IsStone) (rest : List Loc)
    {seen : List Loc} {b : Board} (split : seen ++ rest = b.adj loc) (joining : Joining c loc seen b) :
    ∃ b', rest.foldlM (fun b a => if b.board a = pla then b.mergeUnsafe loc a else some b) b = some b' ∧
      Joining c loc (b.adj loc) b' ∧ SameRest b b' ∧ b'.zobrist = b.zobrist := by
  induction rest generalizing seen b with
  | nil =>
    obtain rfl : seen = b.adj loc := by simpa using split
    exact ⟨b, rfl, joining, SameRest.refl b, rfl⟩
  | cons a rest ih =>
    obtain ⟨b₁, first, next, same₁, hash₁⟩ := joining.step placed player (a := a) (by rw [← split]; simp)
    obtain ⟨b', tail, final, same, hash⟩ := ih (show (seen ++ [a]) ++ rest = b₁.adj loc by rw [same₁.adj, ← split]; simp) next
    refine ⟨b', ?_, by rw [← same₁.adj]; exact final, same₁.trans same, hash.trans hash₁⟩
    rw [List.foldlM_cons, first]
    exact tail

variable [ZobristStone]

theorem joining_pressed (regular : b.Regular) (blank : b.board loc = .empty) (player : pla.IsStone) :
    Joining (Function.update b.board loc pla) loc [] (b.pressed pla loc) := by
  have booked := regular.booked
  have heads := pressed_groupHead b pla loc
  have same := sameRest_pressed b pla loc
  have apart := booked.head_ne blank
  refine ⟨booked.pressed blank player, pressed_board b pla loc, ?_, ?_⟩
  · intro p q stone equal
    rw [heads] at equal
    rw [same.xSize]
    by_cases hereP : p = loc <;> by_cases hereQ : q = loc
    · rw [hereP, hereQ]
      exact Chain.refl _
    · rw [hereP, Function.update_self, Function.update_of_ne hereQ] at equal
      exact absurd equal (apart q)
    · rw [hereQ, Function.update_self, Function.update_of_ne hereP] at equal
      exact absurd equal.symm (apart p)
    · rw [Function.update_of_ne hereP] at stone equal
      rw [Function.update_of_ne hereQ] at equal
      refine ((regular.component p q stone).1 equal).weaken (k := b.board p) ?_ rfl
      intro x label
      have other : x ≠ loc := by
        rintro rfl
        exact stone.ne_empty (label.symm.trans blank)
      rw [Function.update_of_ne other, label]
  · intro p q stone adjacent equal left right
    have apartP : p ≠ loc := fun here => by simpa using left here
    have apartQ : q ≠ loc := fun here => by simpa using right here
    rw [same.adj] at adjacent
    rw [Function.update_of_ne apartP] at stone equal
    rw [Function.update_of_ne apartQ] at equal
    rw [heads, Function.update_of_ne apartP, Function.update_of_ne apartQ]
    exact regular.head_eq stone adjacent equal

/-- Before any capture, the groups are the components with the new stone. -/
theorem Regular.joinStone (regular : b.Regular) (blank : b.board loc = .empty) (player : pla.IsStone) :
    ∃ b', b.joinStone pla loc = some b' ∧ b'.Regular ∧ SameRest b b' ∧
      b'.board = Function.update b.board loc pla ∧ b'.zobrist = b.zobrist ^^^ ZobristStone.key pla loc := by
  have start := joining_pressed regular blank player
  have same := sameRest_pressed b pla loc
  have hashed : (b.pressed pla loc).zobrist = b.zobrist ^^^ ZobristStone.key pla loc := by
    rw [pressed_frame]
    rfl
  obtain ⟨b₀, pressedEq⟩ : ∃ b₀, b₀ = b.pressed pla loc := ⟨_, rfl⟩
  rw [← pressedEq] at start same hashed
  obtain ⟨b', run, joined, rest, hash⟩ := start.loop (Function.update_self ..) player (b₀.adj loc) (List.nil_append _)
  refine ⟨b', by rw [pressedEq] at run; exact run, joined.booked.regular ?_ ?_, same.trans rest, joined.board, ?_⟩
  · intro p q stone equal
    rw [joined.board] at stone ⊢
    exact joined.connected p q stone equal
  · intro p q stone adjacent equal
    rw [joined.board] at stone equal
    have near := adjacent
    rw [rest.adj] at near
    refine joined.closed p q stone adjacent equal (fun here => ?_) (fun here => ?_)
    · rw [← here]
      exact near
    · rw [← here]
      exact adj_symm near
  · rw [hash, hashed]

end Join

end Board
end KataGo.Python
