import KataGo.Game.Rebuild

/-! The set-up operations keep the invariant, whatever their arguments are and whatever
they return. -/

namespace KataGo.Game
open KataGo.Lib CircularList Labelling

variable [Zobrist]

namespace Board

variable {b b' : Board} {p q e loc : Loc} {pla k : Color}

section Remove

omit [Zobrist] in
/-- Taking stones off a board leaves every remaining chain with a liberty. -/
theorem allAlive_of_fewer (alive : b.AllAlive) (xSize : b'.xSize = b.xSize)
    (fewer : ∀ q, b'.colors q = b.colors q ∨ b'.colors q = .empty) : b'.AllAlive := by
  intro p stone
  have stays : b'.colors p = b.colors p := (fewer p).resolve_right stone.ne_empty
  rw [stays] at stone
  obtain ⟨e, free⟩ := alive p stone
  rw [liberties, xSize]
  exact free.of_blanked fewer stays

omit [Zobrist] in
/-- A stone that goes back where one was taken off leaves every chain with a liberty. -/
theorem liberty_back {b₁ : Board} (alive : b.AllAlive) (xSize : b₁.xSize = b.xSize)
    (fewer : ∀ q, b₁.colors q = b.colors q ∨ b₁.colors q = .empty)
    (isStone : (Function.update b₁.colors p (b.colors p) q).IsStone) :
    ∃ e, Liberty (grid b₁.xSize) .empty (Function.update b₁.colors p (b.colors p)) q e := by
  have fewer' : ∀ q, Function.update b₁.colors p (b.colors p) q = b.colors q ∨
      Function.update b₁.colors p (b.colors p) q = .empty := by
    intro q
    by_cases here : q = p
    · subst here
      exact Or.inl (Function.update_self ..)
    · rw [Function.update_of_ne here]
      exact fewer q
  have stays := (fewer' q).resolve_right isStone.ne_empty
  rw [stays] at isStone
  obtain ⟨e, free⟩ := alive q isStone
  rw [xSize]
  exact free.of_blanked fewer' stays

/-- Putting a stone back where one was taken off captures nothing. -/
theorem playMoveAssumeLegal_back {b₁ : Board} (alive : b.AllAlive) (consistent : b₁.Consistent)
    (xSize : b₁.xSize = b.xSize) (fewer : ∀ q, b₁.colors q = b.colors q ∨ b₁.colors q = .empty)
    (blank : b₁.colors p = .empty) (stone : (b.colors p).IsStone) :
    ∃ b', b₁.playMoveAssumeLegal p (b.colors p) = some b' ∧ b'.Consistent ∧ b'.xSize = b₁.xSize ∧
      b'.ySize = b₁.ySize ∧ b'.colors = Function.update b₁.colors p (b.colors p) := by
  obtain ⟨b', run, played⟩ := playMoveAssumeLegal_spec consistent blank stone
  refine ⟨b', run, played.consistent, played.xSize, played.ySize, ?_⟩
  rw [played.colors, play_eq_update]
  · intro q opposite
    exact liberty_back alive xSize fewer (by rw [opposite]; exact stone.opp)
  · exact liberty_back alive xSize fewer (by rw [Function.update_self]; exact stone)

theorem putBack_spec (alive : b.AllAlive) {pla : Color} (player : pla.IsStone) (rest : List Loc) {b₁ : Board}
    (colour : ∀ q ∈ rest, b.colors q = pla) (nodup : rest.Nodup) (absent : loc ∉ rest)
    (consistent : b₁.Consistent) (xSize : b₁.xSize = b.xSize) (ySize : b₁.ySize = b.ySize)
    (colours : ∀ q, b₁.colors q = if q = loc ∨ q ∈ rest then .empty else b.colors q) :
    ∃ b', rest.foldlM (fun b cur => if cur ≠ loc then b.playMoveAssumeLegal cur pla else some b) b₁ = some b' ∧
      b'.Consistent ∧ b'.xSize = b.xSize ∧ b'.ySize = b.ySize ∧ b'.colors = Function.update b.colors loc .empty := by
  induction rest generalizing b₁ with
  | nil =>
    refine ⟨b₁, rfl, consistent, xSize, ySize, funext fun q => ?_⟩
    rw [colours q]
    by_cases here : q = loc <;> simp [here]
  | cons cur rest ih =>
    obtain ⟨fresh, rest'⟩ := List.nodup_cons.1 nodup
    have other : cur ≠ loc := fun same => absent (by simp [same])
    have mine := colour cur (by simp)
    have fewer : ∀ q, b₁.colors q = b.colors q ∨ b₁.colors q = .empty := by
      intro q
      rw [colours q]
      split_ifs <;> simp
    obtain ⟨b₂, run, consistent₂, xSize₂, ySize₂, colours₂⟩ := playMoveAssumeLegal_back alive consistent xSize fewer
      (p := cur) (by rw [colours cur, if_pos (by simp)]) (by rw [mine]; exact player)
    rw [mine] at run colours₂
    obtain ⟨b', tail, result⟩ := ih (fun q member => colour q (by simp [member])) rest'
      (fun member => absent (by simp [member])) consistent₂ (xSize₂.trans xSize) (ySize₂.trans ySize) (by
        intro q
        rw [colours₂]
        by_cases here : q = cur
        · subst here
          simp [other, fresh, mine]
        · simp [colours q, here])
    refine ⟨b', ?_, result⟩
    rw [List.foldlM_cons, if_pos other, run]
    exact tail

/-- Removing one stone leaves all the other stones of its chain. -/
theorem removeSingleStone_spec (consistent : b.Consistent) (stone : (b.colors loc).IsStone) :
    ∃ b', b.removeSingleStone loc = some b' ∧ b'.Consistent ∧ b'.xSize = b.xSize ∧ b'.ySize = b.ySize ∧
      b'.colors = Function.update b.colors loc .empty := by
  have regular := consistent.regular
  have alive := consistent.allAlive
  obtain ⟨t, walked, ring, size⟩ := (regular.chainOk stone).chainLocs regular.shape ⟨stone, rfl⟩
  obtain ⟨b₁, remove, regular₁, removed⟩ := regular.removeChain stone
  obtain ⟨absent, nodup⟩ := List.nodup_cons.1 ring.nodup
  have members : ∀ q, q ∈ loc :: t ↔ q ∈ b.component loc := fun q =>
    (ring.mem q).trans (regular.component loc q stone)
  have colours : ∀ q, b₁.colors q = if q = loc ∨ q ∈ t then .empty else b.colors q := by
    intro q
    split_ifs with inside
    · exact removed.gone q ((members q).1 (List.mem_cons.2 inside))
    · exact removed.kept q fun found => inside (List.mem_cons.1 ((members q).2 found))
  obtain ⟨b', back, result⟩ := putBack_spec alive stone t
    (fun q member => Chain.label ((members q).1 (by simp [member]))) nodup absent
    (regular₁.consistent (removed.allAlive alive)) removed.xSize removed.ySize colours
  refine ⟨b', ?_, result⟩
  have counted : ((loc :: t).length : Int) = b.getChainSize loc := by rw [getChainSize, size]
  simp only [removeSingleStone, walked, counted, remove, Option.bind_eq_bind, Option.bind_some, guard_true,
    Option.pure_def, List.foldlM_cons, ne_eq, not_true_eq_false, if_false]
  exact back

end Remove

/-- The operation returns, and the board it returns is consistent. -/
def Keeps {α : Type} (result : Option (Board × α)) : Prop := ∃ b r, result = some (b, r) ∧ b.Consistent

omit [Zobrist] in
theorem isStone_of_settable {color : Color} (settable : b.settable loc color = true) (other : color ≠ .empty) :
    color.IsStone := by
  simp only [Board.settable, Bool.and_eq_true, Bool.not_eq_true', Bool.and_eq_false_iff, Bool.or_eq_false_iff,
    decide_eq_false_iff_not, ne_eq, not_not] at settable
  rcases settable.2 with (black | white) | empty
  · exact Or.inl black
  · exact Or.inr white
  · exact absurd empty other

omit [Zobrist] in
theorem stone_of_settable {color : Color} (settable : b.settable loc color = true)
    (filled : b.colors loc ≠ .empty) : (b.colors loc).IsStone := by
  simp only [Board.settable, Bool.and_eq_true, Bool.not_eq_true', Bool.or_eq_false_iff,
    decide_eq_false_iff_not] at settable
  rcases colour : b.colors loc with _ | _ | _ | _
  · exact absurd colour filled
  · exact Or.inl rfl
  · exact Or.inr rfl
  · exact absurd colour settable.1.2

theorem replaceStone_spec {color : Color} (consistent : b.Consistent) (settable : b.settable loc color = true) :
    ∃ b', b.replaceStone loc color = some b' ∧ b'.Consistent := by
  unfold replaceStone
  by_cases same : b.colors loc = color
  · exact ⟨b, if_pos same, consistent⟩
  rw [if_neg same]
  by_cases blank : b.colors loc = .empty
  · rw [if_pos blank]
    split_ifs
    · exact ⟨b, rfl, consistent⟩
    · have stone := isStone_of_settable settable fun empty => same (blank.trans empty.symm)
      obtain ⟨b', run, played⟩ := playMoveAssumeLegal_spec consistent blank stone
      exact ⟨b', run, played.consistent⟩
  · rw [if_neg blank]
    obtain ⟨b₁, remove, consistent₁, -, -, colours₁⟩ :=
      removeSingleStone_spec consistent (stone_of_settable settable blank)
    split_ifs with erase
    · exact ⟨b₁, remove, consistent₁⟩
    · rw [remove]
      simp only [Option.bind_eq_bind, Option.bind_some]
      split_ifs
      · exact ⟨b₁, rfl, consistent₁⟩
      · obtain ⟨b', run, played⟩ := playMoveAssumeLegal_spec consistent₁
          (by rw [colours₁, Function.update_self]) (isStone_of_settable settable erase)
        exact ⟨b', run, played.consistent⟩

theorem keeps_setStone (consistent : b.Consistent) (loc : Loc) (color : Color) : Keeps (b.setStone loc color) := by
  unfold setStone
  by_cases settable : b.settable loc color = true
  · obtain ⟨b', run, result⟩ := replaceStone_spec consistent settable
    rw [if_neg (by simp [settable]), run]
    exact ⟨_, true, rfl, (sameChains_withKo b' nullLoc).consistent result⟩
  · exact ⟨b, false, if_pos (by simpa using settable), consistent⟩

theorem keeps_setStoneFailIfNoLibs (consistent : b.Consistent) (loc : Loc) (color : Color) :
    Keeps (b.setStoneFailIfNoLibs loc color) := by
  unfold setStoneFailIfNoLibs
  by_cases settable : b.settable loc color = true
  · rw [if_neg (by simp [settable])]
    have played : ∀ {b₁ : Board} {k : Color}, b₁.Consistent → b₁.colors loc = .empty → k.IsStone → ∀ (ko : Loc) (r : Bool),
        Keeps (do
          let b ← b₁.playMoveAssumeLegal loc k
          return ({ b with koLoc := ko }, r)) := by
      intro b₁ k consistent₁ blank stone ko r
      obtain ⟨b', run, result⟩ := playMoveAssumeLegal_spec consistent₁ blank stone
      exact ⟨_, r, by rw [run]; rfl, (sameChains_withKo b' ko).consistent result.consistent⟩
    by_cases same : b.colors loc = color
    · exact ⟨_, true, if_pos same, (sameChains_withKo b nullLoc).consistent consistent⟩
    rw [if_neg same]
    by_cases blank : b.colors loc = .empty
    · rw [if_pos blank]
      split_ifs
      · exact ⟨b, false, rfl, consistent⟩
      · exact played consistent blank
          (isStone_of_settable settable fun empty => same (blank.trans empty.symm)) nullLoc true
    · rw [if_neg blank]
      have stone := stone_of_settable settable blank
      obtain ⟨b₁, remove, consistent₁, -, -, colours₁⟩ := removeSingleStone_spec consistent stone
      have blank₁ : b₁.colors loc = .empty := by rw [colours₁, Function.update_self]
      split_ifs with erase
      · exact ⟨_, true, by rw [remove]; rfl, (sameChains_withKo b₁ nullLoc).consistent consistent₁⟩
      · have player := isStone_of_settable settable erase
        have opposite : b.colors loc = getOpp color :=
          (player.eq_or_eq_opp stone).resolve_left same
        simp only [opposite, guard_true, Option.pure_def, Option.bind_eq_bind, Option.bind_some, remove]
        split_ifs
        · exact played consistent₁ blank₁ player.opp b.koLoc false
        · exact played consistent₁ blank₁ player nullLoc true
  · exact ⟨b, false, if_pos (by simpa using settable), consistent⟩

theorem keeps_setEach (color : Move → Color) (placements : List Move) (consistent : b.Consistent) :
    Keeps (setEach color placements b) := by
  induction placements generalizing b with
  | nil => exact ⟨b, true, rfl, consistent⟩
  | cons placement rest ih =>
    obtain ⟨b₁, suc, run, consistent₁⟩ := keeps_setStoneFailIfNoLibs consistent placement.loc (color placement)
    rw [setEach, run]
    simp only [Option.bind_eq_bind, Option.bind_some]
    split_ifs
    · exact ih consistent₁
    · exact ⟨b₁, false, rfl, consistent₁⟩

theorem keeps_setStonesFailIfNoLibs (consistent : b.Consistent) (placements : List Move) :
    Keeps (b.setStonesFailIfNoLibs placements) := by
  unfold setStonesFailIfNoLibs
  by_cases distinct : (placements.map Move.loc).Nodup
  · obtain ⟨b₁, suc, run, consistent₁⟩ := keeps_setEach (fun _ => .empty) placements consistent
    rw [if_neg (not_not.2 distinct), run]
    simp only [Option.bind_eq_bind, Option.bind_some]
    split_ifs
    · exact keeps_setEach Move.pla placements consistent₁
    · exact ⟨b₁, false, rfl, consistent₁⟩
  · exact ⟨b, false, if_pos distinct, consistent⟩

section Tolerant

omit [Zobrist] in
theorem overlay_shape (shape : b.Shape) (placement : Move) : (b.overlay placement).Shape := by
  unfold overlay
  split_ifs with settable
  · refine @Shape.recolor b (b.setColor placement.loc placement.pla) shape rfl rfl fun p => ?_
    change Function.update b.colors placement.loc placement.pla p = .wall ↔ _
    by_cases here : p = placement.loc
    · subst here
      simp only [Board.settable, Bool.and_eq_true, Bool.not_eq_true', Bool.or_eq_false_iff, Bool.and_eq_false_iff,
        decide_eq_false_iff_not, ne_eq, not_not] at settable
      rw [Function.update_self]
      refine iff_of_false (fun wall => ?_) settable.1.2
      rw [wall] at settable
      simp at settable
    · rw [Function.update_of_ne here]
  · exact shape

omit [Zobrist] in
theorem foldl_overlay_shape (placements : List Move) (shape : b.Shape) : (placements.foldl overlay b).Shape := by
  induction placements generalizing b with
  | nil => exact shape
  | cons placement rest ih => exact ih (overlay_shape shape placement)

omit [Zobrist] in
/-- The loop only blanks colours, and the points it counts are the points it blanks. -/
theorem foldl_removeZero (l : List Loc) (distinct : l.Nodup) (b : Board) (n : Int) :
    ∃ colors : Loc → Color, l.foldl (fun (b, numRemoved) loc =>
        if (b.colors loc).IsStone ∧ b.getNumLiberties loc = 0 then (b.setColor loc .empty, numRemoved + 1)
        else (b, numRemoved)) (b, n) = ({ b with colors := colors },
          n + (l.countP fun q => (b.colors q).IsStone ∧ b.getNumLiberties q = 0 : Nat)) ∧
      ∀ q, colors q = if q ∈ l ∧ (b.colors q).IsStone ∧ b.getNumLiberties q = 0 then .empty else b.colors q := by
  induction l generalizing b n with
  | nil => exact ⟨b.colors, by simp, by simp⟩
  | cons v l ih =>
    obtain ⟨fresh, distinct⟩ := List.nodup_cons.1 distinct
    by_cases trapped : (b.colors v).IsStone ∧ b.getNumLiberties v = 0
    · obtain ⟨colors, run, spec⟩ := ih distinct (b.setColor v .empty) (n + 1)
      have count : (l.countP fun q => ((b.setColor v .empty).colors q).IsStone ∧ (b.setColor v .empty).getNumLiberties q = 0) =
          l.countP fun q => (b.colors q).IsStone ∧ b.getNumLiberties q = 0 := by
        refine List.countP_congr fun q member => ?_
        have other : q ≠ v := fun same => fresh (same ▸ member)
        have still : (b.setColor v .empty).colors q = b.colors q := Function.update_of_ne other ..
        rw [still]
        rfl
      refine ⟨colors, ?_, fun q => ?_⟩
      · rw [List.foldl_cons, List.countP_cons_of_pos (by simpa using trapped)]
        simp only [if_pos trapped]
        rw [run, count]
        push_cast
        rw [add_assoc, add_comm (1 : Int)]
        rfl
      · rw [spec q]
        change (if q ∈ l ∧ (Function.update b.colors v .empty q).IsStone ∧ b.getNumLiberties q = 0 then Color.empty
          else Function.update b.colors v .empty q) = _
        by_cases here : q = v
        · subst here
          simp [trapped]
        · simp [here]
    · obtain ⟨colors, run, spec⟩ := ih distinct b n
      refine ⟨colors, ?_, fun q => ?_⟩
      · rw [List.foldl_cons, List.countP_cons_of_neg (by simpa using trapped)]
        simp only [if_neg trapped]
        exact run
      · rw [spec q]
        by_cases here : q = v
        · subst here
          simp [trapped]
        · simp [here]

/-- Blanking every chain without liberties leaves only chains with liberties. -/
theorem removeZeroLiberty_alive (regular : b.Regular) {colors : Loc → Color}
    (blanked : ∀ q, colors q =
      if q ∈ b.locs ∧ (b.colors q).IsStone ∧ b.getNumLiberties q = 0 then .empty else b.colors q) :
    ({ b with colors := colors } : Board).AllAlive := by
  have trapped : ∀ q, (b.colors q).IsStone → (colors q = .empty ↔ ¬ ∃ e, e ∈ b.liberties q) := by
    intro q stone
    rw [← regular.numLiberties_eq_zero_iff stone, blanked q]
    simp only [regular.shape.stone_mem_locs stone, stone, true_and]
    split_ifs with none
    · exact iff_of_true rfl none
    · exact iff_of_false stone.ne_empty none
  intro p stone
  change (colors p).IsStone at stone
  have stays : ∀ q, colors q ≠ .empty → colors q = b.colors q := by
    intro q filled
    rw [blanked q] at filled ⊢
    split_ifs at filled ⊢
    · exact absurd rfl filled
    · rfl
  have same := stays p stone.ne_empty
  have isStone : (b.colors p).IsStone := by rw [← same]; exact stone
  obtain ⟨e, free⟩ := not_not.1 fun none => stone.ne_empty ((trapped p isStone).2 none)
  refine ⟨e, Liberty.relabel (c := b.colors) (fun x path => stays x ?_) ?_ free⟩
  · have colour : b.colors x = b.colors p := path.label
    rw [ne_eq, trapped x (by rw [colour]; exact isStone), not_not]
    exact ⟨e, free.of_chain path.symm⟩
  · change colors e = .empty
    rw [blanked e, if_neg]
    · exact free.1
    · rintro ⟨-, eStone, -⟩
      exact eStone.ne_empty free.1

/-- The whole operation: the dead groups of the overlay are gone, and their stones are counted. -/
theorem setStonesTolerant_spec (consistent : b.Consistent) (placements : List Move) :
    ∃ b₁ b', (placements.foldl overlay b).regenChainsFromColors = some b₁ ∧ b₁.Regular ∧
      SamePosition (placements.foldl overlay b) b₁ ∧
      b.setStonesTolerant placements = some (b',
        ((b₁.locs.countP fun q => (b₁.colors q).IsStone ∧ b₁.getNumLiberties q = 0 : Nat) : Int)) ∧
      b'.Consistent ∧ b'.xSize = b₁.xSize ∧ b'.ySize = b₁.ySize ∧ b'.koLoc = nullLoc ∧ ∀ q, b'.colors q =
        if q ∈ b₁.locs ∧ (b₁.colors q).IsStone ∧ b₁.getNumLiberties q = 0 then .empty else b₁.colors q := by
  obtain ⟨b₁, regen, regular, position⟩ := regenChainsFromColors_spec (foldl_overlay_shape placements consistent.shape)
  obtain ⟨colors, run, blanked⟩ := foldl_removeZero b₁.locs (boardLocs_nodup _ _) b₁ 0
  have alive := removeZeroLiberty_alive regular blanked
  rw [zero_add] at run
  have remove : b₁.removeZeroLiberty = ({ b₁ with colors := colors }, _) := run
  unfold setStonesTolerant
  rw [regen]
  simp only [Option.bind_eq_bind, Option.bind_some, remove, Int.natCast_pos, gt_iff_lt]
  refine ⟨b₁, ?_⟩
  by_cases some : 0 < b₁.locs.countP fun q => (b₁.colors q).IsStone ∧ b₁.getNumLiberties q = 0
  · rw [if_pos some]
    have shape : ({ b₁ with colors := colors } : Board).Shape := by
      refine @Shape.recolor b₁ { b₁ with colors := colors } regular.shape rfl rfl fun p => ?_
      change colors p = .wall ↔ _
      rw [blanked p]
      split_ifs with gone
      · exact iff_of_false (by decide) gone.2.1.ne_wall
      · exact Iff.rfl
    obtain ⟨b₂, regen₂, regular₂, same⟩ := regenChainsFromColors_spec shape
    have alive₂ : b₂.AllAlive := by
      intro p stone
      rw [liberties, same.xSize, same.colors]
      rw [same.colors] at stone
      exact alive p stone
    rw [regen₂]
    exact ⟨_, rfl, regular, position, rfl, (sameChains_withKo b₂ nullLoc).consistent (regular₂.consistent alive₂), same.xSize,
      same.ySize, rfl, fun q => (congrFun same.colors q).trans (blanked q)⟩
  · rw [if_neg some]
    have unchanged : colors = b₁.colors := by
      have none := List.countP_eq_zero.1 (Nat.eq_zero_of_not_pos some)
      funext q
      rw [blanked q, if_neg]
      rintro ⟨member, trapped⟩
      exact none q member (by simpa using trapped)
    subst unchanged
    exact ⟨_, rfl, regular, position, rfl, (sameChains_withKo b₁ nullLoc).consistent (regular.consistent alive), rfl, rfl,
      rfl, blanked⟩

theorem keeps_setStonesTolerant (consistent : b.Consistent) (placements : List Move) :
    Keeps (b.setStonesTolerant placements) := by
  obtain ⟨b₁, b', -, -, -, run, consistent', -⟩ := setStonesTolerant_spec consistent placements
  exact ⟨b', _, run, consistent'⟩

end Tolerant

end Board
end KataGo.Game
