import KataGo.Game.AreaScore
import KataGo.Game.Queries

/-! Stones that area scoring marks with their own colour stay on the board whatever legal moves
the opponent makes, as long as their owner does not play. -/

namespace KataGo.Game
open KataGo.Lib CircularList Labelling

variable [Zobrist]

namespace Board

variable {b b' : Board} {pla : Player} {suicide : Bool} {loc p : Loc} {c₀ : Loc → Color}

/-- The moves of one player, one after the other. -/
def playAll (b : Board) (pla : Player) : List Loc → Option Board
  | [] => some b
  | loc :: rest => do (← b.playMoveAssumeLegal loc pla).playAll pla rest

/-- Every move is legal, apart from ko, when it is made. -/
def AllLegal (b : Board) (pla : Player) (isMultiStoneSuicideLegal : Bool) : List Loc → Prop
  | [] => True
  | loc :: rest => b.isLegalIgnoringKo loc pla isMultiStoneSuicideLegal = true ∧
      ∀ b', b.playMoveAssumeLegal loc pla = some b' → b'.AllLegal pla isMultiStoneSuicideLegal rest

omit [Zobrist] in
theorem isIllegalSuicide_false (notPass : loc ≠ passLoc) : b.isIllegalSuicide loc pla false = b.isSuicide loc pla := by
  simp [isIllegalSuicide, isSuicide, notPass]

/-- A move that is not suicide has a liberty once the captured stones are gone. -/
theorem liberty_of_not_suicide (consistent : b.Consistent) (blank : b.colors loc = .empty) (player : pla.IsStone)
    (legal : b.isIllegalSuicide loc pla false = false) :
    ∃ e, Liberty (grid b.xSize) .empty
      (removeDead (grid b.xSize) .empty (getOpp pla) (Function.update b.colors loc pla)) loc e := by
  have notPass : loc ≠ passLoc := consistent.shape.ne_pass (by rw [blank]; exact Color.noConfusion)
  rw [isIllegalSuicide_false notPass, ← Bool.not_eq_true, isSuicide_iff consistent.regular blank player, not_and_or,
    not_not] at legal
  rcases legal with capture | free
  · push Not at capture
    obtain ⟨a, near, opposite, one⟩ := capture
    have dead := (captures_iff consistent.regular blank player near opposite).mp one
    refine ⟨a, removeDead_of_dead ?_ dead, loc, Chain.refl loc, near⟩
    rw [Function.update_of_ne (ne_of_mem_adj near), opposite]
  · obtain ⟨e, free⟩ := free
    refine free.of_blanked (fun x => ?_) ?_
    · rw [removeDead]
      split_ifs
      · exact .inr rfl
      · exact .inl rfl
    · rw [removeDead_of_ne]
      rw [Function.update_self]
      exact player.opp_ne.symm

/-- One legal move of the opponent leaves the living stones in place. -/
theorem holds_move (consistent : b.Consistent) (player : pla.IsStone)
    (holds : Benson.Holds (grid b.xSize) (side pla player) (suicide = true) c₀ b.colors)
    (legal : b.isLegalIgnoringKo loc (getOpp pla) suicide = true) :
    ∃ b', b.playMoveAssumeLegal loc (getOpp pla) = some b' ∧ b'.Consistent ∧ b'.xSize = b.xSize ∧
      Benson.Holds (grid b.xSize) (side pla player) (suicide = true) c₀ b'.colors := by
  by_cases pass : loc = passLoc
  · refine ⟨{ b with koLoc := nullLoc }, by rw [playMoveAssumeLegal, if_pos pass], ?_, rfl, holds⟩
    have same : SameChains b { b with koLoc := nullLoc } := ⟨rfl, rfl, rfl, rfl, rfl, rfl, rfl⟩
    exact same.consistent consistent
  · obtain ⟨blank, -, notSuicide⟩ := blank_of_legal legal pass
    obtain ⟨b', played, rule⟩ := playMoveAssumeLegal_spec consistent blank player.opp
    refine ⟨b', played, rule.consistent, rule.xSize, ?_⟩
    rw [rule.colors, getOpp_getOpp]
    apply holds.play
    · intro x theirs
      refine consistent.allAlive x ?_
      rw [theirs]
      exact player.opp
    · exact blank
    · cases suicide with
      | true => exact .inl rfl
      | false =>
        right
        have free := liberty_of_not_suicide consistent blank player.opp notSuicide
        rwa [getOpp_getOpp] at free

/-- Any number of legal moves of the opponent leaves the living stones in place. -/
theorem holds_moves (consistent : b.Consistent) (player : pla.IsStone) (moves : List Loc)
    (holds : Benson.Holds (grid b.xSize) (side pla player) (suicide = true) c₀ b.colors)
    (legal : b.AllLegal (getOpp pla) suicide moves) :
    ∃ b', b.playAll (getOpp pla) moves = some b' ∧
      Benson.Holds (grid b.xSize) (side pla player) (suicide = true) c₀ b'.colors := by
  induction moves generalizing b with
  | nil => exact ⟨b, rfl, holds⟩
  | cons loc rest ih =>
    obtain ⟨b', played, consistent', size, holds'⟩ := holds_move consistent player holds legal.1
    rw [← size] at holds' ⊢
    obtain ⟨b'', rest', final⟩ := ih consistent' holds' (legal.2 b' played)
    refine ⟨b'', ?_, final⟩
    rw [playAll, played]
    exact rest'

/-- The two players are scored one after the other. -/
theorem calculateAreaInOrder_eq (consistent : b.Consistent) {first second : Player} (one : first.IsStone)
    (two : second.IsStone) (nonPassAliveStones safe loose suicide : Bool) :
    b.calculateAreaInOrder first second nonPassAliveStones safe loose suicide =
      some (if nonPassAliveStones then b.markNonPassAliveStones (b.withArea second two safe loose suicide
          (b.withArea first one safe loose suicide fun _ => .empty))
        else b.withArea second two safe loose suicide (b.withArea first one safe loose suicide fun _ => .empty)) := by
  rw [calculateAreaInOrder, calculateAreaForPla_eq consistent one]
  show (b.calculateAreaForPla second safe loose suicide _ >>= _) = _
  rw [calculateAreaForPla_eq consistent two]
  cases nonPassAliveStones with
  | true => rfl
  | false => rfl

/-- A stone that is marked with its own colour cannot be captured. -/
theorem passAlive_of_marked (consistent : b.Consistent) (player : pla.IsStone) (mine : b.colors p = pla)
    {result : Loc → Color} (area : b.calculateArea false false false suicide = some result)
    (marked : result p = pla) : b.PassAlive pla player suicide p := by
  have owned : b.Owned pla player suicide false p := by
    rw [calculateArea, calculateAreaInOrder_eq consistent (.inl rfl) (.inr rfl)] at area
    cases area
    simp only [withArea, Bool.false_eq_true, false_and, if_false] at marked
    rcases player with rfl | rfl
    · split at marked
      · cases marked
      · split at marked
        · assumption
        · cases marked
    · split at marked
      · assumption
      · split at marked
        · cases marked
        · cases marked
  rcases owned with alive | ⟨enclosed, -⟩
  · exact alive
  · exfalso
    rcases enclosed.1 with free | theirs
    · exact player.ne_empty (mine.symm.trans free)
    · exact player.opp_ne (theirs.symm.trans mine)

/-- Benson's theorem for this implementation: whatever legal moves the opponent makes while the
owner passes, a stone that is marked as alive is still there. -/
theorem calculateArea_sound (b : Board) (pla : Player) (isMultiStoneSuicideLegal : Bool) (consistent : b.Consistent)
    (player : pla.IsStone) :
    ∃ result, b.calculateArea false false false isMultiStoneSuicideLegal = some result ∧
      ∀ p, b.colors p = pla → result p = pla → ∀ moves, b.AllLegal (getOpp pla) isMultiStoneSuicideLegal moves →
        ∃ b', b.playAll (getOpp pla) moves = some b' ∧ b'.colors p = pla := by
  have area := calculateAreaInOrder_eq consistent (.inl rfl) (.inr rfl) false false false isMultiStoneSuicideLegal
  refine ⟨_, area, fun p stone marked moves legal => ?_⟩
  have alive := passAlive_of_marked consistent player stone area marked
  obtain ⟨b', played, holds⟩ := holds_moves consistent player moves (Benson.holds_self _ _ _ _) legal
  exact ⟨b', played, holds.stones p alive⟩

/-- A stone played on an empty point of a consistent board. -/
theorem consistent_bind {start : Option Board} (loc : Loc) (player : pla.IsStone)
    (blank : start.map (fun b => b.colors loc) = some .empty) (known : ∃ b, start = some b ∧ b.Consistent) :
    ∃ b, (start.bind fun b => b.playMoveAssumeLegal loc pla) = some b ∧ b.Consistent := by
  obtain ⟨b, rfl, consistent⟩ := known
  obtain ⟨b', played, rule⟩ := playMoveAssumeLegal_spec consistent (Option.some.inj blank) player
  exact ⟨b', played, rule.consistent⟩

end Board

section Sample

/-- Three black stones around an eye in the corner, with two more points of their own. -/
def threeStones : Option Board :=
  letI := Zobrist.blank
  ((((init 3 2).bind fun b => b.playMoveAssumeLegal (Location.getLoc 1 0 3) .black).bind
    fun b => b.playMoveAssumeLegal (Location.getLoc 0 1 3) .black).bind
      fun b => b.playMoveAssumeLegal (Location.getLoc 1 1 3) .black)

omit [Zobrist] in
theorem threeStones_consistent : letI := Zobrist.blank; ∃ b, threeStones = some b ∧ b.Consistent := by
  let _ := Zobrist.blank
  have start := Board.init_consistent 3 2 (by decide) (by decide)
  have first := Board.consistent_bind (Location.getLoc 1 0 3) (.inl rfl) (by decide +kernel) start
  have second := Board.consistent_bind (Location.getLoc 0 1 3) (.inl rfl) (by decide +kernel) first
  exact Board.consistent_bind (Location.getLoc 1 1 3) (.inl rfl) (by decide +kernel) second

omit [Zobrist] in
/-- White takes his own two stones off, and the black stones are still there. -/
theorem calculateArea_sound_three :
    letI := Zobrist.blank
    ∃ b b', threeStones = some b ∧
      b.playAll .white [Location.getLoc 2 0 3, Location.getLoc 2 1 3] = some b' ∧
      b'.colors (Location.getLoc 1 1 3) = .black := by
  let _ := Zobrist.blank
  obtain ⟨b, made, consistent⟩ := threeStones_consistent
  obtain ⟨result, area, safe⟩ := Board.calculateArea_sound b .black true consistent (.inl rfl)
  have stone : threeStones.map (fun b => b.colors (Location.getLoc 1 1 3)) = some .black := by decide +kernel
  have marked : (threeStones.bind fun b => b.calculateArea false false false true).map
    (fun result => result (Location.getLoc 1 1 3)) = some .black := by decide +kernel
  have one : threeStones.map (fun b => b.isLegalIgnoringKo (Location.getLoc 2 0 3) .white true) = some true := by
    decide +kernel
  have two : (threeStones.bind fun b => b.playMoveAssumeLegal (Location.getLoc 2 0 3) .white).map
    (fun b => b.isLegalIgnoringKo (Location.getLoc 2 1 3) .white true) = some true := by decide +kernel
  rw [made] at stone marked one two
  rw [Option.bind_some, area] at marked
  rw [Option.bind_some] at two
  have legal : b.AllLegal .white true [Location.getLoc 2 0 3, Location.getLoc 2 1 3] := by
    refine ⟨Option.some.inj one, fun b₁ moved => ⟨?_, fun _ _ => trivial⟩⟩
    rw [moved] at two
    exact Option.some.inj two
  obtain ⟨b', played, still⟩ := safe (Location.getLoc 1 1 3) (Option.some.inj stone) (Option.some.inj marked) _ legal
  exact ⟨b, b', made, played, still⟩

end Sample

end KataGo.Game
