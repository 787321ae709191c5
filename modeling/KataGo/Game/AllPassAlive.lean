import KataGo.Game.AreaSymmetry
import KataGo.Game.IndependentLife

/-! Boards on which every point belongs to a player for good. There every way of scoring the board
finds the same area. -/

namespace KataGo.Game
open KataGo.Lib CircularList Labelling

namespace Board

variable {b : Board} {pla : Player} {suicide : Bool} {x : Loc}

variable [Zobrist]

/-- A living stone is not in atari. -/
theorem PassAlive.not_atari {player : pla.IsStone} (consistent : b.Consistent) (alive : b.PassAlive pla player suicide x) :
    b.getNumLiberties x ≠ 1 := by
  intro atari
  have stone : (b.colors x).IsStone := by
    rw [show b.colors x = pla from alive.label]
    exact player
  obtain ⟨e₁, e₂, apart, first, second⟩ := Benson.PassAlive.liberties alive
  have one : (b.liberties x).ncard = 1 := by
    have counts := consistent.numLiberties x stone
    rw [show (b.chainData (b.chainHead x)).numLiberties = 1 from atari] at counts
    exact_mod_cast counts.symm
  obtain ⟨e, only⟩ := Set.ncard_eq_one.mp one
  have all : ∀ e' ∈ b.liberties x, e' = e := fun e' member => by
    rw [only] at member
    exact member
  exact apart ((all e₁ first).trans (all e₂ second).symm)

/-- Every point of the board belongs to a player for good. -/
structure AllPassAlive (b : Board) (suicide : Bool) (area : Loc → Color) : Prop where
  found : b.calculateArea false false false suicide = some area
  stones : ∀ p ∈ b.locs, (area p).IsStone

variable {area : Loc → Color}

/-- Each point is its owner's alone. -/
theorem AllPassAlive.owned (alive : b.AllPassAlive suicide area) (consistent : b.Consistent) (onBoard : x ∈ b.locs) :
    (area x = .black ∧ b.Owned .black (.inl rfl) suicide false x) ∨
      (area x = .white ∧ b.Owned .white (.inr rfl) suicide false x) := by
  obtain ⟨run, stones⟩ := alive
  have stone := stones x onBoard
  rw [calculateArea, calculateAreaInOrder_eq consistent (.inl rfl) (.inr rfl)] at run
  cases run
  simp only [withArea, Bool.false_eq_true, false_and, if_false] at stone ⊢
  split_ifs at stone ⊢ with white black
  · exact .inr ⟨rfl, white⟩
  · exact .inl ⟨rfl, black⟩
  · exact absurd stone (by decide)

/-- The area that counts everything is the same. -/
theorem AllPassAlive.calculateArea_all (alive : b.AllPassAlive suicide area) (consistent : b.Consistent) :
    ∃ basicArea, b.calculateArea true true true suicide = some basicArea ∧ b.IsArea basicArea ∧
      ∀ p ∈ b.locs, basicArea p = area p := by
  obtain ⟨basicArea, basic, isArea⟩ := calculateArea_isArea consistent true true suicide
  refine ⟨basicArea, basic, isArea, fun p onBoard => ?_⟩
  rw [calculateArea, calculateAreaInOrder_eq consistent (.inl rfl) (.inr rfl)] at basic
  cases basic
  have more : ∀ {pla : Player} {player : pla.IsStone}, b.Owned pla player suicide false p →
      b.Owned pla player suicide true p := fun owned => Benson.Owned.mono (fun none => absurd none (by decide)) owned
  simp only [if_true, markNonPassAliveStones_apply, withArea]
  rcases alive.owned consistent onBoard with ⟨color, mine⟩ | ⟨color, mine⟩
  · have other := owned_disjoint consistent (.inl rfl) (more mine)
    have other : ¬ b.Owned .white (.inr rfl) suicide true p := other
    simp [color, more mine, other]
  · simp [color, more mine]

/-- No area of such a board is in seki. -/
theorem AllPassAlive.not_touchesSeki (alive : b.AllPassAlive suicide area) (consistent : b.Consistent)
    {basicArea : Loc → Color} (same : ∀ p ∈ b.locs, basicArea p = area p) (onBoard : x ∈ b.locs) :
    b.touchesSeki basicArea x = false := by
  rw [touchesSeki, Bool.or_eq_false_iff, Bool.and_eq_false_imp, List.any_eq_false]
  refine ⟨fun own => ?_, fun a _ => ?_⟩
  · have own : b.colors x = area x := (of_decide_eq_true own).trans (same x onBoard)
    refine decide_eq_false ?_
    have living : ∀ {pla : Player} {player : pla.IsStone}, b.colors x = pla → b.Owned pla player suicide false x →
        b.getNumLiberties x ≠ 1 := by
      rintro pla player mine (alive | ⟨enclosed, -⟩)
      · exact PassAlive.not_atari consistent alive
      · rcases enclosed.1 with free | theirs
        · exact absurd (mine.symm.trans free) player.ne_empty
        · exact absurd (theirs.symm.trans mine) player.opp_ne
    rcases alive.owned consistent onBoard with ⟨color, mine⟩ | ⟨color, mine⟩
    · exact living (own.trans color) mine
    · exact living (own.trans color) mine
  · rw [decide_eq_true_eq]
    rintro ⟨free, neutral⟩
    have onBoard : a ∈ b.locs := consistent.shape.mem_locs (by rw [free]; exact Color.noConfusion)
    exact (alive.stones a onBoard).ne_empty ((same a onBoard).symm.trans neutral)

/-- The areas that live on their own cover such a board, whatever is kept besides. -/
theorem AllPassAlive.calculateIndependentLifeArea (alive : b.AllPassAlive suicide area) (consistent : b.Consistent)
    (keepTerritories keepStones : Bool) :
    ∃ area' count, b.calculateIndependentLifeArea keepTerritories keepStones suicide = some (area', count) ∧
      ∀ p ∈ b.locs, area' p = area p := by
  obtain ⟨basicArea, basic, isArea, same⟩ := alive.calculateArea_all consistent
  obtain ⟨result, count, run, result_eq⟩ := calculateIndependentLifeAreaHelper_exact consistent.shape isArea
  have copied : ∀ p ∈ b.locs, result p = basicArea p := by
    intro p onBoard
    refine (result_eq p).1 ?_
    rintro ⟨q, chain, touching⟩
    have mine : basicArea q ≠ .empty := by
      rw [chain.label, same p onBoard]
      exact (alive.stones p onBoard).ne_empty
    rw [alive.not_touchesSeki consistent same (isArea.inside q mine)] at touching
    cases touching
  have keep : ∀ (test : Loc → Bool) (result : Loc → Color), (∀ p ∈ b.locs, result p = basicArea p) →
      ∀ p ∈ b.locs, b.keepArea basicArea test result p = basicArea p := by
    intro test result before p onBoard
    rw [keepArea_apply]
    split_ifs
    · rfl
    · exact before p onBoard
  rw [Board.calculateIndependentLifeArea, basic]
  dsimp only [Option.bind_eq_bind, Option.bind_some]
  rw [run]
  refine ⟨_, count, rfl, fun p onBoard => Eq.trans ?_ (same p onBoard)⟩
  dsimp only
  split_ifs
  · exact keep _ _ (keep _ _ copied) p onBoard
  · exact keep _ _ copied p onBoard
  · exact keep _ _ copied p onBoard
  · exact copied p onBoard

end Board
end KataGo.Game
