import KataGo.Game.AllPassAlive
import KataGo.History.Passes

/-! `endGameIfAllPassAlive` against `endAndScoreGameNow`. -/

namespace KataGo.Game
open KataGo.Lib

namespace BoardHistory

variable {h : BoardHistory} {board : Board} {area area' : Loc → Color}

/-- The points of an area, for White and against Black. -/
def areaScore (board : Board) (area : Loc → Color) : Int :=
  board.locs.foldl (fun score loc => score + pointScore (area loc)) 0

theorem areaScore_congr (same : ∀ loc ∈ board.locs, area' loc = area loc) : areaScore board area' = areaScore board area :=
  List.foldl_ext _ _ _ fun score loc onBoard => by rw [same loc onBoard]

/-- A count that carries the area along unchanged. -/
theorem foldl_carried {step : Int × (Loc → Color) → Loc → Int × (Loc → Color)} {l : List Loc}
    (each : ∀ loc ∈ l, ∀ score, step (score, area) loc = (score + pointScore (area loc), area)) (score : Int) :
    l.foldl step (score, area) = (l.foldl (fun score loc => score + pointScore (area loc)) score, area) := by
  induction l generalizing score with
  | nil => rfl
  | cons loc l ih =>
    rw [List.foldl_cons, List.foldl_cons, each loc List.mem_cons_self]
    exact ih (fun loc' member => each loc' (List.mem_cons_of_mem loc member)) _

/-- Ending a game does not change what it is scored with. -/
theorem boardScore_scoreGame (h : BoardHistory) (board : Board) (score : Int) :
    (h.scoreGame score).boardScore board = h.boardScore board := by
  unfold scoreGame takeLeftButton
  split_ifs <;> rfl

theorem scoreGame_scoreGame (h : BoardHistory) (score : Int) : (h.scoreGame score).scoreGame score = h.scoreGame score := by
  have taken : (h.scoreGame score).hasButton = false := by
    unfold scoreGame takeLeftButton setFinalScoreAndWinner
    cases button : h.hasButton with
    | true => rfl
    | false => exact button
  have kept : (h.scoreGame score).takeLeftButton = h.scoreGame score := if_neg (by rw [taken]; decide)
  obtain ⟨left, same⟩ : ∃ left, h.takeLeftButton = left := ⟨_, rfl⟩
  conv_lhs => rw [scoreGame, kept]
  simp only [scoreGame, same]
  rfl

/-- A game that has been ended is ended by nothing more. -/
theorem endAndScoreGameNow_again {ended : BoardHistory} (run : h.endAndScoreGameNow board = some ended) :
    ended.endAndScoreGameNow board = some ended := by
  obtain ⟨⟨score, counted⟩, counts, ends⟩ := Option.bind_eq_some_iff.mp run
  cases ends
  rw [endAndScoreGameNow, boardScore_scoreGame, counts]
  exact congrArg some (scoreGame_scoreGame h score)

variable [Zobrist]

/-- Without a group tax such a board has one score under all rules. -/
theorem boardScore_allPassAlive (consistent : board.Consistent)
    (alive : board.AllPassAlive h.rules.multiStoneSuicideLegal area) (untaxed : h.rules.taxRule ≠ .all) :
    ∃ counted, h.boardScore board = some (areaScore board area, counted) := by
  unfold boardScore
  cases h.rules.scoringRule with
  | area =>
    unfold countAreaScoreWhiteMinusBlack
    cases tax : h.rules.taxRule with
    | none =>
      obtain ⟨basicArea, run, -, same⟩ := alive.calculateArea_all consistent
      refine ⟨basicArea, ?_⟩
      rw [run, ← areaScore_congr same]
      rfl
    | seki =>
      obtain ⟨area', count, run, same⟩ := alive.calculateIndependentLifeArea consistent false true
      refine ⟨area', ?_⟩
      rw [run, ← areaScore_congr same]
      rfl
    | all => exact absurd tax untaxed
  | territory =>
    unfold countTerritoryAreaScoreWhiteMinusBlack
    obtain ⟨area', count, run, same⟩ :=
      alive.calculateIndependentLifeArea consistent (decide (h.rules.taxRule = .none)) false
    -- Every point is in the area, so no stone is scored by itself.
    have stones : ∀ loc ∈ board.locs, (area' loc).IsStone := fun loc onBoard => by
      rw [same loc onBoard]
      exact alive.stones loc onBoard
    refine ⟨area', ?_⟩
    rw [run, ← areaScore_congr same]
    dsimp only [Option.bind_eq_bind, Option.bind_some]
    rw [foldl_carried fun loc onBoard score => if_pos (stones loc onBoard), if_neg untaxed]
    rfl

/-- The early end of a game on a board where every point is pass-alive is its normal end, and to end the game
once more changes nothing. -/
theorem endGameIfAllPassAlive_eq (h : BoardHistory) (board : Board) (consistent : board.Consistent) :
    ∃ area ended, board.calculateArea false false false h.rules.multiStoneSuicideLegal = some area ∧
      h.endAndScoreGameNow board = some ended ∧ ended.endAndScoreGameNow board = some ended ∧
      h.endGameIfAllPassAlive board = some (if ∀ loc ∈ board.locs, (area loc).IsStone then ended else h) := by
  obtain ⟨⟨score, counted⟩, counts⟩ := h.boardScore_some consistent
  have normal : h.endAndScoreGameNow board = some (h.scoreGame score) := by
    rw [endAndScoreGameNow, counts]
    rfl
  obtain ⟨area, found⟩ : ∃ area, board.calculateArea false false false h.rules.multiStoneSuicideLegal = some area :=
    ⟨_, Board.calculateAreaInOrder_eq consistent (.inl rfl) (.inr rfl) false false false _⟩
  refine ⟨area, h.scoreGame score, found, normal, endAndScoreGameNow_again normal, ?_⟩
  rw [endGameIfAllPassAlive, found]
  dsimp only [Option.bind_eq_bind, Option.bind_some]
  simp only [List.all_eq_true, decide_eq_true_eq]
  by_cases stones : ∀ loc ∈ board.locs, (area loc).IsStone
  · rw [if_pos stones, if_pos stones]
    by_cases tax : h.rules.taxRule = .all
    · rw [if_pos tax, normal]
    · obtain ⟨counted', same⟩ := boardScore_allPassAlive consistent ⟨found, stones⟩ tax
      rw [counts] at same
      rw [if_neg tax, (Prod.mk.inj (Option.some.inj same)).1]
      rfl
  · rw [if_neg stones, if_neg stones]
    rfl

omit [Zobrist] in
/-- Three black stones own the whole of a small board, under territory scoring too. -/
theorem endGameIfAllPassAlive_eq_three :
    letI := Zobrist.blank
    ∃ board h h', threeStones = some board ∧
      blank .black { Rules.getTrompTaylorish with scoringRule := .territory, taxRule := .seki } = some h ∧
      h.endGameIfAllPassAlive board = some h' ∧ h.endAndScoreGameNow board = some h' ∧
      h'.finalWhiteMinusBlackScore = 3 / 2 := by
  let _ := Zobrist.blank
  have whole : (threeStones.bind fun board =>
      (blank .black { Rules.getTrompTaylorish with scoringRule := .territory, taxRule := .seki }).bind fun h =>
      (board.calculateArea false false false h.rules.multiStoneSuicideLegal).bind fun area =>
      (h.endAndScoreGameNow board).map fun h' =>
        (decide (∀ loc ∈ board.locs, (area loc).IsStone), h'.finalWhiteMinusBlackScore)) = some (true, 3 / 2) := by
    decide +kernel
  obtain ⟨board, made, whole⟩ := Option.bind_eq_some_iff.mp whole
  obtain ⟨h, begun, whole⟩ := Option.bind_eq_some_iff.mp whole
  obtain ⟨area, found, whole⟩ := Option.bind_eq_some_iff.mp whole
  obtain ⟨h', normal, result⟩ := Option.map_eq_some_iff.mp whole
  obtain ⟨stones, score⟩ := Prod.mk.inj result
  obtain ⟨b, made', consistent⟩ := threeStones_consistent
  rw [made] at made'
  obtain rfl := Option.some.inj made'
  obtain ⟨area', ended, found', normal', -, early⟩ := endGameIfAllPassAlive_eq h board consistent
  rw [found] at found'
  obtain rfl := Option.some.inj found'
  rw [normal] at normal'
  obtain rfl := Option.some.inj normal'
  rw [if_pos (of_decide_eq_true stones)] at early
  exact ⟨board, h, h', made, begun, early, normal, score⟩

end BoardHistory
end KataGo.Game
