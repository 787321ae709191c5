import KataGo.History.Calls

/-! What each stage of a move can change, and what a move consists of. -/

namespace KataGo.Game
open KataGo.Lib

namespace BoardHistory

variable [Zobrist] [KoMarkZobrist] {h h' : BoardHistory} {board board' : Board} {moveLoc : Loc} {movePla nextPla : Player}
  {table : Option KoHashTable} {spightlike wasPassForKo preventEncore moveIsIllegal : Bool}

section Fields

omit [Zobrist] [KoMarkZobrist]

variable (h : BoardHistory)

/-- With other fields about passes and the button. -/
def withPasses (koHashHistory : List Hash128) (firstTurnIdxWithKoHistory consecutiveEndingPasses : Nat)
    (hashesBeforeBlackPass hashesBeforeWhitePass : List Hash128) (hasButton : Bool) (whiteBonusScore : ℚ) : BoardHistory :=
  { h with
    koHashHistory, firstTurnIdxWithKoHistory, consecutiveEndingPasses, hashesBeforeBlackPass, hashesBeforeWhitePass,
    hasButton, whiteBonusScore }

/-- With other fields about kos in the encore. -/
def withKos (koRecapBlocked : Loc → Bool) (koRecapBlockHash : Hash128) (koCapturesInEncore : List EncoreKoCapture) :
    BoardHistory :=
  { h with koRecapBlocked, koRecapBlockHash, koCapturesInEncore }

/-- With another result. -/
def withResult (isPastNormalPhaseEnd isGameFinished isScored isNoResult isResignation : Bool) (winner : Player)
    (finalWhiteMinusBlackScore : ℚ) : BoardHistory :=
  { h with
    isPastNormalPhaseEnd, isGameFinished, isScored, isNoResult, isResignation, winner, finalWhiteMinusBlackScore }

end Fields

/-- The history that the stages of a move start from. -/
def opened (h : BoardHistory) : BoardHistory :=
  (if h.isGameFinished || h.isPastNormalPhaseEnd then h.capValidTurns else h).clearResult

omit [KoMarkZobrist] in
/-- A pass keeps the ko hashes or clears them, and keeps the button or takes it. -/
theorem updatePasses_some (run : h.updatePasses board moveLoc movePla = some (h', spightlike)) :
    ∃ koHashes first passes blacks whites button bonus,
      h' = h.withPasses koHashes first passes blacks whites button bonus ∧
      (koHashes = h.koHashHistory ∧ first = h.firstTurnIdxWithKoHistory ∨
        koHashes = [] ∧ first = h.moveHistory.length + 1) ∧
      (button = h.hasButton ∧ bonus = h.whiteBonusScore ∨
        h.hasButton = true ∧ button = false ∧ (bonus = h.whiteBonusScore + 1 / 2 ∨ bonus = h.whiteBonusScore + -1 / 2)) := by
  unfold updatePasses at run
  split_ifs at run with noPass button
  · cases run
    exact ⟨_, _, 0, _, _, _, _, rfl, .inl ⟨rfl, rfl⟩, .inl ⟨rfl, rfl⟩⟩
  · obtain ⟨-, run⟩ := guard_bind_eq_some.mp run
    cases run
    refine ⟨_, _, _, _, _, _, _, rfl, .inr ⟨rfl, rfl⟩, .inr ⟨button, rfl, ?_⟩⟩
    split_ifs
    · exact .inl rfl
    · exact .inr rfl
  · unfold countPass at run
    dsimp only at run
    cases movePla with
    | empty => cases run
    | wall => cases run
    | black =>
      cases run
      split_ifs
      · exact ⟨_, _, _, _, _, _, _, rfl, .inr ⟨rfl, rfl⟩, .inl ⟨rfl, rfl⟩⟩
      · exact ⟨_, _, _, _, _, _, _, rfl, .inl ⟨rfl, rfl⟩, .inl ⟨rfl, rfl⟩⟩
    | white =>
      cases run
      split_ifs
      · exact ⟨_, _, _, _, _, _, _, rfl, .inr ⟨rfl, rfl⟩, .inl ⟨rfl, rfl⟩⟩
      · exact ⟨_, _, _, _, _, _, _, rfl, .inl ⟨rfl, rfl⟩, .inl ⟨rfl, rfl⟩⟩

omit [Zobrist] in
theorem setKoRecapBlocked_eq (h : BoardHistory) (loc : Loc) (b : Bool) :
    ∃ blocked hash, h.setKoRecapBlocked loc b = h.withKos blocked hash h.koCapturesInEncore := by
  unfold setKoRecapBlocked
  split_ifs
  · exact ⟨_, _, rfl⟩
  · exact ⟨_, _, rfl⟩

omit [Zobrist] in
theorem unmarkEmpty_eq (h : BoardHistory) (board : Board) :
    ∃ blocked hash, h.unmarkEmpty board = h.withKos blocked hash h.koCapturesInEncore := by
  unfold unmarkEmpty
  induction board.locs generalizing h with
  | nil => exact ⟨_, _, rfl⟩
  | cons loc locs ih =>
    rw [List.foldl_cons]
    split_ifs
    · obtain ⟨blocked, hash, first⟩ := h.setKoRecapBlocked_eq loc false
      obtain ⟨blocked', hash', rest⟩ := ih (h.setKoRecapBlocked loc false)
      rw [rest, first]
      exact ⟨blocked', hash', rfl⟩
    · exact ih h

/-- Only the fields about kos change, and none of them outside the encore. -/
theorem playOrPassForKo_some (run : h.playOrPassForKo board moveLoc movePla = some (h', board', wasPassForKo)) :
    ∃ blocked hash captures, h' = h.withKos blocked hash captures ∧
      (h.encorePhase = 0 → h' = h ∧ wasPassForKo = false ∧ board.playMoveAssumeLegal moveLoc movePla = some board') := by
  unfold playOrPassForKo at run
  split at run
  next blocked passes =>
    cases run
    obtain ⟨marks, hash, kos⟩ := h.setKoRecapBlocked_eq blocked false
    refine ⟨marks, hash, _, kos, fun main => ?_⟩
    unfold passForKoLoc at passes
    split_ifs at passes with encore
    all_goals exact absurd main (Nat.pos_iff_ne_zero.mp encore.1)
  next =>
    obtain ⟨played, plays, run⟩ := Option.bind_eq_some_iff.mp run
    split_ifs at run with encore
    · unfold absorbKo at run
      split_ifs at run with ko
      · cases run
        obtain ⟨marks, hash, kos⟩ := h.setKoRecapBlocked_eq moveLoc true
        obtain ⟨marks', hash', kos'⟩ := unmarkEmpty_eq { h.setKoRecapBlocked moveLoc true with
          koCapturesInEncore := h.koCapturesInEncore ++ [⟨board.posHash, moveLoc, movePla⟩] } { played with koLoc := nullLoc }
        refine ⟨marks', hash', h.koCapturesInEncore ++ [⟨board.posHash, moveLoc, movePla⟩], kos'.trans ?_, fun main => absurd main (Nat.pos_iff_ne_zero.mp encore)⟩
        rw [kos]
        rfl
      · cases run
        obtain ⟨marks, hash, kos⟩ := unmarkEmpty_eq h board'
        exact ⟨marks, hash, _, kos, fun main => absurd main (Nat.pos_iff_ne_zero.mp encore)⟩
    · cases run
      exact ⟨_, _, _, rfl, fun _ => ⟨rfl, rfl, plays⟩⟩

omit [KoMarkZobrist] in
theorem updateSuperKoBanned_some (run : h.updateSuperKoBanned board nextPla table = some h') :
    ∃ superKoBanned, h' = { h with superKoBanned } := by
  unfold updateSuperKoBanned at run
  split_ifs at run with main encore
  · obtain ⟨-, run⟩ := guard_bind_eq_some.mp run
    obtain ⟨banned, -, run⟩ := Option.bind_eq_some_iff.mp run
    cases run
    exact ⟨_, rfl⟩
  · cases run
    exact ⟨_, rfl⟩
  · cases run
    exact ⟨_, rfl⟩

omit [Zobrist] [KoMarkZobrist] in
theorem chill_some (run : h.chill moveLoc movePla wasPassForKo = some h') :
    ∃ whiteBonusScore, h' = { h with whiteBonusScore } ∧ (h.rules.scoringRule = .area → h' = h) := by
  unfold chill at run
  split_ifs at run with territory
  · refine ⟨h'.whiteBonusScore, ?_, fun area => absurd territory.1 (by rw [area]; exact ScoringRule.noConfusion)⟩
    cases movePla with
    | empty => cases run
    | wall => cases run
    | black =>
      cases run
      rfl
    | white =>
      cases run
      rfl
  · cases run
    exact ⟨_, rfl, fun _ => rfl⟩

omit [Zobrist] [KoMarkZobrist] in
theorem updateHandicapBonus_eq (h : BoardHistory) (moveLoc : Loc) (movePla : Player) : ∃ whiteHasMoved whiteHandicapBonusScore,
    h.updateHandicapBonus moveLoc movePla = { h with whiteHasMoved, whiteHandicapBonusScore } := by
  unfold updateHandicapBonus
  dsimp only
  split_ifs
  all_goals exact ⟨_, _, rfl⟩

omit [Zobrist] [KoMarkZobrist] in
theorem scoreGame_eq (h : BoardHistory) (score : Int) : ∃ hasButton whiteBonusScore winner,
    h.scoreGame score = ({ h with hasButton, whiteBonusScore }.withResult false true true false false winner
      (score + whiteBonusScore + h.whiteHandicapBonusScore + h.rules.komi)) ∧
    (hasButton = h.hasButton ∧ whiteBonusScore = h.whiteBonusScore ∨ h.hasButton = true ∧ hasButton = false ∧
      (whiteBonusScore = h.whiteBonusScore + 1 / 2 ∨ whiteBonusScore = h.whiteBonusScore + -1 / 2)) := by
  unfold scoreGame takeLeftButton
  split_ifs with button white
  · exact ⟨_, _, _, rfl, .inr ⟨button, rfl, .inl rfl⟩⟩
  · exact ⟨_, _, _, rfl, .inr ⟨button, rfl, .inr rfl⟩⟩
  · exact ⟨_, _, _, rfl, .inl ⟨rfl, rfl⟩⟩

omit [KoMarkZobrist] in
/-- A phase that ends is scored, is marked as past its end, or leads to the encore. -/
theorem endPhase_some (run : h.endPhase board movePla spightlike preventEncore = some h') :
    h' = h ∨ (∃ score area, h.boardScore board = some (score, area) ∧ h' = h.scoreGame score) ∨
      h.rules.scoringRule = .territory ∧ h.encorePhase < 2 ∧
        (h' = { h.capValidTurns with isPastNormalPhaseEnd := true } ∨ h' = h.enterEncore board movePla) := by
  have scored : h.endAndScoreGameNow board = some h' →
      ∃ score area, h.boardScore board = some (score, area) ∧ h' = h.scoreGame score := by
    intro ended
    obtain ⟨⟨score, area⟩, counts, ended⟩ := Option.bind_eq_some_iff.mp ended
    cases ended
    exact ⟨score, area, counts, rfl⟩
  unfold endPhase at run
  by_cases ends : h.consecutiveEndingPasses ≥ 2 ∨ spightlike
  · rw [if_pos ends] at run
    cases scoring : h.rules.scoringRule with
    | area =>
      rw [scoring] at run
      exact .inr (.inl (scored (guard_bind_eq_some.mp run).2))
    | territory =>
      rw [scoring] at run
      dsimp only at run
      split_ifs at run with last prevent
      · exact .inr (.inl (scored run))
      · cases run
        exact .inr (.inr ⟨rfl, Nat.not_le.mp last, .inl rfl⟩)
      · cases run
        exact .inr (.inr ⟨rfl, Nat.not_le.mp last, .inr rfl⟩)
  · rw [if_neg ends] at run
    cases run
    exact .inl rfl

omit [Zobrist] [KoMarkZobrist] in
theorem breakLongCycles_some (run : h.breakLongCycles moveLoc table = some h') :
    h' = h ∨ h' = { h with isNoResult := true, isGameFinished := true } := by
  unfold breakLongCycles at run
  split_ifs at run
  · obtain ⟨_, -, run⟩ := Option.bind_eq_some_iff.mp run
    obtain ⟨occurrences, -, run⟩ := Option.bind_eq_some_iff.mp run
    cases run
    split_ifs
    · exact .inr rfl
    · exact .inl rfl
  · cases run
    exact .inl rfl

/-- The stages of a move, one after the other. -/
theorem makeBoardMoveAssumeLegal_some
    (run : h.makeBoardMoveAssumeLegal board moveLoc movePla table preventEncore = some (h', board')) :
    ∃ spightlike wasPassForKo moveIsIllegal h₁ h₂ h₃ h₄ h₅, h.opened.updatePasses board moveLoc movePla = some (h₁, spightlike) ∧
      h₁.playOrPassForKo board moveLoc movePla = some (h₂, board', wasPassForKo) ∧
      (h₂.recordMove board' moveLoc movePla preventEncore moveIsIllegal).updateSuperKoBanned board' (getOpp movePla) table =
        some h₃ ∧
      h₃.chill moveLoc movePla wasPassForKo = some h₄ ∧
      (h₄.updateHandicapBonus moveLoc movePla).endPhase board' movePla spightlike preventEncore = some h₅ ∧
      h₅.breakLongCycles moveLoc table = some h' := by
  unfold makeBoardMoveAssumeLegal at run
  obtain ⟨⟨h₁, spightlike⟩, passes, run⟩ := Option.bind_eq_some_iff.mp run
  obtain ⟨⟨h₂, played, wasPassForKo⟩, plays, run⟩ := Option.bind_eq_some_iff.mp run
  obtain ⟨h₃, bans, run⟩ := Option.bind_eq_some_iff.mp run
  obtain ⟨h₄, chills, run⟩ := Option.bind_eq_some_iff.mp run
  obtain ⟨h₅, ends, run⟩ := Option.bind_eq_some_iff.mp run
  obtain ⟨h₆, breaks, run⟩ := Option.bind_eq_some_iff.mp run
  cases run
  exact ⟨spightlike, wasPassForKo, _, h₁, h₂, h₃, h₄, h₅, passes, plays, bans, chills, ends, breaks⟩

end BoardHistory
end KataGo.Game
