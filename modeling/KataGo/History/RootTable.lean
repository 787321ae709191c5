import KataGo.History.Stages

/-! A table of the ko hashes at some point of a game answers for all later points. It stands for a
prefix of the hashes as long as they start at the same turn, and once they were cleared they start
at a later turn than any before. -/

namespace KataGo.Game
open KataGo.Lib

namespace BoardHistory

variable [Zobrist] [KoMarkZobrist] {h h' h₀ h₁ h₂ : BoardHistory} {board board' : Board} {moveLoc : Loc} {movePla : Player}
  {table : Option KoHashTable} {T : KoHashTable} {spightlike wasPassForKo preventEncore moveIsIllegal : Bool}

section Turns

omit [Zobrist] [KoMarkZobrist]

/-- There is one ko hash for every turn from the first one on. -/
structure Tracked (h : BoardHistory) : Prop where
  turns : h.firstTurnIdxWithKoHistory + h.koHashHistory.length = h.moveHistory.length + 1
  nonempty : h.koHashHistory ≠ []

/-- The later history has all ko hashes of the earlier one, or has been cleared since. -/
structure Later (h h' : BoardHistory) : Prop where
  moves : h.moveHistory.length ≤ h'.moveHistory.length
  koHashes : h'.firstTurnIdxWithKoHistory = h.firstTurnIdxWithKoHistory ∧ h.koHashHistory <+: h'.koHashHistory ∨
    h.moveHistory.length < h'.firstTurnIdxWithKoHistory

/-- Nothing about the turns differs. -/
structure SameTurns (h h' : BoardHistory) : Prop where
  moves : h'.moveHistory = h.moveHistory
  koHashes : h'.koHashHistory = h.koHashHistory
  first : h'.firstTurnIdxWithKoHistory = h.firstTurnIdxWithKoHistory

theorem SameTurns.trans (one : SameTurns h₀ h₁) (two : SameTurns h₁ h₂) : SameTurns h₀ h₂ :=
  ⟨two.moves.trans one.moves, two.koHashes.trans one.koHashes, two.first.trans one.first⟩

theorem SameTurns.tracked (same : SameTurns h h') (tracked : h.Tracked) : h'.Tracked := by
  refine ⟨?_, by rw [same.koHashes]; exact tracked.nonempty⟩
  rw [same.moves, same.koHashes, same.first]
  exact tracked.turns

theorem SameTurns.later (same : SameTurns h h') (later : Later h₀ h) : Later h₀ h' := by
  constructor
  · rw [same.moves]
    exact later.moves
  · rw [same.koHashes, same.first]
    exact later.koHashes

theorem Later.refl (h : BoardHistory) : Later h h := ⟨Nat.le_refl _, .inl ⟨rfl, List.prefix_rfl⟩⟩

theorem Later.trans (first : Later h₀ h₁) (second : Later h₁ h₂) : Later h₀ h₂ := by
  refine ⟨first.moves.trans second.moves, ?_⟩
  rcases second.koHashes with ⟨same, longer⟩ | cleared
  · rw [same]
    exact first.koHashes.imp_left fun kept => ⟨kept.1, kept.2.trans longer⟩
  · exact .inr (first.moves.trans_lt cleared)

theorem Tracked.first_le (tracked : h.Tracked) : h.firstTurnIdxWithKoHistory ≤ h.moveHistory.length := by
  have positive := List.length_pos_iff.mpr tracked.nonempty
  have := tracked.turns
  omega

/-- Where the history starts at the turn of the table, its oldest hashes are those of the table. -/
def Agrees (T : KoHashTable) (h : BoardHistory) : Prop :=
  h.firstTurnIdxWithKoHistory = T.firstTurnIdxWithKoHistory →
    h.firstTurnIdxWithKoHistory + h.koHashHistory.length = h.moveHistory.length + 1 ∧
      ∃ old new, h.koHashHistory = old ++ new ∧ T.CopyOf old h.firstTurnIdxWithKoHistory

theorem Later.agrees (later : Later h₀ h) (tracked : h₀.Tracked) (copy : T.CopyOf h₀.koHashHistory h₀.firstTurnIdxWithKoHistory)
    (turns : h.firstTurnIdxWithKoHistory + h.koHashHistory.length = h.moveHistory.length + 1) : h.Agrees T := by
  intro same
  refine ⟨turns, ?_⟩
  rcases later.koHashes with ⟨first, new, split⟩ | cleared
  · exact ⟨h₀.koHashHistory, new, split.symm, first ▸ copy⟩
  · have := tracked.first_le
    have := copy.first
    omega

theorem Agrees.koHashOccursInHistory (agrees : h.Agrees T) (koHash : Hash128) :
    h.koHashOccursInHistory koHash (some T) = h.koHashOccursInHistory koHash none := by
  unfold BoardHistory.koHashOccursInHistory
  by_cases same : h.firstTurnIdxWithKoHistory = T.firstTurnIdxWithKoHistory
  · obtain ⟨turns, old, new, split, copy⟩ := agrees same
    have short : T.size ≤ h.koHashHistory.length := by
      rw [copy.size, split, List.length_append]
      exact Nat.le_add_right _ _
    simp only [Option.filter_some, same, decide_true, if_true]
    rw [← same, guard, if_pos turns, guard, if_pos short]
    show some (T.containsHash koHash || (h.koHashHistory.drop T.size).contains koHash) = some (h.koHashHistory.contains koHash)
    rw [copy.contains, copy.size, split, List.drop_left, List.contains_append]
  · simp only [Option.filter_some, same, decide_false]
    rfl

theorem Agrees.numberOfKoHashOccurrencesInHistory (agrees : h.Agrees T) (koHash : Hash128) :
    h.numberOfKoHashOccurrencesInHistory koHash (some T) = h.numberOfKoHashOccurrencesInHistory koHash none := by
  unfold BoardHistory.numberOfKoHashOccurrencesInHistory
  by_cases same : h.firstTurnIdxWithKoHistory = T.firstTurnIdxWithKoHistory
  · obtain ⟨turns, old, new, split, copy⟩ := agrees same
    have short : T.size ≤ h.koHashHistory.length := by
      rw [copy.size, split, List.length_append]
      exact Nat.le_add_right _ _
    simp only [Option.filter_some, same, decide_true, if_true]
    rw [← same, guard, if_pos turns, guard, if_pos short]
    show some (T.numberOfOccurrencesOfHash koHash + (h.koHashHistory.drop T.size).count koHash) =
      some (h.koHashHistory.count koHash)
    rw [copy.numberOfOccurrences, copy.size, split, List.drop_left, List.count_append]
  · simp only [Option.filter_some, same, decide_false]
    rfl

end Turns

section Moves

omit [Zobrist] [KoMarkZobrist] in
theorem opened_later (h : BoardHistory) : h.opened.moveHistory = h.moveHistory ∧ h.opened.koHashHistory = h.koHashHistory ∧
    h.opened.firstTurnIdxWithKoHistory = h.firstTurnIdxWithKoHistory := by
  unfold opened
  split_ifs
  · exact ⟨rfl, rfl, rfl⟩
  · exact ⟨rfl, rfl, rfl⟩

/-- When a move has been recorded, its hash has been added to the earlier ones or is the only one. -/
theorem Tracked.recorded (tracked : h.Tracked) (preventEncore moveIsIllegal : Bool) (passes : h.opened.updatePasses board moveLoc movePla = some (h₁, spightlike))
    (plays : h₁.playOrPassForKo board moveLoc movePla = some (h₂, board', wasPassForKo)) :
    (h₂.recordMove board' moveLoc movePla preventEncore moveIsIllegal).Tracked ∧
      h.Later (h₂.recordMove board' moveLoc movePla preventEncore moveIsIllegal) ∧
        h.moveHistory.length < (h₂.recordMove board' moveLoc movePla preventEncore moveIsIllegal).moveHistory.length := by
  obtain ⟨moves, hashes, start⟩ := h.opened_later
  obtain ⟨koHashes, first, _, _, _, _, _, rfl, kept, -⟩ := updatePasses_some passes
  obtain ⟨_, _, _, rfl, -⟩ := playOrPassForKo_some plays
  have moved : (h.opened.moveHistory ++ [(⟨moveLoc, movePla⟩ : Move)]).length = h.moveHistory.length + 1 := by
    rw [moves, List.length_append]
    rfl
  rw [moves, hashes, start] at kept
  refine ⟨⟨?_, fun empty => List.append_ne_nil_of_right_ne_nil _ (List.cons_ne_nil _ _) empty⟩, ?_, ?_⟩
  · show first + (koHashes ++ [_]).length = (h.opened.moveHistory ++ [_]).length + 1
    rw [moved, List.length_append, List.length_singleton]
    have := tracked.turns
    rcases kept with ⟨rfl, rfl⟩ | ⟨rfl, rfl⟩
    · omega
    · rw [List.length_nil]
  · refine ⟨moved.symm ▸ Nat.le_succ _, ?_⟩
    rcases kept with ⟨rfl, rfl⟩ | ⟨rfl, rfl⟩
    · exact .inl ⟨rfl, List.prefix_append _ _⟩
    · exact .inr (Nat.lt_succ_self _)
  · exact moved.symm ▸ Nat.lt_succ_self _

omit [KoMarkZobrist] in
/-- Bans and bonuses have nothing to do with the turns. -/
theorem scored_sameTurns {h₃ h₄ : BoardHistory} (bans : h.updateSuperKoBanned board (getOpp movePla) table = some h₃)
    (chills : h₃.chill moveLoc movePla wasPassForKo = some h₄) : SameTurns h (h₄.updateHandicapBonus moveLoc movePla) := by
  obtain ⟨_, banned⟩ := updateSuperKoBanned_some bans
  obtain ⟨_, chilled, -⟩ := chill_some chills
  obtain ⟨_, _, bonus⟩ := h₄.updateHandicapBonus_eq moveLoc movePla
  rw [bonus, chilled, banned]
  exact ⟨rfl, rfl, rfl⟩

omit [KoMarkZobrist] in
theorem Tracked.endPhase (tracked : h.Tracked) (ends : h.endPhase board movePla spightlike preventEncore = some h')
    (moved : h₀.Later h) (earlier : h₀.moveHistory.length < h.moveHistory.length) : h'.Tracked ∧ h₀.Later h' := by
  rcases endPhase_some ends with rfl | ⟨score, area, -, rfl⟩ | ⟨-, -, rfl | rfl⟩
  · exact ⟨tracked, moved⟩
  · obtain ⟨_, _, _, scored, -⟩ := h.scoreGame_eq score
    have same : SameTurns h (h.scoreGame score) := by
      rw [scored]
      exact ⟨rfl, rfl, rfl⟩
    exact ⟨same.tracked tracked, same.later moved⟩
  · have same : SameTurns h { h.capValidTurns with isPastNormalPhaseEnd := true } := ⟨rfl, rfl, rfl⟩
    exact ⟨same.tracked tracked, same.later moved⟩
  · exact ⟨⟨rfl, List.cons_ne_nil _ _⟩, moved.moves, .inr earlier⟩

/-- When a phase has been ended or not, the turns still count. -/
theorem Tracked.ended {h₃ h₄ h₅ : BoardHistory} (tracked : h.Tracked)
    (passes : h.opened.updatePasses board moveLoc movePla = some (h₁, spightlike))
    (plays : h₁.playOrPassForKo board moveLoc movePla = some (h₂, board', wasPassForKo))
    (bans : (h₂.recordMove board' moveLoc movePla preventEncore moveIsIllegal).updateSuperKoBanned board' (getOpp movePla) table =
      some h₃)
    (chills : h₃.chill moveLoc movePla wasPassForKo = some h₄)
    (ends : (h₄.updateHandicapBonus moveLoc movePla).endPhase board' movePla spightlike preventEncore = some h₅) :
    h₅.Tracked ∧ h.Later h₅ := by
  obtain ⟨tracked₂, later₂, moved⟩ := tracked.recorded preventEncore moveIsIllegal passes plays
  have same := scored_sameTurns bans chills
  refine (same.tracked tracked₂).endPhase ends (same.later later₂) ?_
  rw [same.moves]
  exact moved

/-- A move keeps the count of the turns, and keeps the ko hashes unless it clears them. -/
theorem Tracked.move (tracked : h.Tracked)
    (run : h.makeBoardMoveAssumeLegal board moveLoc movePla table preventEncore = some (h', board')) :
    h'.Tracked ∧ h.Later h' := by
  obtain ⟨_, _, _, h₁, h₂, h₃, h₄, h₅, passes, plays, bans, chills, ends, breaks⟩ := makeBoardMoveAssumeLegal_some run
  obtain ⟨tracked₅, later₅⟩ := tracked.ended passes plays bans chills ends
  rcases breakLongCycles_some breaks with rfl | rfl
  · exact ⟨tracked₅, later₅⟩
  · exact ⟨⟨tracked₅.turns, tracked₅.nonempty⟩, later₅.moves, later₅.koHashes⟩

omit [KoMarkZobrist] in
theorem repeatsAt_table {nextPla : Player} (agrees : h.Agrees T) :
    h.repeatsAt board nextPla (some T) = h.repeatsAt board nextPla none := by
  funext loc
  unfold repeatsAt
  simp only [agrees.koHashOccursInHistory]

omit [KoMarkZobrist] in
theorem updateSuperKoBanned_table {nextPla : Player} (agrees : h.Agrees T) :
    h.updateSuperKoBanned board nextPla (some T) = h.updateSuperKoBanned board nextPla none := by
  unfold updateSuperKoBanned banRepetitions
  rw [repeatsAt_table agrees]

omit [Zobrist] [KoMarkZobrist] in
theorem breakLongCycles_table (agrees : h.Agrees T) : h.breakLongCycles moveLoc (some T) = h.breakLongCycles moveLoc none := by
  unfold breakLongCycles
  simp only [agrees.numberOfKoHashOccurrencesInHistory]

/-- A move does not depend on a table from an earlier point of the game. -/
theorem Later.makeBoardMoveAssumeLegal_table (later : h₀.Later h) (tracked₀ : h₀.Tracked) (tracked : h.Tracked)
    (copy : T.CopyOf h₀.koHashHistory h₀.firstTurnIdxWithKoHistory) :
    h.makeBoardMoveAssumeLegal board moveLoc movePla (some T) preventEncore =
      h.makeBoardMoveAssumeLegal board moveLoc movePla none preventEncore := by
  unfold makeBoardMoveAssumeLegal
  refine Option.bind_congr fun (h₁, spightlike) passes => ?_
  refine Option.bind_congr fun (h₂, board', wasPassForKo) plays => ?_
  dsimp only
  obtain ⟨tracked₂, later₂, -⟩ := tracked.recorded preventEncore
    (!(if h.isGameFinished || h.isPastNormalPhaseEnd then h.capValidTurns else h).isLegal board moveLoc movePla) passes plays
  rw [updateSuperKoBanned_table ((later.trans later₂).agrees tracked₀ copy tracked₂.turns)]
  refine Option.bind_congr fun h₃ bans => ?_
  refine Option.bind_congr fun h₄ chills => ?_
  refine Option.bind_congr fun h₅ ends => ?_
  obtain ⟨tracked₅, later₅⟩ := tracked.ended passes plays bans chills ends
  rw [breakLongCycles_table ((later.trans later₅).agrees tracked₀ copy tracked₅.turns)]

end Moves

section Calls

omit [KoMarkZobrist] in
theorem clear_tracked {pla : Player} {r : Rules} {ePhase : Nat} (run : h.clear board pla r ePhase = some h') : h'.Tracked := by
  obtain ⟨-, run⟩ := guard_bind_eq_some.mp run
  obtain ⟨-, run⟩ := guard_bind_eq_some.mp run
  cases run
  exact ⟨rfl, List.cons_ne_nil _ _⟩

omit [Zobrist] [KoMarkZobrist] in
theorem scoreGame_sameTurns (h : BoardHistory) (score : Int) : SameTurns h (h.scoreGame score) := by
  obtain ⟨_, _, _, scored, -⟩ := h.scoreGame_eq score
  rw [scored]
  exact ⟨rfl, rfl, rfl⟩

omit [Zobrist] [KoMarkZobrist] in
theorem endAndScoreGameNow_sameTurns (run : h.endAndScoreGameNow board = some h') : SameTurns h h' := by
  obtain ⟨_, -, run⟩ := Option.bind_eq_some_iff.mp run
  cases run
  exact h.scoreGame_sameTurns _

end Calls

end BoardHistory

open BoardHistory

namespace Match

variable [Zobrist] [KoMarkZobrist] {g g₀ g' start : Match} {call : Call} {calls : List Call} {board : Board} {pla : Player}
  {r : Rules} {ePhase : Nat} {moveLoc : Loc} {movePla : Player} {preventEncore : Bool} {T : KoHashTable}

theorem tracked_move {table : Option KoHashTable} (tracked : g.hist.Tracked)
    (run : g.move table moveLoc movePla preventEncore = some g') : g'.hist.Tracked ∧ g.hist.Later g'.hist := by
  obtain ⟨⟨hist, board⟩, moved, run⟩ := Option.bind_eq_some_iff.mp run
  cases run
  exact tracked.move moved

/-- Every call keeps one ko hash for every turn. -/
theorem tracked_call (tracked : g.hist.Tracked) (run : g.call call = some g') : g'.hist.Tracked := by
  cases call with
  | clear board pla r ePhase =>
    obtain ⟨hist, cleared, run⟩ := Option.bind_eq_some_iff.mp run
    cases run
    exact clear_tracked cleared
  | makeBoardMoveAssumeLegal moveLoc movePla preventEncore => exact (tracked_move tracked run).1
  | makeBoardMoveTolerant moveLoc movePla =>
    obtain ⟨⟨hist, board, suc⟩, moved, run⟩ := Option.bind_eq_some_iff.mp run
    cases run
    unfold makeBoardMoveTolerant at moved
    split_ifs at moved
    · cases moved
      exact tracked
    · cases moved
      exact tracked
    · obtain ⟨⟨hist', board'⟩, played, moved⟩ := Option.bind_eq_some_iff.mp moved
      cases moved
      exact (tracked.move played).1
  | setKomi newKomi =>
    cases run
    unfold setKomi
    dsimp only
    split_ifs
    all_goals exact ⟨tracked.turns, tracked.nonempty⟩
  | setInitialTurnNumber n =>
    cases run
    exact ⟨tracked.turns, tracked.nonempty⟩
  | setAssumeMultipleStartingBlackMovesAreHandicap b =>
    cases run
    exact ⟨tracked.turns, tracked.nonempty⟩
  | setOverrideNumHandicapStones n =>
    cases run
    exact ⟨tracked.turns, tracked.nonempty⟩
  | endGameIfAllPassAlive =>
    obtain ⟨hist, ended, run⟩ := Option.bind_eq_some_iff.mp run
    cases run
    obtain ⟨area, -, ended⟩ := Option.bind_eq_some_iff.mp ended
    split_ifs at ended
    · exact (endAndScoreGameNow_sameTurns ended).tracked tracked
    · cases ended
      exact (g.hist.scoreGame_sameTurns _).tracked tracked
    · cases ended
      exact tracked
  | endAndScoreGameNow =>
    obtain ⟨hist, ended, run⟩ := Option.bind_eq_some_iff.mp run
    cases run
    exact (endAndScoreGameNow_sameTurns ended).tracked tracked
  | setWinnerByResignation pla =>
    cases run
    exact ⟨tracked.turns, tracked.nonempty⟩

theorem tracked_run (tracked : g.hist.Tracked) (run : g.run calls = some g') : g'.hist.Tracked := by
  induction calls generalizing g with
  | nil =>
    cases run
    exact tracked
  | cons call calls ih =>
    obtain ⟨g₁, called, rest⟩ := Option.bind_eq_some_iff.mp run
    exact ih (tracked_call tracked called) rest

omit [KoMarkZobrist] in
theorem tracked_new (begun : Match.new board pla r ePhase = some start) : start.hist.Tracked := by
  obtain ⟨hist, made, begun⟩ := Option.bind_eq_some_iff.mp begun
  cases begun
  obtain ⟨blank, -, cleared⟩ := Option.bind_eq_some_iff.mp
    (show (BoardHistory.blank pla r).bind (fun h => h.clear board pla r ePhase) = some hist from made)
  exact clear_tracked cleared

/-- A game goes the same way with a table of the ko hashes at any earlier point and without one. -/
theorem rootKoHashTable_neutral (begun : Match.new board pla r ePhase = some start) (reached : start.run calls = some g₀)
    (computed : KoHashTable.recompute g₀.hist = some T) (moves : List (Loc × Player × Bool)) :
    moves.foldlM (fun g m => g.move (some T) m.1 m.2.1 m.2.2) g₀ = moves.foldlM (fun g m => g.move none m.1 m.2.1 m.2.2) g₀ := by
  have tracked₀ := tracked_run (tracked_new begun) reached
  have copy := KoHashTable.recompute_copyOf computed
  have same : ∀ (moves : List (Loc × Player × Bool)) (g : Match), g.hist.Tracked → g₀.hist.Later g.hist →
      moves.foldlM (fun g m => g.move (some T) m.1 m.2.1 m.2.2) g = moves.foldlM (fun g m => g.move none m.1 m.2.1 m.2.2) g := by
    intro moves
    induction moves with
    | nil => exact fun _ _ _ => rfl
    | cons m moves ih =>
      intro g tracked later
      have first : g.move (some T) m.1 m.2.1 m.2.2 = g.move none m.1 m.2.1 m.2.2 := by
        rw [Match.move, later.makeBoardMoveAssumeLegal_table tracked₀ tracked copy]
        rfl
      rw [List.foldlM_cons, List.foldlM_cons, first]
      refine Option.bind_congr fun g' moved => ?_
      obtain ⟨tracked', later'⟩ := tracked_move tracked moved
      exact ih g' tracked' (later.trans later')
  exact same moves g₀ tracked₀ (Later.refl _)

omit [Zobrist] [KoMarkZobrist] in
/-- On a board of four points, with a table from after Black's first move. -/
theorem rootKoHashTable_neutral_opening :
    letI := Zobrist.blank
    letI := KoMarkZobrist.blank
    ∃ board start g₀ T, init 2 2 = some board ∧ Match.new board .black .getTrompTaylorish 0 = some start ∧
      start.run [.makeBoardMoveAssumeLegal (Location.getLoc 0 0 2) .black false] = some g₀ ∧
      KoHashTable.recompute g₀.hist = some T ∧
      [(Location.getLoc 1 1 2, Color.white, false)].foldlM (fun g m => g.move (some T) m.1 m.2.1 m.2.2) g₀ =
        [(Location.getLoc 1 1 2, Color.white, false)].foldlM (fun g m => g.move none m.1 m.2.1 m.2.2) g₀ := by
  let _ := Zobrist.blank
  let _ := KoMarkZobrist.blank
  have whole : ((init 2 2).bind fun board => (Match.new board .black .getTrompTaylorish 0).bind fun start =>
      (start.run [.makeBoardMoveAssumeLegal (Location.getLoc 0 0 2) .black false]).bind fun g₀ =>
        KoHashTable.recompute g₀.hist).isSome = true := by decide +kernel
  obtain ⟨T, whole⟩ := Option.isSome_iff_exists.mp whole
  obtain ⟨board, made, whole⟩ := Option.bind_eq_some_iff.mp whole
  obtain ⟨start, begun, whole⟩ := Option.bind_eq_some_iff.mp whole
  obtain ⟨g₀, reached, computed⟩ := Option.bind_eq_some_iff.mp whole
  exact ⟨board, start, g₀, T, made, begun, reached, computed, rootKoHashTable_neutral begun reached computed _⟩

end Match
end KataGo.Game
