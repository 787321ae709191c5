import KataGo.Paired.Scan

/-! The outcome and the margin of a game, which are read from different fields of its row. -/

namespace KataGo.Paired
open KataGo.Lib

/-- A game with a numeric margin has an outcome that goes with it. -/
def OutcomeMatchesMargin (c : Context) : Prop :=
  ∀ margin, c.candidateMargin = some margin → ∃ outcome, c.outcome = some outcome ∧
    (outcome = 1 → 0 < margin) ∧ (outcome = -1 → margin < 0) ∧ (outcome = 0 → margin = 0)

/-- The winner that a row names is the one that its score gives. -/
def WinnerMatchesScore (row : Row) : Prop :=
  ∀ score, finiteNumber (Json.get row "finalWhiteMinusBlackScore") = some score →
    ((rowWinner row).1 = some "W" → 0 < score) ∧ ((rowWinner row).1 = some "B" → score < 0) ∧
      ((rowWinner row).1 = some "draw" → score = 0)

theorem loss_ne_win : (-1 : ℚ) ≠ 1 := by decide

section Row

variable {candidateBot : Value} {index : Nat} {row : Row} {seen : List (String × Nat)}

theorem botIssues_clean (clean : rowIssues seen (rowContext candidateBot index row) = []) :
    botIssues (rowContext candidateBot index row) = [] := by
  simp only [rowIssues, List.append_eq_nil_iff] at clean
  exact clean.1.1.2

theorem resultIssues_clean (clean : rowIssues seen (rowContext candidateBot index row) = []) :
    resultIssues (rowContext candidateBot index row) = [] := by
  simp only [rowIssues, List.append_eq_nil_iff] at clean
  exact clean.2

/-- The candidate plays one of the colours of a clean row. -/
theorem one_color (clean : rowIssues seen (rowContext candidateBot index row) = []) :
    sameJson (Json.get row "blackBot") candidateBot ≠ sameJson (Json.get row "whiteBot") candidateBot := by
  have bots := botIssues_clean clean
  simp only [botIssues, List.append_eq_nil_iff, issueIf_eq_nil, beq_eq_false_iff_ne] at bots
  exact bots.1.2

theorem no_turnLimit (clean : rowIssues seen (rowContext candidateBot index row) = []) :
    (flag row "hitTurnLimit").1 = false := by
  have result := resultIssues_clean clean
  simp only [resultIssues, List.append_eq_nil_iff, issueIf_eq_nil] at result
  exact result.1.1.1.1.1.1.2

/-- A clean row that is not without a result has an outcome. -/
theorem outcome_isSome (clean : rowIssues seen (rowContext candidateBot index row) = [])
    (resolved : (flag row "noResult").1 = false) : (rowContext candidateBot index row).outcome.isSome := by
  have result := resultIssues_clean clean
  have noLimit := no_turnLimit clean
  simp only [resultIssues, List.append_eq_nil_iff, issueIf_eq_nil] at result
  have unresolved := result.1.1.2
  have none : (rowContext candidateBot index row).noResult = false := resolved
  have limit : (rowContext candidateBot index row).turnLimit = false := noLimit
  simpa [none, limit] using unresolved

/-- A clean row with a numeric score is not without a result. -/
theorem resolved_of_score (clean : rowIssues seen (rowContext candidateBot index row) = []) {score : ℚ}
    (numeric : finiteNumber (Json.get row "finalWhiteMinusBlackScore") = some score) :
    (flag row "noResult").1 = false := by
  have result := resultIssues_clean clean
  simp only [resultIssues, List.append_eq_nil_iff, issueIf_eq_nil] at result
  have unscored := result.2
  have kept : (rowContext candidateBot index row).row = row := rfl
  rw [kept, numeric, Option.isSome_some, Bool.and_true] at unscored
  exact unscored

/-- The outcome and the margin of a clean row go together exactly where its winner and its score do. -/
theorem outcomeMatchesMargin_iff (clean : rowIssues seen (rowContext candidateBot index row) = []) :
    OutcomeMatchesMargin (rowContext candidateBot index row) ↔ WinnerMatchesScore row := by
  have color := one_color clean
  have noLimit := no_turnLimit clean
  cases numeric : finiteNumber (Json.get row "finalWhiteMinusBlackScore") with
  | none => simp [OutcomeMatchesMargin, WinnerMatchesScore, rowContext, marginOf, numeric]
  | some score =>
    have resolved := resolved_of_score clean numeric
    have decided := outcome_isSome clean resolved
    simp only [rowContext, outcomeOf, resolved, noLimit, Bool.false_eq_true, if_false, ne_eq, color, not_false_eq_true,
      and_true] at decided
    simp only [OutcomeMatchesMargin, WinnerMatchesScore, rowContext, outcomeOf, marginOf, numeric, resolved, noLimit,
      Bool.false_eq_true, if_false, ne_eq, color, not_false_eq_true, and_true, if_true, Option.map_some, Option.some.injEq,
      forall_eq']
    by_cases draw : (rowWinner row).1 = some "draw"
    · cases sameJson (Json.get row "whiteBot") candidateBot <;> simp [draw]
    · rw [if_neg draw] at decided ⊢
      have named : (rowWinner row).1 = some "B" ∨ (rowWinner row).1 = some "W" := by
        by_contra neither
        rw [if_neg neither] at decided
        simp at decided
      rw [if_pos named]
      cases black : sameJson (Json.get row "blackBot") candidateBot <;>
        cases white : sameJson (Json.get row "whiteBot") candidateBot <;> simp only [black, white, ne_eq, not_true] at color
      all_goals rcases named with winner | winner <;> simp [winner, loss_ne_win, loss_ne_win.symm]

end Row

/-- A row of a finished game of a pair. -/
def finishedRow (gameId seed blackBot whiteBot winner : String) (score : Int) : Row :=
  [("schemaVersion", .int 1), ("gameId", .str gameId), ("pairId", .str "pair"), ("positionId", .str "position"),
    ("scheduleId", .str "schedule"), ("seed", .str seed), ("blackBot", .str blackBot), ("whiteBot", .str whiteBot),
    ("resignation", .bool false), ("hitTurnLimit", .bool false), ("noResult", .bool false), ("winner", .str winner),
    ("finalWhiteMinusBlackScore", .int score)]

/-- The candidate wins both games of the pair, with the given scores. -/
def wonRows (asBlack asWhite : Int) : List Value :=
  [.obj (finishedRow "game0" "seed0" "candidate" "reference" "B" asBlack),
    .obj (finishedRow "game1" "seed1" "reference" "candidate" "W" asWhite)]

theorem won_clean : matchIssues (wonRows (-7) 7) (.str "candidate") = [] := by decide +kernel

end KataGo.Paired
