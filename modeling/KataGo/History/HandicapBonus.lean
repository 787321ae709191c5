import KataGo.History.Stages

/-! The cached handicap bonus against the count of all moves. `makeBoardMoveAssumeLegal` refreshes the bonus only
after a move of Black's while White has not moved, but a second move in a row by the other side resets the count. -/

namespace KataGo.Game
open KataGo.Lib

section Count

variable {moves : List Move} {m : Move} {n : Nat}

/-- The moves that count for a handicap. -/
def blackTurns (moves : List Move) : Nat := moves.countP fun m => m.pla = .black ∧ m.loc ≠ passLoc ∧ m.loc ≠ nullLoc

/-- The last move is not Black's, and the moves before that are not Black's are passes, each followed by a move of
Black's. -/
def awaitsBlack : List Move → Bool
  | [] => false
  | m :: rest =>
      if m.pla ≠ .black then
        rest.isEmpty || (rest.head?.all (fun next => next.pla = .black) && decide (m.loc = passLoc) && awaitsBlack rest)
      else awaitsBlack rest

theorem blackNonPassTurnsToStart_of_awaitsBlack (awaits : awaitsBlack moves = true) :
    blackNonPassTurnsToStart n moves = n + blackTurns moves := by
  induction moves generalizing n with
  | nil => exact absurd awaits Bool.false_ne_true
  | cons m rest ih =>
    rw [awaitsBlack] at awaits
    rw [blackNonPassTurnsToStart, blackTurns, List.countP_cons]
    by_cases other : m.pla ≠ .black
    · rw [if_pos other] at awaits ⊢
      have none : ¬ (m.pla = .black ∧ m.loc ≠ passLoc ∧ m.loc ≠ nullLoc) := fun found => other found.1
      rw [decide_eq_false none]
      cases rest with
      | nil => simp [blackNonPassTurnsToStart]
      | cons next rest =>
        simp only [List.isEmpty_cons, List.head?_cons, Option.all_some, Bool.false_or, Bool.and_eq_true,
          decide_eq_true_eq] at awaits
        rw [List.head?_cons, Option.any_some, if_neg (by simp [awaits.1.1]), if_pos awaits.1.2, ih awaits.2]
        rfl
    · rw [if_neg other] at awaits ⊢
      rw [ih awaits]
      rw [not_not] at other
      by_cases counts : m.loc ≠ passLoc ∧ m.loc ≠ nullLoc
      · rw [if_pos counts, decide_eq_true ⟨other, counts⟩, if_pos rfl, blackTurns]
        omega
      · rw [if_neg counts, decide_eq_false fun found => counts found.2]
        rfl

/-- A move that is not Black's resets the count if it is the second in a row, and leaves it otherwise. -/
theorem blackNonPassTurnsToStart_snoc_other (other : m.pla ≠ .black) :
    blackNonPassTurnsToStart n (moves ++ [m]) = if awaitsBlack moves then 0 else blackNonPassTurnsToStart n moves := by
  induction moves generalizing n with
  | nil =>
    rw [List.nil_append, blackNonPassTurnsToStart]
    simp [other, blackNonPassTurnsToStart, awaitsBlack]
  | cons first rest ih =>
    rw [List.cons_append, blackNonPassTurnsToStart, blackNonPassTurnsToStart, awaitsBlack, ih, ih]
    by_cases white : first.pla ≠ .black
    · rw [if_pos white, if_pos white, if_pos white]
      cases rest with
      | nil => simp [other]
      | cons next rest =>
        simp only [List.cons_append, List.head?_cons, Option.any_some, Option.all_some, List.isEmpty_cons, Bool.false_or]
        by_cases follows : next.pla = .black <;> by_cases pass : first.loc = passLoc <;> simp [follows, pass]
    · rw [if_neg white, if_neg white, if_neg white]

/-- Once White has really moved, Black's moves do not count. -/
theorem blackNonPassTurnsToStart_snoc_black (black : m.pla = .black)
    (moved : ∃ w ∈ moves, w.pla ≠ .black ∧ w.loc ≠ passLoc) :
    blackNonPassTurnsToStart n (moves ++ [m]) = blackNonPassTurnsToStart n moves := by
  induction moves generalizing n with
  | nil => simp at moved
  | cons first rest ih =>
    rw [List.cons_append, blackNonPassTurnsToStart, blackNonPassTurnsToStart]
    obtain ⟨w, member, white, place⟩ := moved
    by_cases other : first.pla ≠ .black
    · rw [if_pos other, if_pos other]
      cases rest with
      | nil =>
        obtain rfl := List.mem_singleton.1 member
        simp [black, place]
      | cons next rest =>
        simp only [List.cons_append, List.head?_cons, Option.any_some]
        refine ite_congr rfl (fun _ => rfl) fun _ => ite_congr rfl (fun pass => ?_) fun _ => rfl
        refine ih ⟨w, (List.mem_cons.1 member).resolve_left ?_, white, place⟩
        rintro rfl
        exact place pass
    · rw [if_neg other, if_neg other]
      refine ih ⟨w, (List.mem_cons.1 member).resolve_left ?_, white, place⟩
      rintro rfl
      exact other white

end Count

namespace BoardHistory

/-- The bonus, when `n` moves of Black's count. -/
def bonusFor (h : BoardHistory) (n : Nat) : Int :=
  let stones : Int := if h.overrideNumHandicapStones ≥ 0 then h.overrideNumHandicapStones
    else numHandicapStonesOnBoardHelper h.initialBoard n
  match h.rules.whiteHandicapBonusRule with
  | .zero => 0
  | .n => stones
  | .nMinusOne => if stones > 1 then stones - 1 else 0

theorem computeWhiteHandicapBonus_eq (h : BoardHistory) : h.computeWhiteHandicapBonus = h.bonusFor
    (if h.assumeMultipleStartingBlackMovesAreHandicap then blackNonPassTurnsToStart 0 h.moveHistory else 0) := by
  unfold computeWhiteHandicapBonus bonusFor computeNumHandicapStones
  rfl

/-- Black's moves are worth something: there is a bonus, which no override fixes, and the stones make a handicap. -/
def TurnsCount (h : BoardHistory) (n : Nat) : Prop :=
  h.rules.whiteHandicapBonusRule ≠ .zero ∧ h.overrideNumHandicapStones < 0 ∧
    h.initialBoard.locs.countP (fun loc => h.initialBoard.colors loc = .white) = 0 ∧ 1 ≤ n ∧
    2 ≤ h.initialBoard.locs.countP (fun loc => h.initialBoard.colors loc = .black) + n

theorem bonusFor_ne_iff (h : BoardHistory) (n : Nat) : h.bonusFor n ≠ h.bonusFor 0 ↔ h.TurnsCount n := by
  unfold bonusFor TurnsCount numHandicapStonesOnBoardHelper
  generalize h.initialBoard.locs.countP (fun loc => h.initialBoard.colors loc = .white) = whites
  generalize h.initialBoard.locs.countP (fun loc => h.initialBoard.colors loc = .black) = blacks
  cases h.rules.whiteHandicapBonusRule with
  | zero => exact iff_of_false (fun other => other rfl) fun counts => counts.1 rfl
  | n =>
    simp only [ne_eq, reduceCtorEq, not_false_eq_true, true_and]
    split_ifs <;> omega
  | nMinusOne =>
    simp only [ne_eq, reduceCtorEq, not_false_eq_true, true_and]
    split_ifs <;> omega

section Steps

/-- What a move does to the fields about the handicap. -/
structure HandicapMove (h h' : BoardHistory) (moveLoc : Loc) (movePla : Player) : Prop where
  rules : h'.rules = h.rules
  initialBoard : h'.initialBoard = h.initialBoard
  override : h'.overrideNumHandicapStones = h.overrideNumHandicapStones
  assume : h'.assumeMultipleStartingBlackMovesAreHandicap = h.assumeMultipleStartingBlackMovesAreHandicap
  moveHistory : h'.moveHistory = h.moveHistory ++ [⟨moveLoc, movePla⟩]
  whiteHasMoved : h'.whiteHasMoved = (h.whiteHasMoved || decide (movePla = .white ∧ moveLoc ≠ passLoc))
  bonus : h'.whiteHandicapBonusScore =
    if h.assumeMultipleStartingBlackMovesAreHandicap ∧ ¬ h'.whiteHasMoved ∧ movePla = .black ∧
        h.rules.whiteHandicapBonusRule ≠ .zero then (h'.computeWhiteHandicapBonus : ℚ)
    else h.whiteHandicapBonusScore

variable {h h' : BoardHistory} {moveLoc : Loc} {movePla : Player}

theorem updateHandicapBonus_move (first : BoardHistory) (moveHistory : h.moveHistory = first.moveHistory ++ [⟨moveLoc, movePla⟩])
    (rules : h.rules = first.rules) (initialBoard : h.initialBoard = first.initialBoard)
    (override : h.overrideNumHandicapStones = first.overrideNumHandicapStones)
    (assume : h.assumeMultipleStartingBlackMovesAreHandicap = first.assumeMultipleStartingBlackMovesAreHandicap)
    (whiteHasMoved : h.whiteHasMoved = first.whiteHasMoved)
    (bonus : h.whiteHandicapBonusScore = first.whiteHandicapBonusScore) :
    HandicapMove first (h.updateHandicapBonus moveLoc movePla) moveLoc movePla := by
  unfold updateHandicapBonus
  dsimp only
  by_cases white : movePla = .white ∧ moveLoc ≠ passLoc
  · have other : movePla ≠ .black := by rw [white.1]; decide
    rw [if_pos white, if_neg fun fresh => other fresh.2.2.1]
    exact ⟨rules, initialBoard, override, assume, moveHistory, by simp [white],
      by rw [if_neg fun fresh => other fresh.2.2.1]; exact bonus⟩
  · rw [if_neg white]
    split_ifs with fresh
    · exact ⟨rules, initialBoard, override, assume, moveHistory, by simp [white, whiteHasMoved],
        by rw [if_pos (by rwa [← assume, ← rules])]; rfl⟩
    · exact ⟨rules, initialBoard, override, assume, moveHistory, by simp [white, whiteHasMoved],
        by rw [if_neg (by rwa [← assume, ← rules])]; exact bonus⟩

variable [Zobrist] [KoMarkZobrist] {board board' : Board} {table : Option KoHashTable} {preventEncore : Bool}

omit [Zobrist] [KoMarkZobrist] in
theorem HandicapMove.congr {second third : BoardHistory} (move : HandicapMove h second moveLoc movePla)
    (moveHistory : third.moveHistory = second.moveHistory)
    (rules : third.rules = second.rules) (initialBoard : third.initialBoard = second.initialBoard)
    (override : third.overrideNumHandicapStones = second.overrideNumHandicapStones)
    (assume : third.assumeMultipleStartingBlackMovesAreHandicap = second.assumeMultipleStartingBlackMovesAreHandicap)
    (whiteHasMoved : third.whiteHasMoved = second.whiteHasMoved)
    (bonus : third.whiteHandicapBonusScore = second.whiteHandicapBonusScore) : HandicapMove h third moveLoc movePla := by
  have compute : third.computeWhiteHandicapBonus = second.computeWhiteHandicapBonus := by
    unfold computeWhiteHandicapBonus computeNumHandicapStones
    rw [rules, override, initialBoard, assume, moveHistory]
  refine ⟨rules.trans move.rules, initialBoard.trans move.initialBoard, override.trans move.override,
    assume.trans move.assume, moveHistory.trans move.moveHistory, whiteHasMoved.trans move.whiteHasMoved, ?_⟩
  rw [bonus, whiteHasMoved, compute]
  exact move.bonus

/-- Only two of the stages of a move look at the handicap. -/
theorem makeBoardMoveAssumeLegal_handicap
    (run : h.makeBoardMoveAssumeLegal board moveLoc movePla table preventEncore = some (h', board')) :
    HandicapMove h h' moveLoc movePla := by
  obtain ⟨spightlike, wasPassForKo, illegal, h₁, h₂, h₃, h₄, h₅, passes, plays, bans, chills, ends, breaks⟩ :=
    makeBoardMoveAssumeLegal_some run
  have opened : h.opened.rules = h.rules ∧ h.opened.initialBoard = h.initialBoard ∧
      h.opened.overrideNumHandicapStones = h.overrideNumHandicapStones ∧
      h.opened.assumeMultipleStartingBlackMovesAreHandicap = h.assumeMultipleStartingBlackMovesAreHandicap ∧
      h.opened.moveHistory = h.moveHistory ∧ h.opened.whiteHasMoved = h.whiteHasMoved ∧
      h.opened.whiteHandicapBonusScore = h.whiteHandicapBonusScore := by
    unfold opened
    split_ifs
    all_goals exact ⟨rfl, rfl, rfl, rfl, rfl, rfl, rfl⟩
  obtain ⟨rules, initialBoard, override, assume, moveHistory, whiteHasMoved, bonus⟩ := opened
  obtain ⟨_, _, _, _, _, _, _, rfl, -⟩ := updatePasses_some passes
  obtain ⟨_, _, _, rfl, -⟩ := playOrPassForKo_some plays
  obtain ⟨_, rfl⟩ := updateSuperKoBanned_some bans
  obtain ⟨_, chilled, -⟩ := chill_some chills
  have updated : HandicapMove h (h₄.updateHandicapBonus moveLoc movePla) moveLoc movePla := by
    rw [chilled]
    exact updateHandicapBonus_move h (congrArg (· ++ [(⟨moveLoc, movePla⟩ : Move)]) moveHistory) rules initialBoard override
      assume whiteHasMoved bonus
  have ended : HandicapMove h h₅ moveLoc movePla := by
    rcases endPhase_some ends with rfl | ⟨score, area, -, rfl⟩ | ⟨-, -, rfl | rfl⟩
    · exact updated
    · obtain ⟨_, _, _, scored, -⟩ := scoreGame_eq (h₄.updateHandicapBonus moveLoc movePla) score
      rw [scored]
      exact updated.congr rfl rfl rfl rfl rfl rfl rfl
    · exact updated.congr rfl rfl rfl rfl rfl rfl rfl
    · exact updated.congr rfl rfl rfl rfl rfl rfl rfl
  rcases breakLongCycles_some breaks with rfl | rfl
  · exact ended
  · exact ended.congr rfl rfl rfl rfl rfl rfl rfl

/-- The cached bonus is the one that counting all moves gives. -/
def InStep (h : BoardHistory) : Prop := h.whiteHandicapBonusScore = h.computeWhiteHandicapBonus

/-- `whiteHasMoved` says what it should. -/
def WhiteKnown (h : BoardHistory) : Prop :=
  h.whiteHasMoved = true ↔ ∃ m ∈ h.moveHistory, m.pla = .white ∧ m.loc ≠ passLoc

/-- The move is the second in a row that is not Black's, and Black's moves before it count for a handicap. -/
def ResetsBonus (h : BoardHistory) (movePla : Player) : Prop :=
  movePla ≠ .black ∧ h.assumeMultipleStartingBlackMovesAreHandicap = true ∧ awaitsBlack h.moveHistory = true ∧
    h.TurnsCount (blackTurns h.moveHistory)

omit [Zobrist] [KoMarkZobrist] in
theorem HandicapMove.whiteKnown (move : HandicapMove h h' moveLoc movePla) (known : h.WhiteKnown) : h'.WhiteKnown := by
  unfold WhiteKnown at known ⊢
  rw [move.whiteHasMoved, move.moveHistory, Bool.or_eq_true, known, decide_eq_true_eq]
  simp only [List.mem_append, List.mem_singleton, or_and_right, exists_or, exists_eq_left]

omit [Zobrist] [KoMarkZobrist] in
theorem HandicapMove.inStep_iff (move : HandicapMove h h' moveLoc movePla) (known : h.WhiteKnown) (before : h.InStep) :
    h'.InStep ↔ ¬ h.ResetsBonus movePla := by
  have worth : ∀ n, h'.bonusFor n = h.bonusFor n := by
    intro n
    unfold bonusFor
    rw [move.rules, move.override, move.initialBoard]
  unfold InStep at before ⊢
  rw [computeWhiteHandicapBonus_eq] at before
  by_cases black : movePla = .black
  · refine iff_of_true ?_ fun resets => resets.1 black
    rw [move.bonus]
    split_ifs with fresh
    · rfl
    rw [before, computeWhiteHandicapBonus_eq, worth, move.assume, move.moveHistory]
    by_cases zero : h.rules.whiteHandicapBonusRule = .zero
    · simp [bonusFor, zero]
    by_cases assume : h.assumeMultipleStartingBlackMovesAreHandicap = true
    · have moved : h.whiteHasMoved = true := by
        by_contra none
        refine fresh ⟨assume, ?_, black, zero⟩
        rw [move.whiteHasMoved, black]
        simpa using none
      obtain ⟨w, member, white, place⟩ := known.1 moved
      rw [if_pos assume, if_pos assume,
        blackNonPassTurnsToStart_snoc_black black ⟨w, member, by rw [white]; decide, place⟩]
    · rw [if_neg assume, if_neg assume]
  · rw [move.bonus, if_neg fun fresh => black fresh.2.2.1, before, computeWhiteHandicapBonus_eq, worth, move.assume,
      move.moveHistory, blackNonPassTurnsToStart_snoc_other black, Rat.intCast_inj]
    by_cases assume : h.assumeMultipleStartingBlackMovesAreHandicap = true
    · rw [if_pos assume, if_pos assume]
      by_cases awaits : awaitsBlack h.moveHistory = true
      · rw [if_pos awaits, blackNonPassTurnsToStart_of_awaitsBlack awaits, Nat.zero_add]
        rw [← not_iff_not, not_not, ← Ne, bonusFor_ne_iff]
        exact ⟨fun counts => ⟨black, assume, awaits, counts⟩, fun resets => resets.2.2.2⟩
      · rw [if_neg awaits]
        exact iff_of_true rfl fun resets => awaits resets.2.2.1
    · rw [if_neg assume, if_neg assume]
      exact iff_of_true rfl fun resets => assume resets.2.1

end Steps

end BoardHistory

/-- A call that the handicap bonus may depend on. -/
inductive HandicapCall where
  | makeBoardMoveAssumeLegal (moveLoc : Loc) (movePla : Player) (rootKoHashTable : Option KoHashTable) (preventEncore : Bool)
  | setAssumeMultipleStartingBlackMovesAreHandicap (b : Bool)
  | setOverrideNumHandicapStones (n : Int)

namespace Match

variable [Zobrist] [KoMarkZobrist]

def handicapCall (g : Match) : HandicapCall → Option Match
  | .makeBoardMoveAssumeLegal moveLoc movePla rootKoHashTable preventEncore =>
      g.move rootKoHashTable moveLoc movePla preventEncore
  | .setAssumeMultipleStartingBlackMovesAreHandicap b =>
      some ⟨g.hist.setAssumeMultipleStartingBlackMovesAreHandicap b, g.board⟩
  | .setOverrideNumHandicapStones n => some ⟨g.hist.setOverrideNumHandicapStones n, g.board⟩

def handicapCalls (g : Match) (calls : List HandicapCall) : Option Match := calls.foldlM handicapCall g

/-- The call is a move that resets the count of Black's moves. -/
def ResetsBonus (g : Match) : HandicapCall → Prop
  | .makeBoardMoveAssumeLegal _ movePla _ _ => g.hist.ResetsBonus movePla
  | .setAssumeMultipleStartingBlackMovesAreHandicap _ => False
  | .setOverrideNumHandicapStones _ => False

variable {g g' start : Match} {call : HandicapCall} {calls : List HandicapCall}

theorem handicapCall_inStep (known : g.hist.WhiteKnown) (run : g.handicapCall call = some g') :
    g'.hist.WhiteKnown ∧ (g.hist.InStep → (g'.hist.InStep ↔ ¬ g.ResetsBonus call)) := by
  cases call with
  | makeBoardMoveAssumeLegal moveLoc movePla rootKoHashTable preventEncore =>
    obtain ⟨⟨hist, board⟩, moved, run⟩ := Option.bind_eq_some_iff.mp run
    cases run
    have move := BoardHistory.makeBoardMoveAssumeLegal_handicap moved
    exact ⟨move.whiteKnown known, move.inStep_iff known⟩
  | setAssumeMultipleStartingBlackMovesAreHandicap b =>
    cases run
    exact ⟨known, fun _ => iff_of_true rfl id⟩
  | setOverrideNumHandicapStones n =>
    cases run
    exact ⟨known, fun _ => iff_of_true rfl id⟩

theorem handicapCalls_known (known : g.hist.WhiteKnown) (run : g.handicapCalls calls = some g') : g'.hist.WhiteKnown := by
  induction calls generalizing g with
  | nil =>
    cases run
    exact known
  | cons call calls ih =>
    obtain ⟨g₁, called, rest⟩ := Option.bind_eq_some_iff.mp run
    exact ih (handicapCall_inStep known called).1 rest

theorem handicapCalls_snoc : g.handicapCalls (calls ++ [call]) = some g' ↔
    ∃ g₁, g.handicapCalls calls = some g₁ ∧ g₁.handicapCall call = some g' := by
  unfold handicapCalls
  rw [List.foldlM_append]
  simp only [List.foldlM_cons, List.foldlM_nil, bind_pure]
  exact Option.bind_eq_some_iff

/-- From any history that `clear` returns, the cached bonus is right after every call exactly when no move on the
way is the second in a row that is not Black's with a handicap counted before it. -/
theorem handicapBonus_inStep_iff (h h₀ : BoardHistory) (board : Board) (pla : Player) (r : Rules) (ePhase : Nat)
    (cleared : h.clear board pla r ePhase = some h₀) (calls : List HandicapCall) :
    (∀ front back g, calls = front ++ back → Match.handicapCalls ⟨h₀, board⟩ front = some g →
        g.hist.whiteHandicapBonusScore = g.hist.computeWhiteHandicapBonus) ↔
      ∀ front call back g g', calls = front ++ call :: back → Match.handicapCalls ⟨h₀, board⟩ front = some g →
        g.handicapCall call = some g' → ¬ g.ResetsBonus call := by
  have begun : h₀.WhiteKnown ∧ h₀.InStep := by
    obtain ⟨-, cleared⟩ := guard_bind_eq_some.mp cleared
    obtain ⟨-, cleared⟩ := guard_bind_eq_some.mp cleared
    cases cleared
    exact ⟨by simp [BoardHistory.WhiteKnown], rfl⟩
  constructor
  · intro inStep front call back g g' split reached called
    have after := inStep (front ++ [call]) back g' (by rw [split, List.append_assoc]; rfl)
      (handicapCalls_snoc.2 ⟨g, reached, called⟩)
    exact ((handicapCall_inStep (handicapCalls_known begun.1 reached) called).2
      (inStep front (call :: back) g split reached)).1 after
  · intro keeps front
    induction front using List.reverseRecOn with
    | nil =>
      intro back g split reached
      cases reached
      exact begun.2
    | append_singleton front call ih =>
      intro back g' split reached
      obtain ⟨g, before, called⟩ := handicapCalls_snoc.1 reached
      have split' : calls = front ++ call :: back := by rw [split, List.append_assoc]; rfl
      exact ((handicapCall_inStep (handicapCalls_known begun.1 before) called).2 (ih (call :: back) g split' before)).2
        (keeps front call back g g' split' before called)

omit [Zobrist] [KoMarkZobrist] in
/-- Two stones of Black's, a pass of White's and a stone of White's: the bonus stays at two, the count is back at
none. -/
theorem handicapBonus_out_of_step :
    letI := Zobrist.blank
    letI := KoMarkZobrist.blank
    ∃ board h₀ g, init 2 2 = some board ∧
      BoardHistory.new board .black { Rules.getTrompTaylorish with whiteHandicapBonusRule := .n } 0 = some h₀ ∧
      Match.handicapCalls ⟨h₀, board⟩ [.setAssumeMultipleStartingBlackMovesAreHandicap true,
        .makeBoardMoveAssumeLegal (Location.getLoc 0 0 2) .black none false,
        .makeBoardMoveAssumeLegal (Location.getLoc 1 0 2) .black none false,
        .makeBoardMoveAssumeLegal passLoc .white none false,
        .makeBoardMoveAssumeLegal (Location.getLoc 0 1 2) .white none false] = some g ∧
      g.hist.whiteHandicapBonusScore ≠ g.hist.computeWhiteHandicapBonus := by
  let _ := Zobrist.blank
  let _ := KoMarkZobrist.blank
  have whole : (((init 2 2).bind fun board =>
      (BoardHistory.new board .black { Rules.getTrompTaylorish with whiteHandicapBonusRule := .n } 0).bind fun h₀ =>
      (Match.handicapCalls ⟨h₀, board⟩ [.setAssumeMultipleStartingBlackMovesAreHandicap true,
        .makeBoardMoveAssumeLegal (Location.getLoc 0 0 2) .black none false,
        .makeBoardMoveAssumeLegal (Location.getLoc 1 0 2) .black none false,
        .makeBoardMoveAssumeLegal passLoc .white none false,
        .makeBoardMoveAssumeLegal (Location.getLoc 0 1 2) .white none false]).map fun g =>
      decide (g.hist.whiteHandicapBonusScore ≠ g.hist.computeWhiteHandicapBonus)) = some true) := by
    decide +kernel
  obtain ⟨board, made, whole⟩ := Option.bind_eq_some_iff.mp whole
  obtain ⟨h₀, begun, whole⟩ := Option.bind_eq_some_iff.mp whole
  obtain ⟨g, reached, apart⟩ := Option.map_eq_some_iff.mp whole
  exact ⟨board, h₀, g, made, begun, reached, of_decide_eq_true apart⟩

omit [Zobrist] [KoMarkZobrist] in
/-- A free handicap of two stones. -/
theorem handicapBonus_inStep_iff_two_stones :
    letI := Zobrist.blank
    letI := KoMarkZobrist.blank
    ∃ board h₀ g, init 2 2 = some board ∧
      BoardHistory.new board .black { Rules.getTrompTaylorish with whiteHandicapBonusRule := .n } 0 = some h₀ ∧
      Match.handicapCalls ⟨h₀, board⟩ [.setAssumeMultipleStartingBlackMovesAreHandicap true,
        .makeBoardMoveAssumeLegal (Location.getLoc 0 0 2) .black none false] = some g ∧
      g.hist.whiteHandicapBonusScore = g.hist.computeWhiteHandicapBonus := by
  let _ := Zobrist.blank
  let _ := KoMarkZobrist.blank
  obtain ⟨calls, list⟩ : ∃ calls, calls = [HandicapCall.setAssumeMultipleStartingBlackMovesAreHandicap true,
    .makeBoardMoveAssumeLegal (Location.getLoc 0 0 2) .black none false] := ⟨_, rfl⟩
  have whole : (((init 2 2).bind fun board =>
      (BoardHistory.new board .black { Rules.getTrompTaylorish with whiteHandicapBonusRule := .n } 0).bind fun h₀ =>
      Match.handicapCalls ⟨h₀, board⟩ [.setAssumeMultipleStartingBlackMovesAreHandicap true,
        .makeBoardMoveAssumeLegal (Location.getLoc 0 0 2) .black none false]).isSome = true) := by
    decide +kernel
  obtain ⟨g, whole⟩ := Option.isSome_iff_exists.mp whole
  obtain ⟨board, made, whole⟩ := Option.bind_eq_some_iff.mp whole
  obtain ⟨h₀, begun, reached⟩ := Option.bind_eq_some_iff.mp whole
  obtain ⟨blank, -, cleared⟩ := Option.bind_eq_some_iff.mp
    (show (BoardHistory.blank .black { Rules.getTrompTaylorish with whiteHandicapBonusRule := .n }).bind
      (fun h => h.clear board .black { Rules.getTrompTaylorish with whiteHandicapBonusRule := .n } 0) = some h₀ from begun)
  rw [← list] at reached ⊢
  refine ⟨board, h₀, g, made, begun, reached, ?_⟩
  refine (handicapBonus_inStep_iff blank h₀ board .black _ 0 cleared calls).2 ?_ calls [] g (List.append_nil _).symm reached
  intro front call back g₁ g₂ split _ _
  -- The second call is a move of Black's.
  have member : call ∈ calls := by rw [split]; simp
  rw [list] at member
  rcases List.mem_cons.1 member with rfl | member
  · exact id
  · rw [List.mem_singleton.1 member]
    exact fun resets => resets.1 rfl

end Match
end KataGo.Game
