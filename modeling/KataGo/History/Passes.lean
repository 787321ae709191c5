import KataGo.History.Clear

/-! `passWouldEndPhase` and `passWouldEndGame` against the pass that they predict. -/

namespace KataGo.Game
open KataGo.Lib

namespace BoardHistory

variable [Zobrist] [KoMarkZobrist] {h h' : BoardHistory} {board board' : Board} {moveLoc : Loc} {movePla : Player}
  {table : Option KoHashTable} {spightlike preventEncore : Bool}

/-- While nobody has taken the button nobody has passed; only territory scoring has an encore; and the ko marks of
the encore are not there before it. -/
structure PassInv (h : BoardHistory) : Prop where
  button : h.hasButton = true → h.rules.hasButton = true ∧ h.encorePhase = 0 ∧ h.consecutiveEndingPasses = 0 ∧
    h.hashesBeforeBlackPass = [] ∧ h.hashesBeforeWhitePass = []
  area : h.rules.scoringRule = .area → h.encorePhase = 0
  blocks : h.encorePhase = 0 → h.koRecapBlockHash = 0

omit [KoMarkZobrist] in
theorem clear_passInv {pla : Player} {r : Rules} (cleared : h.clear board pla r 0 = some h') : h'.PassInv := by
  obtain ⟨-, cleared⟩ := guard_bind_eq_some.mp cleared
  obtain ⟨-, cleared⟩ := guard_bind_eq_some.mp cleared
  cases cleared
  refine ⟨fun button => ⟨?_, rfl, rfl, rfl, rfl⟩, fun _ => rfl, fun _ => rfl⟩
  exact (Bool.and_eq_true_iff.1 button).1

omit [Zobrist] [KoMarkZobrist] in
theorem opened_fields (h : BoardHistory) : h.opened.rules = h.rules ∧ h.opened.encorePhase = h.encorePhase ∧
    h.opened.koRecapBlockHash = h.koRecapBlockHash ∧ h.opened.hasButton = h.hasButton ∧
    h.opened.consecutiveEndingPasses = h.consecutiveEndingPasses ∧
    h.opened.hashesBeforeBlackPass = h.hashesBeforeBlackPass ∧
    h.opened.hashesBeforeWhitePass = h.hashesBeforeWhitePass ∧
    h.opened.isGameFinished = false ∧ h.opened.isPastNormalPhaseEnd = false := by
  unfold opened
  split_ifs
  all_goals exact ⟨rfl, rfl, rfl, rfl, rfl, rfl, rfl, rfl, rfl⟩

omit [Zobrist] [KoMarkZobrist] in
theorem PassInv.opened (inv : h.PassInv) : h.opened.PassInv := by
  obtain ⟨rules, phase, blocks, button, passes, blacks, whites, -, -⟩ := h.opened_fields
  refine ⟨?_, ?_, ?_⟩
  · rw [rules, phase, button, passes, blacks, whites]
    exact inv.button
  · rw [rules, phase]
    exact inv.area
  · rw [phase, blocks]
    exact inv.blocks

omit [KoMarkZobrist] in
theorem passWouldEndPhase_opened (h : BoardHistory) :
    h.opened.passWouldEndPhase board movePla = h.passWouldEndPhase board movePla := by
  unfold BoardHistory.opened
  split_ifs <;> rfl

omit [KoMarkZobrist] in
/-- What the first stage decides about the end of the phase. -/
theorem updatePasses_ends (board : Board) (inv : h.PassInv) (player : movePla.IsStone) :
    ∃ h₁ spightlike, h.updatePasses board passLoc movePla = some (h₁, spightlike) ∧
      (h₁.consecutiveEndingPasses ≥ 2 ∨ spightlike = true ↔ h.passWouldEndPhase board movePla = true) := by
  unfold updatePasses
  rw [if_neg (by decide)]
  by_cases button : h.hasButton = true
  · obtain ⟨rule, phase, passes, blacks, whites⟩ := inv.button button
    refine ⟨h.takeButton movePla, false, by rw [if_pos button, guard, if_pos ⟨phase, rule⟩]; rfl, ?_⟩
    refine iff_of_false (by simp [takeButton]) ?_
    unfold passWouldEndPhase newConsecutiveEndingPassesAfterPass wouldBeSpightlikeEndingPass
    rw [phase, passes, blacks, whites]
    cases h.rules.koRule <;> simp
  · rw [if_neg button]
    unfold countPass passWouldEndPhase
    dsimp only
    rw [Bool.or_eq_true, decide_eq_true_eq]
    rcases player with rfl | rfl
    all_goals
      split_ifs
      all_goals exact ⟨_, _, rfl, Iff.rfl⟩

section Total

omit [KoMarkZobrist] in
/-- A consistent board can be scored. -/
theorem boardScore_some (h : BoardHistory) (consistent : board.Consistent) : ∃ score, h.boardScore board = some score := by
  unfold boardScore countAreaScoreWhiteMinusBlack countTerritoryAreaScoreWhiteMinusBlack
  cases h.rules.scoringRule with
  | area =>
    cases h.rules.taxRule with
    | none =>
      obtain ⟨area, counts, -⟩ := Board.calculateArea_isArea consistent true true h.rules.multiStoneSuicideLegal
      exact ⟨_, by dsimp only; rw [counts]; rfl⟩
    | seki =>
      obtain ⟨area, white, black, counts, -⟩ :=
        Board.calculateIndependentLifeArea_spec consistent false true h.rules.multiStoneSuicideLegal
      exact ⟨_, by dsimp only; rw [counts]; rfl⟩
    | all =>
      obtain ⟨area, white, black, counts, -⟩ :=
        Board.calculateIndependentLifeArea_spec consistent false true h.rules.multiStoneSuicideLegal
      exact ⟨_, by dsimp only; rw [counts]; rfl⟩
  | territory =>
    obtain ⟨area, white, black, counts, -⟩ :=
      Board.calculateIndependentLifeArea_spec consistent (decide (h.rules.taxRule = .none)) false
        h.rules.multiStoneSuicideLegal
    exact ⟨_, by dsimp only; rw [counts]; rfl⟩

omit [KoMarkZobrist] in
theorem updateSuperKoBanned_total (consistent : board.Consistent) (player : movePla.IsStone)
    (blocks : h.encorePhase = 0 → h.koRecapBlockHash = 0) : ∃ h', h.updateSuperKoBanned board movePla none = some h' := by
  have repeats : ∀ loc, ∃ banned, h.repeatsAt board movePla none loc = some banned := by
    intro loc
    unfold repeatsAt
    by_cases filled : board.colors loc ≠ .empty
    · exact ⟨_, if_pos filled⟩
    rw [if_neg filled]
    split_ifs
    · exact ⟨_, rfl⟩
    · exact ⟨_, rfl⟩
    · obtain ⟨played, -, predicted⟩ :=
        Board.getPosHashAfterMove_eq_play board loc movePla consistent player (.inr (not_not.1 filled))
      exact ⟨_, by rw [predicted]; rfl⟩
  unfold updateSuperKoBanned
  split_ifs with main encore
  · obtain ⟨banned, bans, -⟩ := foldlM_invariant (fun superKoBanned loc => do
        let banned ← h.repeatsAt board movePla none loc
        return Function.update superKoBanned loc banned) (fun _ => True) (l := board.locs) (s := h.superKoBanned)
      (fun s loc _ _ => by
        obtain ⟨banned, found⟩ := repeats loc
        exact ⟨_, by rw [found]; rfl, trivial⟩) trivial
    refine ⟨{ h with superKoBanned := banned }, ?_⟩
    rw [guard, if_pos (blocks main.1)]
    show (h.banRepetitions board movePla none).bind _ = _
    rw [banRepetitions, bans]
    rfl
  · exact ⟨_, rfl⟩
  · exact ⟨_, rfl⟩

end Total

omit [KoMarkZobrist] in
/-- What the end of the phase does, when it comes with the pass. -/
theorem endPhase_result (run : h.endPhase board movePla spightlike preventEncore = some h')
    (finished : h.isGameFinished = false) (past : h.isPastNormalPhaseEnd = false) :
    ((h'.encorePhase > h.encorePhase ∨ h'.isPastNormalPhaseEnd = true ∨ h'.isGameFinished = true) ↔
        (h.consecutiveEndingPasses ≥ 2 ∨ spightlike = true)) ∧
      (h'.isGameFinished = true ↔ (h.consecutiveEndingPasses ≥ 2 ∨ spightlike = true) ∧
        (h.rules.scoringRule = .area ∨ h.rules.scoringRule = .territory ∧ h.encorePhase ≥ 2)) := by
  have scored : h.endAndScoreGameNow board = some h' → h'.isGameFinished = true := by
    intro ended
    obtain ⟨score, -, ended⟩ := Option.bind_eq_some_iff.mp ended
    cases ended
    rfl
  unfold endPhase at run
  by_cases ends : h.consecutiveEndingPasses ≥ 2 ∨ spightlike = true
  · rw [if_pos ends] at run
    simp only [ends, true_and, iff_true]
    cases scoring : h.rules.scoringRule with
    | area =>
      rw [scoring] at run
      have closed := scored (guard_bind_eq_some.mp run).2
      exact ⟨.inr (.inr closed), iff_of_true closed (.inl rfl)⟩
    | territory =>
      rw [scoring] at run
      dsimp only at run
      split_ifs at run with last prevent
      · have closed := scored run
        exact ⟨.inr (.inr closed), iff_of_true closed (.inr ⟨rfl, last⟩)⟩
      · cases run
        refine ⟨.inr (.inl rfl), iff_of_false (by simp [capValidTurns, finished]) (by simp [last])⟩
      · cases run
        refine ⟨.inl (Nat.lt_succ_self _), iff_of_false (by simp [enterEncore, finished]) (by simp [last])⟩
  · rw [if_neg ends] at run
    cases run
    simp [ends, finished, past]

/-- The fields that the end of a phase looks at, when it comes to that. -/
theorem stages_fields {h₁ h₂ h₃ h₄ : BoardHistory} {wasPassForKo moveIsIllegal : Bool}
    (plays : h₁.playOrPassForKo board moveLoc movePla = some (h₂, board', wasPassForKo))
    (bans : (h₂.recordMove board' moveLoc movePla preventEncore moveIsIllegal).updateSuperKoBanned board' (getOpp movePla)
      table = some h₃) (chills : h₃.chill moveLoc movePla wasPassForKo = some h₄) :
    let ending := h₄.updateHandicapBonus moveLoc movePla
    ending.rules = h₁.rules ∧ ending.encorePhase = h₁.encorePhase ∧ ending.hasButton = h₁.hasButton ∧
      ending.consecutiveEndingPasses = h₁.consecutiveEndingPasses ∧
      ending.hashesBeforeBlackPass = h₁.hashesBeforeBlackPass ∧ ending.hashesBeforeWhitePass = h₁.hashesBeforeWhitePass ∧
      ending.isGameFinished = h₁.isGameFinished ∧ ending.isPastNormalPhaseEnd = h₁.isPastNormalPhaseEnd ∧
      (h₁.encorePhase = 0 → ending.koRecapBlockHash = h₁.koRecapBlockHash) := by
  obtain ⟨_, _, _, kos, main⟩ := playOrPassForKo_some plays
  obtain ⟨_, banned⟩ := updateSuperKoBanned_some bans
  obtain ⟨_, chilled, -⟩ := chill_some chills
  obtain ⟨_, _, updated⟩ := h₄.updateHandicapBonus_eq moveLoc movePla
  dsimp only
  rw [updated, chilled, banned]
  refine ⟨?_, ?_, ?_, ?_, ?_, ?_, ?_, ?_, ?_⟩
  any_goals
    rw [kos]
    rfl
  intro phase
  rw [(main phase).1]
  rfl

omit [Zobrist] [KoMarkZobrist] in
theorem breakLongCycles_pass {h₅ : BoardHistory} (breaks : h₅.breakLongCycles passLoc table = some h') : h' = h₅ := by
  rw [breakLongCycles, if_neg fun cycle => cycle.1 rfl] at breaks
  exact (Option.some.inj breaks).symm

/-- When the pass is made, what was predicted happens. -/
theorem pass_ends (inv : h.PassInv) (player : movePla.IsStone)
    (run : h.makeBoardMoveAssumeLegal board passLoc movePla table preventEncore = some (h', board')) :
    (h.passWouldEndPhase board movePla = true ↔
        h'.encorePhase > h.encorePhase ∨ h'.isPastNormalPhaseEnd = true ∨ h'.isGameFinished = true) ∧
      (h.passWouldEndGame board movePla = true ↔ h'.isGameFinished = true) := by
  obtain ⟨spightlike, wasPassForKo, illegal, h₁, h₂, h₃, h₄, h₅, passes, plays, bans, chills, ends, breaks⟩ :=
    makeBoardMoveAssumeLegal_some run
  obtain rfl := breakLongCycles_pass breaks
  obtain ⟨h₁', spightlike', passes', decides⟩ := updatePasses_ends board inv.opened player
  rw [passes] at passes'
  obtain ⟨rfl, rfl⟩ := Prod.mk.inj (Option.some.inj passes')
  obtain ⟨_, _, _, _, _, _, _, counted, -⟩ := updatePasses_some passes
  obtain ⟨rules, phase, -, -, -, -, -, finished, past⟩ := h.opened_fields
  obtain ⟨rules', phase', -, passes', -, -, finished', past', -⟩ := stages_fields plays bans chills
  have before : h₁.rules = h.rules ∧ h₁.encorePhase = h.encorePhase ∧ h₁.isGameFinished = false ∧
      h₁.isPastNormalPhaseEnd = false := by
    rw [counted]
    exact ⟨rules, phase, finished, past⟩
  obtain ⟨phaseEnds, gameEnds⟩ := endPhase_result ends (finished'.trans before.2.2.1) (past'.trans before.2.2.2)
  rw [passes', decides, passWouldEndPhase_opened] at phaseEnds gameEnds
  rw [phase', before.2.1] at phaseEnds
  rw [rules', phase', before.1, before.2.1] at gameEnds
  refine ⟨phaseEnds.symm, ?_⟩
  rw [gameEnds, passWouldEndGame, Bool.and_eq_true, Bool.or_eq_true, Bool.and_eq_true, decide_eq_true_eq, decide_eq_true_eq,
    decide_eq_true_eq]

/-- Passing never fails on a consistent board. -/
theorem pass_total (inv : h.PassInv) (consistent : board.Consistent) (player : movePla.IsStone) (preventEncore : Bool) :
    ∃ h' board', h.makeBoardMoveAssumeLegal board passLoc movePla none preventEncore = some (h', board') := by
  obtain ⟨h₁, spightlike, passes, -⟩ := updatePasses_ends board inv.opened player
  obtain ⟨_, _, _, _, _, _, _, counted, -⟩ := updatePasses_some passes
  have inv₁ : h₁.rules = h.rules ∧ h₁.encorePhase = h.encorePhase ∧ h₁.koRecapBlockHash = h.koRecapBlockHash := by
    obtain ⟨rules, phase, blocks, -⟩ := h.opened_fields
    rw [counted]
    exact ⟨rules, phase, blocks⟩
  have consistent' : ({ board with koLoc := nullLoc } : Board).Consistent :=
    (Board.sameChains_withKo board nullLoc).consistent consistent
  obtain ⟨h₂, plays⟩ : ∃ h₂, h₁.playOrPassForKo board passLoc movePla =
      some (h₂, { board with koLoc := nullLoc }, false) := by
    have noKo : h₁.passForKoLoc board passLoc movePla = none := if_neg fun found => found.2 rfl
    have played : board.playMoveAssumeLegal passLoc movePla = some { board with koLoc := nullLoc } := if_pos rfl
    unfold playOrPassForKo
    rw [noKo, played]
    dsimp only [Option.bind_eq_bind, Option.bind_some]
    split_ifs
    · rw [absorbKo, if_neg fun ko => ko rfl]
      exact ⟨_, rfl⟩
    · exact ⟨_, rfl⟩
  obtain ⟨moveIsIllegal, legality⟩ : ∃ moveIsIllegal, moveIsIllegal =
    !(if h.isGameFinished || h.isPastNormalPhaseEnd then h.capValidTurns else h).isLegal board passLoc movePla := ⟨_, rfl⟩
  have blocks : (h₂.recordMove { board with koLoc := nullLoc } passLoc movePla preventEncore moveIsIllegal).encorePhase = 0 →
      (h₂.recordMove { board with koLoc := nullLoc } passLoc movePla preventEncore moveIsIllegal).koRecapBlockHash = 0 := by
    obtain ⟨_, _, _, kos, main⟩ := playOrPassForKo_some plays
    intro phase
    have phase₁ : h₁.encorePhase = 0 := by
      rw [kos] at phase
      exact phase
    rw [(main phase₁).1]
    exact inv₁.2.2.trans (inv.blocks (inv₁.2.1.symm.trans phase₁))
  obtain ⟨h₃, bans⟩ := updateSuperKoBanned_total consistent' player.opp blocks
  have chills : h₃.chill passLoc movePla false = some h₃ := if_neg fun move => move.2.2.1 rfl
  obtain ⟨rules', phase', -⟩ := stages_fields plays bans chills
  obtain ⟨h₅, ends⟩ : ∃ h₅, (h₃.updateHandicapBonus passLoc movePla).endPhase { board with koLoc := nullLoc } movePla
      spightlike preventEncore = some h₅ := by
    obtain ⟨⟨score, area⟩, counts⟩ := (h₃.updateHandicapBonus passLoc movePla).boardScore_some consistent'
    have scored : (h₃.updateHandicapBonus passLoc movePla).endAndScoreGameNow { board with koLoc := nullLoc } =
        some ((h₃.updateHandicapBonus passLoc movePla).scoreGame score) := by
      rw [endAndScoreGameNow, counts]
      rfl
    unfold endPhase
    by_cases ends : (h₃.updateHandicapBonus passLoc movePla).consecutiveEndingPasses ≥ 2 ∨ spightlike = true
    · rw [if_pos ends]
      cases scoring : (h₃.updateHandicapBonus passLoc movePla).rules.scoringRule with
      | area =>
        have phase : (h₃.updateHandicapBonus passLoc movePla).encorePhase = 0 := by
          rw [phase', inv₁.2.1]
          exact inv.area (by rw [← inv₁.1, ← rules', scoring])
        exact ⟨_, by dsimp only; rw [guard, if_pos phase, scored]; rfl⟩
      | territory =>
        dsimp only
        split_ifs
        · exact ⟨_, scored⟩
        · exact ⟨_, rfl⟩
        · exact ⟨_, rfl⟩
    · exact ⟨_, if_neg ends⟩
  have breaks : h₅.breakLongCycles passLoc none = some h₅ := if_neg fun cycle => cycle.1 rfl
  refine ⟨h₅, { board with koLoc := nullLoc }, ?_⟩
  unfold makeBoardMoveAssumeLegal
  dsimp only
  rw [show (if h.isGameFinished || h.isPastNormalPhaseEnd then h.capValidTurns else h).clearResult = h.opened from rfl,
    passes, ← legality]
  dsimp only [Option.bind_eq_bind, Option.bind_some]
  rw [plays]
  dsimp only [Option.bind_some]
  rw [bans]
  dsimp only [Option.bind_some]
  rw [chills]
  dsimp only [Option.bind_some]
  rw [ends]
  dsimp only [Option.bind_some]
  rw [breaks]
  rfl

section Moves

/-- Either side may move, and suicide is tolerated. -/
def isLegalTolerant (h : BoardHistory) (board : Board) (moveLoc : Loc) (movePla : Player) : Bool :=
  if movePla ≠ .black ∧ movePla ≠ .white then false
  else h.isPassForKo board moveLoc movePla || board.isLegalIgnoringKo moveLoc movePla true

omit [Zobrist] [KoMarkZobrist] in
theorem passForKoLoc_of_isPassForKo (passes : h.isPassForKo board moveLoc movePla = true) :
    ∃ blocked, h.passForKoLoc board moveLoc movePla = some blocked := by
  unfold isPassForKo at passes
  split_ifs at passes with encore
  unfold passForKoLoc
  rw [if_pos ⟨encore.1, encore.2.2.2⟩]
  simp only [Bool.or_eq_true, Bool.and_eq_true, decide_eq_true_eq] at passes
  by_cases first : board.colors moveLoc = getOpp movePla ∧ h.koRecapBlocked moveLoc = true
  · exact ⟨_, if_pos first⟩
  · rw [if_neg first]
    have second := passes.resolve_left fun found => first found.1.1
    exact ⟨_, if_pos ⟨second.1.1, second.1.2, second.2⟩⟩

omit [KoMarkZobrist] in
/-- A tolerated move that is no pass for ko is played on the board. -/
theorem played_of_legal {played : Board} (consistent : board.Consistent) (legal : h.isLegalTolerant board moveLoc movePla = true)
    (noKo : h.passForKoLoc board moveLoc movePla = none) (plays : board.playMoveAssumeLegal moveLoc movePla = some played) :
    played.Consistent ∧ (played.koLoc ≠ nullLoc → moveLoc ∈ board.locs) := by
  unfold isLegalTolerant at legal
  split_ifs at legal
  rw [Bool.or_eq_true] at legal
  have move : board.isLegalIgnoringKo moveLoc movePla true = true := by
    refine legal.resolve_left fun passes => ?_
    obtain ⟨blocked, found⟩ := passForKoLoc_of_isPassForKo passes
    exact Option.some_ne_none _ (found.symm.trans noKo)
  by_cases pass : moveLoc = passLoc
  · rw [Board.playMoveAssumeLegal, if_pos pass] at plays
    cases plays
    exact ⟨(Board.sameChains_withKo board nullLoc).consistent consistent, fun ko => absurd rfl ko⟩
  · obtain ⟨blank, player, -⟩ := Board.blank_of_legal move pass
    obtain ⟨b', found, move⟩ := Board.playMoveAssumeLegal_spec consistent blank player
    rw [plays] at found
    cases found
    exact ⟨move.consistent, fun _ => consistent.shape.mem_locs (by rw [blank]; decide)⟩

/-- A tolerated move leaves a consistent board. -/
theorem playOrPassForKo_consistent {wasPassForKo : Bool} (consistent : board.Consistent)
    (legal : h.isLegalTolerant board moveLoc movePla = true)
    (run : h.playOrPassForKo board moveLoc movePla = some (h', board', wasPassForKo)) : board'.Consistent := by
  unfold playOrPassForKo at run
  split at run
  next => cases run; exact (Board.sameChains_withKo board nullLoc).consistent consistent
  next noKo =>
    obtain ⟨played, plays, run⟩ := Option.bind_eq_some_iff.mp run
    have consistent' := (played_of_legal consistent legal noKo plays).1
    split_ifs at run
    · unfold absorbKo at run
      split_ifs at run
      · cases run
        exact (Board.sameChains_withKo played nullLoc).consistent consistent'
      · cases run
        exact consistent'
    · cases run
      exact consistent'

omit [KoMarkZobrist] in
theorem updatePasses_button (run : h.updatePasses board moveLoc movePla = some (h', spightlike)) (button : h'.hasButton = true) :
    h.hasButton = true ∧ h'.consecutiveEndingPasses = 0 ∧ spightlike = false ∧
      h'.hashesBeforeBlackPass = h.hashesBeforeBlackPass ∧ h'.hashesBeforeWhitePass = h.hashesBeforeWhitePass := by
  unfold updatePasses at run
  by_cases stone : moveLoc ≠ passLoc
  · rw [if_pos stone] at run
    cases run
    exact ⟨button, rfl, rfl, rfl, rfl⟩
  rw [if_neg stone] at run
  by_cases mine : h.hasButton = true
  · rw [if_pos mine] at run
    obtain ⟨-, run⟩ := guard_bind_eq_some.mp run
    cases run
    exact absurd button Bool.false_ne_true
  · rw [if_neg mine] at run
    have kept : h'.hasButton = h.hasButton := by
      unfold countPass at run
      dsimp only at run
      cases movePla with
      | empty => cases run
      | wall => cases run
      | black =>
        cases run
        split_ifs <;> rfl
      | white =>
        cases run
        split_ifs <;> rfl
    exact absurd (kept.symm.trans button) mine

omit [Zobrist] [KoMarkZobrist] in
theorem scoreGame_hasButton (h : BoardHistory) (score : Int) : (h.scoreGame score).hasButton = false := by
  unfold scoreGame takeLeftButton
  by_cases button : h.hasButton = true
  · rw [if_pos button]
    rfl
  · rw [if_neg button]
    exact Bool.eq_false_iff.2 button

theorem PassInv.move (inv : h.PassInv)
    (run : h.makeBoardMoveAssumeLegal board moveLoc movePla table preventEncore = some (h', board')) : h'.PassInv := by
  obtain ⟨spightlike, wasPassForKo, illegal, h₁, h₂, h₃, h₄, h₅, passes, plays, bans, chills, ends, breaks⟩ :=
    makeBoardMoveAssumeLegal_some run
  obtain ⟨_, _, _, _, _, _, _, counted, -⟩ := updatePasses_some passes
  obtain ⟨rules, phase, button, passCount, blacks, whites, -, -, blocks⟩ := stages_fields plays bans chills
  have opened := inv.opened
  have kept : h₁.rules = h.opened.rules ∧ h₁.encorePhase = h.opened.encorePhase ∧
      h₁.koRecapBlockHash = h.opened.koRecapBlockHash := by
    rw [counted]
    exact ⟨rfl, rfl, rfl⟩
  have ending : (h₄.updateHandicapBonus moveLoc movePla).PassInv := by
    refine ⟨fun has => ?_, ?_, fun main => ?_⟩
    · obtain ⟨before, none, -, blacks', whites'⟩ := updatePasses_button passes (button.symm.trans has)
      obtain ⟨rule, main, -, noBlacks, noWhites⟩ := opened.button before
      rw [rules, phase, passCount, blacks, whites, kept.1, kept.2.1, blacks', whites']
      exact ⟨rule, main, none, noBlacks, noWhites⟩
    · rw [rules, phase, kept.1, kept.2.1]
      exact opened.area
    · have main₁ := phase.symm.trans main
      rw [blocks main₁, kept.2.2]
      exact opened.blocks (kept.2.1.symm.trans main₁)
  have ended : h₅.PassInv := by
    by_cases has : (h₄.updateHandicapBonus moveLoc movePla).hasButton = true
    · obtain ⟨-, none, calm, -, -⟩ := updatePasses_button passes (button.symm.trans has)
      have goesOn : ¬ ((h₄.updateHandicapBonus moveLoc movePla).consecutiveEndingPasses ≥ 2 ∨ spightlike = true) := by
        rw [passCount, none, calm]
        decide
      rw [endPhase, if_neg goesOn] at ends
      cases ends
      exact ending
    · rcases endPhase_some ends with rfl | ⟨score, area, -, rfl⟩ | ⟨territory, -, rfl | rfl⟩
      · exact ending
      · have lost := scoreGame_hasButton (h₄.updateHandicapBonus moveLoc movePla) score
        refine ⟨fun has' => absurd (lost.symm.trans has') Bool.false_ne_true, ?_, ?_⟩
        all_goals obtain ⟨_, _, _, scored, -⟩ := scoreGame_eq (h₄.updateHandicapBonus moveLoc movePla) score
        all_goals rw [scored]
        · exact ending.area
        · exact ending.blocks
      · exact ⟨ending.button, ending.area, ending.blocks⟩
      · refine ⟨fun has' => absurd has' has, fun area => ?_, fun _ => rfl⟩
        exact absurd (territory.symm.trans area) ScoringRule.noConfusion
  rcases breakLongCycles_some breaks with rfl | rfl
  · exact ended
  · exact ⟨ended.button, ended.area, ended.blocks⟩

end Moves

end BoardHistory

namespace Match

variable [Zobrist] [KoMarkZobrist] {g g' : Match} {ms : List HistoryMove}

/-- Moves of which each is tolerated where it is made. -/
def legalMoves (g : Match) (ms : List HistoryMove) : Option Match :=
  ms.foldlM (fun g m => do
    guard (g.hist.isLegalTolerant g.board m.moveLoc m.movePla)
    g.move m.rootKoHashTable m.moveLoc m.movePla m.preventEncore) g

theorem legalMoves_inv (inv : g.hist.PassInv) (consistent : g.board.Consistent) (run : g.legalMoves ms = some g') :
    g'.hist.PassInv ∧ g'.board.Consistent := by
  induction ms generalizing g with
  | nil =>
    cases run
    exact ⟨inv, consistent⟩
  | cons m ms ih =>
    obtain ⟨g₁, moved, rest⟩ := Option.bind_eq_some_iff.mp run
    obtain ⟨legal, moved⟩ := guard_bind_eq_some.mp moved
    obtain ⟨⟨hist, board⟩, made, moved⟩ := Option.bind_eq_some_iff.mp moved
    cases moved
    obtain ⟨spightlike, wasPassForKo, illegal, h₁, h₂, h₃, h₄, h₅, passes, plays, -⟩ :=
      BoardHistory.makeBoardMoveAssumeLegal_some made
    refine ih (inv.move made) (BoardHistory.playOrPassForKo_consistent consistent ?_ plays) rest
    obtain ⟨_, _, _, _, _, _, _, counted, -⟩ := BoardHistory.updatePasses_some passes
    have same : h₁.isLegalTolerant g.board m.moveLoc m.movePla = g.hist.isLegalTolerant g.board m.moveLoc m.movePla := by
      rw [counted]
      unfold BoardHistory.opened
      split_ifs <;> rfl
    rw [same]
    exact legal

end Match

namespace BoardHistory

variable [Zobrist] [KoMarkZobrist]

/-- From any cleared history, after any moves, a pass returns, ends the phase exactly when `passWouldEndPhase` says so
and the game exactly when `passWouldEndGame` does. -/
theorem passWouldEnd_exact (h h₀ : BoardHistory) (board : Board) (pla movePla : Player) (r : Rules)
    (cleared : h.clear board pla r 0 = some h₀) (consistent : board.Consistent) (ms : List Match.HistoryMove) (g : Match)
    (reached : Match.legalMoves ⟨h₀, board⟩ ms = some g) (player : movePla.IsStone) :
    (∀ preventEncore, ∃ h' board',
        g.hist.makeBoardMoveAssumeLegal g.board passLoc movePla none preventEncore = some (h', board')) ∧
      ∀ table preventEncore h' board',
        g.hist.makeBoardMoveAssumeLegal g.board passLoc movePla table preventEncore = some (h', board') →
        (g.hist.passWouldEndPhase g.board movePla = true ↔
          h'.encorePhase > g.hist.encorePhase ∨ h'.isPastNormalPhaseEnd = true ∨ h'.isGameFinished = true) ∧
        (g.hist.passWouldEndGame g.board movePla = true ↔ h'.isGameFinished = true) := by
  obtain ⟨inv, consistent'⟩ := Match.legalMoves_inv (clear_passInv cleared) consistent reached
  exact ⟨fun preventEncore => pass_total inv consistent' player preventEncore,
    fun table preventEncore h' board' run => pass_ends inv player run⟩

omit [Zobrist] [KoMarkZobrist] in
/-- After a pass of Black's, a pass of White's ends the game. -/
theorem passWouldEnd_exact_second_pass :
    letI := Zobrist.blank
    letI := KoMarkZobrist.blank
    ∃ board h₀ g h' board', init 2 2 = some board ∧ new board .black .getTrompTaylorish 0 = some h₀ ∧
      Match.legalMoves ⟨h₀, board⟩ [⟨passLoc, .black, none, false⟩] = some g ∧
      g.hist.makeBoardMoveAssumeLegal g.board passLoc .white none false = some (h', board') ∧
      g.hist.passWouldEndGame g.board .white = true ∧ h'.isGameFinished = true := by
  let _ := Zobrist.blank
  let _ := KoMarkZobrist.blank
  have whole : ((init 2 2).bind fun board => (new board .black .getTrompTaylorish 0).bind fun h₀ =>
      (Match.legalMoves ⟨h₀, board⟩ [⟨passLoc, .black, none, false⟩]).map fun g =>
        g.hist.passWouldEndGame g.board .white) = some true := by decide +kernel
  obtain ⟨board, made, whole⟩ := Option.bind_eq_some_iff.mp whole
  obtain ⟨h₀, begun, whole⟩ := Option.bind_eq_some_iff.mp whole
  obtain ⟨g, reached, predicted⟩ := Option.map_eq_some_iff.mp whole
  obtain ⟨blank, -, cleared⟩ := Option.bind_eq_some_iff.mp
    (show (BoardHistory.blank .black .getTrompTaylorish).bind (fun h => h.clear board .black .getTrompTaylorish 0) =
      some h₀ from begun)
  obtain ⟨b₀, start, consistent⟩ := Board.init_consistent 2 2 (by decide) (by decide)
  rw [made] at start
  obtain rfl := Option.some.inj start
  obtain ⟨total, exact⟩ := passWouldEnd_exact blank h₀ board .black .white _ cleared consistent _ g reached (.inr rfl)
  obtain ⟨h', board', run⟩ := total false
  exact ⟨board, h₀, g, h', board', made, begun, reached, run, predicted, ((exact none false h' board' run).2).1 predicted⟩

end BoardHistory
end KataGo.Game
