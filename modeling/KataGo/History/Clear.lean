import KataGo.History.Stages

/-! What `clear` leaves of the history before it: the button, and marks off the board. -/

namespace KataGo.Game
open KataGo.Lib

namespace Board

variable [Zobrist] {b b' : Board} {loc : Loc} {pla : Player}

def dims (b : Board) : Nat × Nat := (b.xSize, b.ySize)

omit [Zobrist] in
theorem locs_congr (same : b'.dims = b.dims) : b'.locs = b.locs := by
  obtain ⟨xSame, ySame⟩ := Prod.mk.inj same
  rw [locs, locs, xSame, ySame]

omit [Zobrist] in
theorem addLiberties_dims (b : Board) (head : Loc) (delta : Int) : (b.addLiberties head delta).dims = b.dims := rfl

omit [Zobrist] in
theorem mergeInto_dims {head1 head2 : Loc} (run : b.mergeInto head1 head2 = some b') : b'.dims = b.dims := by
  obtain ⟨stones, -, run⟩ := Option.bind_eq_some_iff.mp run
  obtain ⟨last, -, run⟩ := Option.bind_eq_some_iff.mp run
  cases run
  exact foldl_keeps (fun s => s.1.dims) (mergeStone head1) (fun s a => rfl) stones
    (b.addLocs head1 (b.chainData head2).numLocs, 0)

omit [Zobrist] in
theorem mergeChains_dims {loc1 loc2 : Loc} (run : b.mergeChains loc1 loc2 = some b') : b'.dims = b.dims := by
  obtain ⟨-, run⟩ := guard_bind_eq_some.mp run
  obtain ⟨-, run⟩ := guard_bind_eq_some.mp run
  split_ifs at run
  · exact mergeInto_dims run
  · exact mergeInto_dims run

omit [Zobrist] in
theorem changeLibertiesFrom_dims (color : Player) (delta : Int) (earlier rest : List Loc) (b : Board) :
    (changeLibertiesFrom color delta earlier rest b).dims = b.dims := by
  induction rest generalizing earlier b with
  | nil => rfl
  | cons a rest ih =>
    rw [changeLibertiesFrom, ih]
    split_ifs <;> rfl

theorem removeChain_dims {n : Int} (run : b.removeChain loc = some (b', n)) : b'.dims = b.dims := by
  obtain ⟨stones, -, run⟩ := Option.bind_eq_some_iff.mp run
  cases run
  exact foldl_keeps dims (removeStone _) (fun s a => changeLibertiesFrom_dims _ _ _ _ _) stones b

theorem playDir_dims {s s' : PlayState} {a : Loc} (run : playDir loc pla s a = some s') : s'.board.dims = s.board.dims := by
  unfold playDir at run
  dsimp only at run
  split_ifs at run
  · cases run
    rfl
  · obtain ⟨b', merged, run⟩ := Option.bind_eq_some_iff.mp run
    cases run
    have kept := mergeChains_dims merged
    exact kept
  · cases run
    rfl
  · obtain ⟨⟨b', n⟩, removed, run⟩ := Option.bind_eq_some_iff.mp run
    cases run
    have kept := removeChain_dims removed
    exact kept
  · cases run
    rfl
  · cases run
    rfl

omit [Zobrist] in
theorem addCaptures_dims (b : Board) (color : Color) (n : Int) : (b.addCaptures color n).dims = b.dims := by
  unfold addCaptures
  split_ifs <;> rfl

/-- A move keeps the size of the board, whatever state the board is in. -/
theorem playMoveAssumeLegal_dims (run : b.playMoveAssumeLegal loc pla = some b') : b'.dims = b.dims := by
  rw [playMoveAssumeLegal] at run
  by_cases pass : loc = passLoc
  · rw [if_pos pass] at run
    cases run
    rfl
  rw [if_neg pass] at run
  obtain ⟨s, looped, ended⟩ := Option.bind_eq_some_iff.mp run
  have kept : s.board.dims = b.dims := foldlM_keeps (fun s => s.board.dims) _ (fun s a s' => playDir_dims) looped
  dsimp only at ended
  generalize board : Board.addCaptures _ _ s.numCaptured = b₁ at ended
  have kept₁ : b₁.dims = b.dims := by
    rw [← board, addCaptures_dims]
    exact kept
  by_cases suicide : b₁.getNumLiberties loc = 0
  · rw [if_pos suicide] at ended
    obtain ⟨⟨b₂, n⟩, removed, ended⟩ := Option.bind_eq_some_iff.mp ended
    cases ended
    rw [addCaptures_dims, removeChain_dims removed, kept₁]
  · rw [if_neg suicide] at ended
    cases ended
    exact kept₁

end Board

namespace BoardHistory

section Occupied

/-- With other marks of where a stone has ever been. -/
def withOccupied (h : BoardHistory) (w : Loc → Bool) : BoardHistory := { h with wasEverOccupiedOrPlayed := w }

variable [Zobrist] [KoMarkZobrist] {h h' : BoardHistory} {w : Loc → Bool} {board board' : Board} {moveLoc : Loc}
  {movePla nextPla : Player} {table : Option KoHashTable} {spightlike wasPassForKo preventEncore moveIsIllegal : Bool}

omit [Zobrist] [KoMarkZobrist] in
theorem opened_withOccupied : (h.withOccupied w).opened = h.opened.withOccupied w := by
  unfold opened withOccupied
  dsimp only
  split_ifs <;> rfl

omit [KoMarkZobrist] in
theorem updatePasses_withOccupied : (h.withOccupied w).updatePasses board moveLoc movePla =
    (h.updatePasses board moveLoc movePla).map fun r => (r.1.withOccupied w, r.2) := by
  unfold updatePasses withOccupied
  dsimp only
  split_ifs with stone button
  · rfl
  · by_cases first : h.encorePhase = 0 ∧ h.rules.hasButton = true
    · rw [guard, if_pos first]
      rfl
    · rw [guard, if_neg first]
      rfl
  · unfold countPass
    dsimp only
    have same : ({ h with wasEverOccupiedOrPlayed := w } : BoardHistory).phaseHasSpightlikeEndingAndPassHistoryClearing =
      h.phaseHasSpightlikeEndingAndPassHistoryClearing := rfl
    rw [same]
    split_ifs
    all_goals cases movePla <;> rfl

omit [Zobrist] in
theorem setKoRecapBlocked_withOccupied (loc : Loc) (b : Bool) :
    (h.withOccupied w).setKoRecapBlocked loc b = (h.setKoRecapBlocked loc b).withOccupied w := by
  unfold setKoRecapBlocked withOccupied
  dsimp only
  split_ifs <;> rfl

omit [Zobrist] in
theorem unmarkEmpty_withOccupied : (h.withOccupied w).unmarkEmpty board = (h.unmarkEmpty board).withOccupied w := by
  unfold unmarkEmpty
  induction board.locs generalizing h with
  | nil => rfl
  | cons loc locs ih =>
    rw [List.foldl_cons, List.foldl_cons]
    by_cases marked : board.colors loc = .empty ∧ h.koRecapBlocked loc = true
    · have marked' : board.colors loc = .empty ∧ (h.withOccupied w).koRecapBlocked loc = true := marked
      rw [if_pos marked, if_pos marked', setKoRecapBlocked_withOccupied, ih]
    · have marked' : ¬ (board.colors loc = .empty ∧ (h.withOccupied w).koRecapBlocked loc = true) := marked
      rw [if_neg marked, if_neg marked', ih]

theorem playOrPassForKo_withOccupied : (h.withOccupied w).playOrPassForKo board moveLoc movePla =
    (h.playOrPassForKo board moveLoc movePla).map fun r => (r.1.withOccupied w, r.2) := by
  have same : (h.withOccupied w).passForKoLoc board moveLoc movePla = h.passForKoLoc board moveLoc movePla := rfl
  unfold playOrPassForKo
  rw [same]
  cases h.passForKoLoc board moveLoc movePla with
  | some blocked => exact congrArg some (congrArg (·, _) (setKoRecapBlocked_withOccupied blocked false))
  | none =>
    dsimp only
    cases board.playMoveAssumeLegal moveLoc movePla with
    | none => rfl
    | some played =>
      dsimp only [Option.bind_eq_bind, Option.bind_some]
      have encore : (h.withOccupied w).encorePhase = h.encorePhase := rfl
      rw [encore]
      split_ifs with late
      · unfold absorbKo
        split_ifs with ko
        · have kept : ({ (h.withOccupied w).setKoRecapBlocked moveLoc true with
              koCapturesInEncore := h.koCapturesInEncore ++ [⟨board.posHash, moveLoc, movePla⟩] } : BoardHistory) =
              ({ h.setKoRecapBlocked moveLoc true with
                koCapturesInEncore := h.koCapturesInEncore ++ [⟨board.posHash, moveLoc, movePla⟩] } : BoardHistory).withOccupied w := by
            rw [setKoRecapBlocked_withOccupied]
            rfl
          dsimp only
          rw [show (h.withOccupied w).koCapturesInEncore = h.koCapturesInEncore from rfl, kept, unmarkEmpty_withOccupied]
          rfl
        · dsimp only
          rw [unmarkEmpty_withOccupied]
          rfl
      · rfl

/-- The marks after a move. -/
def occupy (w : Loc → Bool) (moveLoc : Loc) : Loc → Bool := if moveLoc ≠ passLoc then Function.update w moveLoc true else w

omit [KoMarkZobrist] in
theorem recordMove_withOccupied : (h.withOccupied w).recordMove board moveLoc movePla preventEncore moveIsIllegal =
    (h.recordMove board moveLoc movePla preventEncore moveIsIllegal).withOccupied (occupy w moveLoc) := rfl

omit [KoMarkZobrist] in
theorem repeatsAt_withOccupied {loc : Loc} (same : w loc = h.wasEverOccupiedOrPlayed loc) :
    (h.withOccupied w).repeatsAt board nextPla table loc = h.repeatsAt board nextPla table loc := by
  unfold repeatsAt
  rw [show (h.withOccupied w).wasEverOccupiedOrPlayed loc = h.wasEverOccupiedOrPlayed loc from same]
  rfl

omit [KoMarkZobrist] in
/-- The marks are only looked at on the board. -/
theorem updateSuperKoBanned_withOccupied (agree : ∀ loc ∈ board.locs, w loc = h.wasEverOccupiedOrPlayed loc) :
    (h.withOccupied w).updateSuperKoBanned board nextPla table =
      (h.updateSuperKoBanned board nextPla table).map (withOccupied · w) := by
  have bans : (h.withOccupied w).banRepetitions board nextPla table = h.banRepetitions board nextPla table := by
    unfold banRepetitions
    have same : ∀ (l : List Loc) (banned : Loc → Bool), (∀ loc ∈ l, loc ∈ board.locs) →
        l.foldlM (fun superKoBanned loc => do
          let banned ← (h.withOccupied w).repeatsAt board nextPla table loc
          return Function.update superKoBanned loc banned) banned =
        l.foldlM (fun superKoBanned loc => do
          let banned ← h.repeatsAt board nextPla table loc
          return Function.update superKoBanned loc banned) banned := by
      intro l
      induction l with
      | nil => exact fun _ _ => rfl
      | cons loc l ih =>
        intro banned inside
        rw [List.foldlM_cons, List.foldlM_cons, repeatsAt_withOccupied (agree loc (inside loc List.mem_cons_self))]
        exact Option.bind_congr fun banned' _ => ih banned' fun x member => inside x (List.mem_cons_of_mem loc member)
    exact same board.locs h.superKoBanned fun _ member => member
  unfold updateSuperKoBanned
  by_cases main : h.encorePhase = 0 ∧ h.rules.koRule ≠ .simple
  · have main' : (h.withOccupied w).encorePhase = 0 ∧ (h.withOccupied w).rules.koRule ≠ .simple := main
    rw [if_pos main, if_pos main', bans, show (h.withOccupied w).koRecapBlockHash = h.koRecapBlockHash from rfl]
    by_cases blocks : h.koRecapBlockHash = 0
    · rw [guard, if_pos blocks]
      cases h.banRepetitions board nextPla table <;> rfl
    · rw [guard, if_neg blocks]
      rfl
  · have main' : ¬ ((h.withOccupied w).encorePhase = 0 ∧ (h.withOccupied w).rules.koRule ≠ .simple) := main
    rw [if_neg main, if_neg main']
    unfold withOccupied
    dsimp only
    split_ifs <;> rfl

omit [Zobrist] [KoMarkZobrist] in
theorem chill_withOccupied :
    (h.withOccupied w).chill moveLoc movePla wasPassForKo = (h.chill moveLoc movePla wasPassForKo).map (withOccupied · w) := by
  unfold chill withOccupied
  dsimp only
  split_ifs
  · cases movePla <;> rfl
  · rfl

omit [Zobrist] [KoMarkZobrist] in
theorem updateHandicapBonus_withOccupied :
    (h.withOccupied w).updateHandicapBonus moveLoc movePla = (h.updateHandicapBonus moveLoc movePla).withOccupied w := by
  unfold updateHandicapBonus withOccupied
  dsimp only
  split_ifs <;> rfl

omit [Zobrist] [KoMarkZobrist] in
theorem scoreGame_withOccupied (score : Int) : (h.withOccupied w).scoreGame score = (h.scoreGame score).withOccupied w := by
  unfold scoreGame takeLeftButton withOccupied
  dsimp only
  split_ifs <;> rfl

omit [KoMarkZobrist] in
theorem endPhase_withOccupied : (h.withOccupied w).endPhase board movePla spightlike preventEncore =
    (h.endPhase board movePla spightlike preventEncore).map (withOccupied · w) := by
  have scored : (h.withOccupied w).endAndScoreGameNow board = (h.endAndScoreGameNow board).map (withOccupied · w) := by
    unfold endAndScoreGameNow
    rw [show (h.withOccupied w).boardScore board = h.boardScore board from rfl]
    cases h.boardScore board with
    | none => rfl
    | some scored => exact congrArg some (scoreGame_withOccupied scored.1)
  unfold endPhase
  by_cases ends : h.consecutiveEndingPasses ≥ 2 ∨ spightlike = true
  · have ends' : (h.withOccupied w).consecutiveEndingPasses ≥ 2 ∨ spightlike = true := ends
    rw [if_pos ends, if_pos ends', show (h.withOccupied w).rules = h.rules from rfl, scored,
      show (h.withOccupied w).encorePhase = h.encorePhase from rfl]
    cases h.rules.scoringRule with
    | area =>
      dsimp only
      by_cases main : h.encorePhase = 0
      · rw [guard, if_pos main]
        rfl
      · rw [guard, if_neg main]
        rfl
    | territory =>
      dsimp only
      split_ifs <;> rfl
  · have ends' : ¬ ((h.withOccupied w).consecutiveEndingPasses ≥ 2 ∨ spightlike = true) := ends
    rw [if_neg ends, if_neg ends']
    rfl

omit [Zobrist] [KoMarkZobrist] in
theorem breakLongCycles_withOccupied :
    (h.withOccupied w).breakLongCycles moveLoc table = (h.breakLongCycles moveLoc table).map (withOccupied · w) := by
  unfold breakLongCycles
  by_cases cycle : moveLoc ≠ passLoc ∧ (h.encorePhase > 0 ∨ h.rules.koRule = .simple)
  · have cycle' : moveLoc ≠ passLoc ∧ ((h.withOccupied w).encorePhase > 0 ∨ (h.withOccupied w).rules.koRule = .simple) := cycle
    rw [if_pos cycle, if_pos cycle', show (h.withOccupied w).koHashHistory = h.koHashHistory from rfl]
    cases h.koHashHistory.getLast? with
    | none => rfl
    | some koHash =>
      dsimp only [Option.bind_eq_bind, Option.bind_some]
      rw [show (h.withOccupied w).numberOfKoHashOccurrencesInHistory koHash table =
        h.numberOfKoHashOccurrencesInHistory koHash table from rfl]
      cases h.numberOfKoHashOccurrencesInHistory koHash table with
      | none => rfl
      | some occurrences =>
        dsimp only [Option.bind_some]
        split_ifs <;> rfl
  · have cycle' : ¬ (moveLoc ≠ passLoc ∧ ((h.withOccupied w).encorePhase > 0 ∨ (h.withOccupied w).rules.koRule = .simple)) := cycle
    rw [if_neg cycle, if_neg cycle']
    rfl

theorem playOrPassForKo_dims (run : h.playOrPassForKo board moveLoc movePla = some (h', board', wasPassForKo)) :
    board'.dims = board.dims := by
  unfold playOrPassForKo at run
  split at run
  · cases run
    rfl
  · obtain ⟨played, plays, run⟩ := Option.bind_eq_some_iff.mp run
    have kept := Board.playMoveAssumeLegal_dims plays
    split_ifs at run
    · unfold absorbKo at run
      split_ifs at run
      · cases run
        exact kept
      · cases run
        exact kept
    · cases run
      exact kept

theorem makeBoardMoveAssumeLegal_withOccupied (agree : ∀ loc ∈ board.locs, w loc = h.wasEverOccupiedOrPlayed loc) :
    (h.withOccupied w).makeBoardMoveAssumeLegal board moveLoc movePla table preventEncore =
      (h.makeBoardMoveAssumeLegal board moveLoc movePla table preventEncore).map fun r =>
        (r.1.withOccupied (occupy w moveLoc), r.2) := by
  have illegal : (if (h.withOccupied w).isGameFinished || (h.withOccupied w).isPastNormalPhaseEnd then
      (h.withOccupied w).capValidTurns else h.withOccupied w).isLegal board moveLoc movePla =
      (if h.isGameFinished || h.isPastNormalPhaseEnd then h.capValidTurns else h).isLegal board moveLoc movePla := by
    unfold withOccupied
    dsimp only
    split_ifs <;> rfl
  unfold makeBoardMoveAssumeLegal
  dsimp only
  rw [illegal]
  generalize (!(if h.isGameFinished || h.isPastNormalPhaseEnd then h.capValidTurns else h).isLegal board moveLoc movePla) =
    moveIsIllegal
  have start : (if (h.withOccupied w).isGameFinished || (h.withOccupied w).isPastNormalPhaseEnd then
      (h.withOccupied w).capValidTurns else h.withOccupied w).clearResult = h.opened.withOccupied w := opened_withOccupied
  have start' : (if h.isGameFinished || h.isPastNormalPhaseEnd then h.capValidTurns else h).clearResult = h.opened := rfl
  have marks : h.opened.wasEverOccupiedOrPlayed = h.wasEverOccupiedOrPlayed := by
    unfold opened
    split_ifs <;> rfl
  rw [start, start', updatePasses_withOccupied]
  cases passes : h.opened.updatePasses board moveLoc movePla with
  | none => rfl
  | some r =>
    obtain ⟨h₁, spightlike⟩ := r
    dsimp only [Option.map_some, Option.bind_eq_bind, Option.bind_some]
    rw [playOrPassForKo_withOccupied]
    cases plays : h₁.playOrPassForKo board moveLoc movePla with
    | none => rfl
    | some r =>
      obtain ⟨h₂, board', wasPassForKo⟩ := r
      dsimp only [Option.map_some, Option.bind_some]
      have agree' : ∀ loc ∈ board'.locs, occupy w moveLoc loc =
          (h₂.recordMove board' moveLoc movePla preventEncore moveIsIllegal).wasEverOccupiedOrPlayed loc := by
        obtain ⟨_, _, _, _, _, _, _, rfl, -⟩ := updatePasses_some passes
        have dims := playOrPassForKo_dims plays
        obtain ⟨_, _, _, rfl, -⟩ := playOrPassForKo_some plays
        intro loc inside
        have before : w loc = h.opened.wasEverOccupiedOrPlayed loc := by
          rw [marks]
          exact agree loc (by rwa [← Board.locs_congr dims])
        show occupy w moveLoc loc = occupy h.opened.wasEverOccupiedOrPlayed moveLoc loc
        unfold occupy
        split_ifs
        · by_cases here : loc = moveLoc
          · rw [here, Function.update_self, Function.update_self]
          · rw [Function.update_of_ne here, Function.update_of_ne here, before]
        · exact before
      rw [recordMove_withOccupied, updateSuperKoBanned_withOccupied agree']
      cases (h₂.recordMove board' moveLoc movePla preventEncore moveIsIllegal).updateSuperKoBanned board' (getOpp movePla) table with
      | none => rfl
      | some h₃ =>
        dsimp only [Option.map_some, Option.bind_some]
        rw [chill_withOccupied]
        cases h₃.chill moveLoc movePla wasPassForKo with
        | none => rfl
        | some h₄ =>
          dsimp only [Option.map_some, Option.bind_some]
          rw [updateHandicapBonus_withOccupied, endPhase_withOccupied]
          cases (h₄.updateHandicapBonus moveLoc movePla).endPhase board' movePla spightlike preventEncore with
          | none => rfl
          | some h₅ =>
            dsimp only [Option.map_some, Option.bind_some]
            rw [breakLongCycles_withOccupied]
            cases h₅.breakLongCycles moveLoc table <;> rfl

theorem makeBoardMoveAssumeLegal_marks
    (run : h.makeBoardMoveAssumeLegal board moveLoc movePla table preventEncore = some (h', board')) :
    h'.wasEverOccupiedOrPlayed = occupy h.wasEverOccupiedOrPlayed moveLoc ∧ board'.dims = board.dims := by
  obtain ⟨spightlike, wasPassForKo, illegal, h₁, h₂, h₃, h₄, h₅, passes, plays, bans, chills, ends, breaks⟩ :=
    makeBoardMoveAssumeLegal_some run
  have marks : h.opened.wasEverOccupiedOrPlayed = h.wasEverOccupiedOrPlayed := by
    unfold opened
    split_ifs <;> rfl
  refine ⟨?_, playOrPassForKo_dims plays⟩
  obtain ⟨_, _, _, _, _, _, _, rfl, -⟩ := updatePasses_some passes
  obtain ⟨_, _, _, rfl, -⟩ := playOrPassForKo_some plays
  obtain ⟨_, rfl⟩ := updateSuperKoBanned_some bans
  obtain ⟨_, chilled, -⟩ := chill_some chills
  obtain ⟨_, _, updated⟩ := h₄.updateHandicapBonus_eq moveLoc movePla
  have before : (h₄.updateHandicapBonus moveLoc movePla).wasEverOccupiedOrPlayed = occupy h.wasEverOccupiedOrPlayed moveLoc := by
    rw [updated, chilled, ← marks]
    rfl
  have ended : h₅.wasEverOccupiedOrPlayed = occupy h.wasEverOccupiedOrPlayed moveLoc := by
    rcases endPhase_some ends with rfl | ⟨score, area, -, rfl⟩ | ⟨-, -, rfl | rfl⟩
    · exact before
    · obtain ⟨_, _, _, scored, -⟩ := scoreGame_eq (h₄.updateHandicapBonus moveLoc movePla) score
      rw [scored]
      exact before
    · exact before
    · exact before
  rcases breakLongCycles_some breaks with rfl | rfl
  · exact ended
  · exact ended

end Occupied

/-- The histories have the same fields, but for marks off the board. -/
def Alike (board : Board) (h h' : BoardHistory) : Prop :=
  ∃ w, h' = h.withOccupied w ∧ ∀ loc ∈ board.locs, w loc = h.wasEverOccupiedOrPlayed loc

end BoardHistory

namespace Match

variable [Zobrist] [KoMarkZobrist] {g g' : Match}

/-- A move with its ko hash table and `preventEncore`. -/
structure HistoryMove where
  moveLoc : Loc
  movePla : Player
  rootKoHashTable : Option KoHashTable
  preventEncore : Bool

def moves (g : Match) (ms : List HistoryMove) : Option Match :=
  ms.foldlM (fun g m => g.move m.rootKoHashTable m.moveLoc m.movePla m.preventEncore) g

/-- The games have the same board and histories that are alike. -/
def Alike (g g' : Match) : Prop := g'.board = g.board ∧ g.hist.Alike g.board g'.hist

theorem Alike.move (alike : g.Alike g') (m : HistoryMove) :
    Option.Rel Alike (g.move m.rootKoHashTable m.moveLoc m.movePla m.preventEncore)
      (g'.move m.rootKoHashTable m.moveLoc m.movePla m.preventEncore) := by
  obtain ⟨board, w, same, agree⟩ := alike
  unfold Match.move
  rw [board, same, BoardHistory.makeBoardMoveAssumeLegal_withOccupied agree]
  cases run : g.hist.makeBoardMoveAssumeLegal g.board m.moveLoc m.movePla m.rootKoHashTable m.preventEncore with
  | none => exact .none
  | some r =>
    obtain ⟨marks, dims⟩ := BoardHistory.makeBoardMoveAssumeLegal_marks run
    refine .some ⟨rfl, _, rfl, fun loc inside => ?_⟩
    have before := agree loc (by rwa [← Board.locs_congr dims])
    show BoardHistory.occupy w m.moveLoc loc = r.1.wasEverOccupiedOrPlayed loc
    rw [marks]
    unfold BoardHistory.occupy
    split_ifs
    · by_cases here : loc = m.moveLoc
      · rw [here, Function.update_self, Function.update_self]
      · rw [Function.update_of_ne here, Function.update_of_ne here, before]
    · exact before

theorem Alike.moves (alike : g.Alike g') (ms : List HistoryMove) : Option.Rel Alike (g.moves ms) (g'.moves ms) := by
  induction ms generalizing g g' with
  | nil => exact .some alike
  | cons m ms ih =>
    have first := alike.move m
    unfold Match.moves
    rw [List.foldlM_cons, List.foldlM_cons]
    cases run : g.move m.rootKoHashTable m.moveLoc m.movePla m.preventEncore with
    | none =>
      rw [run] at first
      cases run' : g'.move m.rootKoHashTable m.moveLoc m.movePla m.preventEncore with
      | none => exact .none
      | some g₁' =>
        rw [run'] at first
        cases first
    | some g₁ =>
      rw [run] at first
      cases run' : g'.move m.rootKoHashTable m.moveLoc m.movePla m.preventEncore with
      | none =>
        rw [run'] at first
        cases first
      | some g₁' =>
        rw [run'] at first
        cases first with
        | some alike' => exact ih alike'

end Match

namespace BoardHistory

variable [Zobrist] [KoMarkZobrist] {h h₁ h₂ c c₁ c₂ : BoardHistory} {board : Board} {pla : Player} {r : Rules} {ePhase : Nat}

omit [KoMarkZobrist] in
/-- Two fields of a cleared history depend on the history before. -/
theorem clear_same (first : h₁.clear board pla r ePhase = some c₁) (second : h₂.clear board pla r ePhase = some c₂) :
    c₂ = { c₁ with wasEverOccupiedOrPlayed := c₂.wasEverOccupiedOrPlayed, hasButton := c₂.hasButton } := by
  obtain ⟨-, first⟩ := guard_bind_eq_some.mp first
  obtain ⟨-, first⟩ := guard_bind_eq_some.mp first
  obtain ⟨-, second⟩ := guard_bind_eq_some.mp second
  obtain ⟨-, second⟩ := guard_bind_eq_some.mp second
  cases first
  cases second
  rfl

omit [KoMarkZobrist] in
theorem clear_fields (cleared : h.clear board pla r ePhase = some c) :
    c.hasButton = (r.hasButton && decide (h.encorePhase = 0)) ∧
      ∀ loc ∈ board.locs, c.wasEverOccupiedOrPlayed loc = decide (board.colors loc ≠ .empty) := by
  obtain ⟨-, cleared⟩ := guard_bind_eq_some.mp cleared
  obtain ⟨-, cleared⟩ := guard_bind_eq_some.mp cleared
  cases cleared
  refine ⟨rfl, fun loc inside => ?_⟩
  show board.locs.foldl (fun occupied loc => Function.update occupied loc (decide (board.colors loc ≠ Color.empty)))
    h.wasEverOccupiedOrPlayed loc = _
  have written := foldl_write_apply (fun (_ : Loc) (_ : Bool) => true) (fun loc _ => decide (board.colors loc ≠ Color.empty))
    (boardLocs_nodup board.xSize board.ySize) h.wasEverOccupiedOrPlayed loc
  rw [if_pos ⟨inside, rfl⟩] at written
  exact written

/-- After `clear` two histories are alike, and stay alike whatever is played, exactly when the rules have no button
or the old encore phases were both zero or both not: the button is decided by the phase before the call. -/
theorem clear_forgets_iff (h₁ h₂ c₁ c₂ : BoardHistory) (board : Board) (pla : Player) (r : Rules) (ePhase : Nat)
    (first : h₁.clear board pla r ePhase = some c₁) (second : h₂.clear board pla r ePhase = some c₂) :
    (c₁.Alike board c₂ ∧ ∀ moves, Option.Rel Match.Alike (Match.moves ⟨c₁, board⟩ moves) (Match.moves ⟨c₂, board⟩ moves)) ↔
      (r.hasButton = false ∨ (h₁.encorePhase = 0 ↔ h₂.encorePhase = 0)) := by
  obtain ⟨button₁, marks₁⟩ := clear_fields first
  obtain ⟨button₂, marks₂⟩ := clear_fields second
  have buttons : c₂.hasButton = c₁.hasButton ↔ (r.hasButton = false ∨ (h₁.encorePhase = 0 ↔ h₂.encorePhase = 0)) := by
    rw [button₁, button₂]
    cases r.hasButton with
    | false => simp
    | true => simp [eq_comm]
  rw [← buttons]
  constructor
  · rintro ⟨⟨w, same, -⟩, -⟩
    rw [same]
    rfl
  · intro same
    have alike : c₁.Alike board c₂ := by
      refine ⟨c₂.wasEverOccupiedOrPlayed, ?_, fun loc inside => ?_⟩
      · rw [clear_same first second, same]
        rfl
      · rw [marks₁ loc inside, marks₂ loc inside]
    have games : Match.Alike ⟨c₁, board⟩ ⟨c₂, board⟩ := ⟨rfl, alike⟩
    exact ⟨alike, games.moves⟩

omit [Zobrist] [KoMarkZobrist] in
/-- A fresh history and one whose game has reached the encore, both cleared for a game with a button. -/
theorem clear_remembers_encore :
    letI := Zobrist.blank
    letI := KoMarkZobrist.blank
    ∃ board g₁ g₂ g₃ c₁ c₂, init 2 2 = some board ∧ Match.new board .black .getTrompTaylorish 0 = some g₁ ∧
      Match.new board .black { Rules.getTrompTaylorish with scoringRule := .territory } 0 = some g₂ ∧
      g₂.run [.makeBoardMoveAssumeLegal passLoc .black false, .makeBoardMoveAssumeLegal passLoc .white false] = some g₃ ∧
      g₁.hist.clear board .black { Rules.getTrompTaylorish with hasButton := true } 0 = some c₁ ∧
      g₃.hist.clear board .black { Rules.getTrompTaylorish with hasButton := true } 0 = some c₂ ∧
      c₁.hasButton = true ∧ c₂.hasButton = false := by
  let _ := Zobrist.blank
  let _ := KoMarkZobrist.blank
  have whole : ((init 2 2).bind fun board =>
      (Match.new board .black .getTrompTaylorish 0).bind fun g₁ =>
      (Match.new board .black { Rules.getTrompTaylorish with scoringRule := .territory } 0).bind fun g₂ =>
      (g₂.run [.makeBoardMoveAssumeLegal passLoc .black false, .makeBoardMoveAssumeLegal passLoc .white false]).bind fun g₃ =>
      (g₁.hist.clear board .black { Rules.getTrompTaylorish with hasButton := true } 0).bind fun c₁ =>
      (g₃.hist.clear board .black { Rules.getTrompTaylorish with hasButton := true } 0).map fun c₂ =>
        (c₁.hasButton, c₂.hasButton)) = some (true, false) := by
    decide +kernel
  obtain ⟨board, made, whole⟩ := Option.bind_eq_some_iff.mp whole
  obtain ⟨g₁, begun₁, whole⟩ := Option.bind_eq_some_iff.mp whole
  obtain ⟨g₂, begun₂, whole⟩ := Option.bind_eq_some_iff.mp whole
  obtain ⟨g₃, reached, whole⟩ := Option.bind_eq_some_iff.mp whole
  obtain ⟨c₁, cleared₁, whole⟩ := Option.bind_eq_some_iff.mp whole
  obtain ⟨c₂, cleared₂, buttons⟩ := Option.map_eq_some_iff.mp whole
  obtain ⟨one, two⟩ := Prod.mk.inj buttons
  exact ⟨board, g₁, g₂, g₃, c₁, c₂, made, begun₁, begun₂, reached, cleared₁, cleared₂, one, two⟩

omit [Zobrist] [KoMarkZobrist] in
/-- Two fresh histories, for different players and rules. -/
theorem clear_forgets_iff_fresh :
    letI := Zobrist.blank
    letI := KoMarkZobrist.blank
    ∃ board h₁ h₂ c₁ c₂, init 2 2 = some board ∧ new board .black .getTrompTaylorish 0 = some h₁ ∧
      new board .white { Rules.getTrompTaylorish with scoringRule := .territory } 0 = some h₂ ∧
      h₁.clear board .black { Rules.getTrompTaylorish with hasButton := true } 0 = some c₁ ∧
      h₂.clear board .black { Rules.getTrompTaylorish with hasButton := true } 0 = some c₂ ∧ c₁.Alike board c₂ := by
  let _ := Zobrist.blank
  let _ := KoMarkZobrist.blank
  have whole : ((init 2 2).bind fun board => (new board .black .getTrompTaylorish 0).bind fun h₁ =>
      (new board .white { Rules.getTrompTaylorish with scoringRule := .territory } 0).bind fun h₂ =>
      (h₁.clear board .black { Rules.getTrompTaylorish with hasButton := true } 0).bind fun c₁ =>
      (h₂.clear board .black { Rules.getTrompTaylorish with hasButton := true } 0).map fun c₂ =>
        (h₁.encorePhase, h₂.encorePhase)) = some (0, 0) := by
    decide +kernel
  obtain ⟨board, made, whole⟩ := Option.bind_eq_some_iff.mp whole
  obtain ⟨h₁, begun₁, whole⟩ := Option.bind_eq_some_iff.mp whole
  obtain ⟨h₂, begun₂, whole⟩ := Option.bind_eq_some_iff.mp whole
  obtain ⟨c₁, cleared₁, whole⟩ := Option.bind_eq_some_iff.mp whole
  obtain ⟨c₂, cleared₂, phases⟩ := Option.map_eq_some_iff.mp whole
  obtain ⟨one, two⟩ := Prod.mk.inj phases
  refine ⟨board, h₁, h₂, c₁, c₂, made, begun₁, begun₂, cleared₁, cleared₂, ?_⟩
  exact ((clear_forgets_iff h₁ h₂ c₁ c₂ board .black _ 0 cleared₁ cleared₂).2 (.inr (by rw [one, two]))).1

end BoardHistory
end KataGo.Game
