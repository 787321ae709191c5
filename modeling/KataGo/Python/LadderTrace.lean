import KataGo.Python.LadderRuns

/-! A recorded move that is undone, and the ladder search, leave the stones, the ko point and the counters
as they were. The player to move is afterwards the one who moved. -/

namespace KataGo.Python
open KataGo.Lib
open KataGo.Game (Color Player getOpp Loc)

namespace Board

/-- The same stones and the same ko point. -/
structure SamePosition (b b' : Board) : Prop where
  xSize : b'.xSize = b.xSize
  ySize : b'.ySize = b.ySize
  board : b'.board = b.board
  simpleKoPoint : b'.simpleKoPoint = b.simpleKoPoint

/-- Everything that a game counts, but for the player to move. -/
structure Untouched (b b' : Board) : Prop extends SamePosition b b' where
  numCapturesMade : b'.numCapturesMade = b.numCapturesMade
  numNonPassMovesMade : b'.numNonPassMovesMade = b.numNonPassMovesMade

theorem SamePosition.refl (b : Board) : SamePosition b b := ⟨rfl, rfl, rfl, rfl⟩

theorem SamePosition.trans {b b' b'' : Board} (first : SamePosition b b') (second : SamePosition b' b'') :
    SamePosition b b'' :=
  ⟨second.xSize.trans first.xSize, second.ySize.trans first.ySize, second.board.trans first.board,
    second.simpleKoPoint.trans first.simpleKoPoint⟩

theorem SamePosition.symm {b b' : Board} (same : SamePosition b b') : SamePosition b' b :=
  ⟨same.xSize.symm, same.ySize.symm, same.board.symm, same.simpleKoPoint.symm⟩

theorem Untouched.refl (b : Board) : Untouched b b := ⟨SamePosition.refl b, rfl, rfl⟩

theorem Untouched.trans {b b' b'' : Board} (first : Untouched b b') (second : Untouched b' b'') : Untouched b b'' :=
  ⟨first.toSamePosition.trans second.toSamePosition, second.numCapturesMade.trans first.numCapturesMade,
    second.numNonPassMovesMade.trans first.numNonPassMovesMade⟩

variable {b b' b₁ b₂ b₃ : Board} {loc p : Loc} {pla : Color} {record : MoveRecord}

theorem LedTo.congr (led : LedTo b b₁ record) (xSize : b₂.xSize = b₁.xSize) (ySize : b₂.ySize = b₁.ySize)
    (board : b₂.board = b₁.board) : LedTo b b₂ record := by
  obtain ⟨sizeX, sizeY, led⟩ := led
  refine ⟨xSize.trans sizeX, ySize.trans sizeY, led.imp (fun pass => ⟨pass.1, board.trans pass.2⟩) fun recorded => ?_⟩
  exact ⟨recorded.blank, recorded.player, board.trans recorded.board, recorded.capDirs,
    by rw [board]; exact recorded.selfCap⟩

variable [ZobristStone]

/-- The record keeps what `undo` restores. -/
theorem resetTo_record (played : b.playRecordedUnsafe pla p = some (b₁, record)) (b₂ : Board) :
    (b₂.resetTo record).simpleKoPoint = b.simpleKoPoint ∧ (b₂.resetTo record).numCapturesMade = b.numCapturesMade ∧
      (b₂.resetTo record).numNonPassMovesMade = b.numNonPassMovesMade ∧ (b₂.resetTo record).pla = pla := by
  obtain ⟨b', _, result⟩ := Option.bind_eq_some_iff.mp played
  obtain ⟨-, rfl⟩ := Prod.mk.inj (Option.some.inj result)
  exact ⟨rfl, rfl, rfl, rfl⟩

/-- The board as the record was made, on any board in order that shows the position after the move. -/
theorem undo_untouched (sound : b.Sound) (legal : b.wouldBeLegal pla p = true)
    (played : b.playRecordedUnsafe pla p = some (b₁, record)) (sound₂ : b₂.Sound) (xSize : b₂.xSize = b₁.xSize)
    (ySize : b₂.ySize = b₁.ySize) (board : b₂.board = b₁.board) :
    ∃ b₃, b₂.undo record = some b₃ ∧ b₃.Sound ∧ Untouched b b₃ ∧ b₃.pla = pla := by
  obtain ⟨player, open'⟩ := open_of_legal legal
  obtain ⟨b', record', run, -, led⟩ := playRecordedUnsafe_ledTo sound player open'
  obtain ⟨rfl, rfl⟩ := Prod.mk.inj (Option.some.inj (run.symm.trans played))
  obtain ⟨ko, captures, nonPass, mover⟩ := resetTo_record played b₂
  obtain ⟨sizeX, sizeY, ⟨pass, same⟩ | recorded⟩ := led.congr xSize ySize board
  · exact ⟨b₂.resetTo record', if_pos pass, sound₂.congr rfl rfl rfl rfl rfl rfl rfl rfl,
      ⟨⟨sizeX, sizeY, same, ko⟩, captures, nonPass⟩, mover⟩
  · obtain ⟨b₃, undone, regular, same, board₃⟩ := undo_restores sound.regular sound.alive recorded sound₂.regular sizeX
    have restored : Untouched b b₃ := ⟨⟨same.xSize.trans sizeX, same.ySize.trans sizeY, board₃, same.simpleKoPoint.trans ko⟩,
      same.numCapturesMade.trans captures, same.numNonPassMovesMade.trans nonPass⟩
    refine ⟨b₃, undone, ⟨regular, fun q stone => ?_⟩, restored, same.pla.trans mover⟩
    rw [board₃] at stone
    rw [liberties, board₃, restored.xSize]
    exact sound.alive q stone

/-- The moves of a level make some legal move. -/
def levelPlays (loc : Loc) (pla : Player) (isDefender : Bool) (b : Board) : Option (List Loc) → Bool
  | some moves => moves.any (b.wouldBeLegal (mover pla isDefender))
  | none =>
    match enterLevel loc pla isDefender b with
    | some (.inr moves) => moves.any (b.wouldBeLegal (mover pla isDefender))
    | _ => false

theorem playRecordedUnsafe_sound (sound : b.Sound) (legal : b.wouldBeLegal pla p = true)
    (played : b.playRecordedUnsafe pla p = some (b₁, record)) : b₁.Sound := by
  obtain ⟨player, open'⟩ := open_of_legal legal
  obtain ⟨b', record', run, sound', -⟩ := playRecordedUnsafe_ledTo sound player open'
  obtain ⟨rfl, -⟩ := Prod.mk.inj (Option.some.inj (run.symm.trans played))
  exact sound'

/-- What a level leaves: only the player to move can be another, and is then the one who moved. -/
theorem Searched.untouched {isDefender value : Bool} {moves : Option (List Loc)}
    (searched : Searched loc pla isDefender moves b value b') (sound : b.Sound) :
    b'.Sound ∧ Untouched b b' ∧
      b'.pla = if levelPlays loc pla isDefender b moves then mover pla isDefender else b.pla := by
  induction searched with
  | settled entered => exact ⟨sound, Untouched.refl _, by rw [levelPlays, entered]; rfl⟩
  | listed entered tried ih =>
    obtain ⟨sound', untouched, player⟩ := ih sound
    refine ⟨sound', untouched, ?_⟩
    rw [player, levelPlays, levelPlays, entered]
  | exhausted => exact ⟨sound, Untouched.refl _, rfl⟩
  | illegal banned tried ih =>
    obtain ⟨sound', untouched, player⟩ := ih sound
    refine ⟨sound', untouched, ?_⟩
    rw [player, levelPlays, levelPlays, List.any_cons, banned, Bool.false_or]
  | decided legal played deeper undone ih =>
    obtain ⟨sound₂, below, -⟩ := ih (playRecordedUnsafe_sound sound legal played)
    obtain ⟨b₃, run, sound₃, untouched, player⟩ := undo_untouched sound legal played sound₂ below.xSize below.ySize below.board
    obtain rfl := Option.some.inj (run.symm.trans undone)
    refine ⟨sound₃, untouched, ?_⟩
    rw [player, levelPlays, List.any_cons, legal, Bool.true_or, if_pos rfl]
  | failed legal played deeper undone tried ih ih' =>
    obtain ⟨sound₂, below, -⟩ := ih (playRecordedUnsafe_sound sound legal played)
    obtain ⟨b₃, run, sound₃, untouched, player⟩ := undo_untouched sound legal played sound₂ below.xSize below.ySize below.board
    obtain rfl := Option.some.inj (run.symm.trans undone)
    obtain ⟨sound', later, player'⟩ := ih' sound₃
    refine ⟨sound', untouched.trans later, ?_⟩
    rw [player', player, ite_self, levelPlays, List.any_cons, legal, Bool.true_or, if_pos rfl]

omit [ZobristStone] in
/-- The board with its ko point cleared or put back. -/
theorem Sound.setKo (sound : b.Sound) (ko : Option Loc) : ({ b with simpleKoPoint := ko } : Board).Sound :=
  sound.congr rfl rfl rfl rfl rfl rfl rfl rfl

section Calls

variable (b loc) (defenderFirst : Bool)

/-- The board on which the first level is searched. -/
def searchStart : Board := if defenderFirst then { b with simpleKoPoint := none } else b

/-- `searchIsLadderCaptured` goes beyond its first tests. -/
def searches : Bool :=
  b.isOnBoard loc && decide (b.board loc = .black ∨ b.board loc = .white) &&
    !decide (b.libertyCount loc > 2 ∨ defenderFirst ∧ b.libertyCount loc > 1)

/-- `searchIsLadderCaptured` plays a move at its first level. -/
def searchPlays : Bool :=
  b.searches loc defenderFirst && levelPlays loc (b.board loc) defenderFirst (b.searchStart defenderFirst) none

/-- `searchIsLadderCapturedAttackerFirst2Libs` plays a move. -/
def attackerFirstPlays : Bool :=
  b.isOnBoard loc && decide (b.board loc = .black ∨ b.board loc = .white) && decide (b.libertyCount loc = 2) &&
    match b.findLiberties loc [] with
    | some moves => moves.any (b.wouldBeLegal (getOpp (b.board loc)))
    | none => false

end Calls

variable {defenderFirst : Bool} {rounds : Nat}

theorem searchIsLadderCaptured_eq (b : Board) (loc : Loc) (defenderFirst : Bool) (rounds : Nat) :
    b.searchIsLadderCaptured loc defenderFirst rounds =
      if b.searches loc defenderFirst then
        (searchLoop loc (b.board loc) defenderFirst rounds ⟨b.searchStart defenderFirst, [⟨[], none, none⟩], false, false⟩).map
          fun s => ({ s.board with simpleKoPoint := b.simpleKoPoint }, s.returnValue)
      else some (b, false) := by
  unfold searchIsLadderCaptured searches
  cases b.isOnBoard loc with
  | false => rfl
  | true =>
    by_cases stone : b.board loc = .black ∨ b.board loc = .white
    · rw [if_neg (by decide), if_neg (by tauto), decide_eq_true stone]
      by_cases settled : b.libertyCount loc > 2 ∨ defenderFirst = true ∧ b.libertyCount loc > 1
      · rw [if_pos settled, decide_eq_true settled]
        rfl
      · rw [if_neg settled, decide_eq_false settled]
        exact Option.map_eq_bind.symm
    · rw [if_neg (by decide), if_pos (by tauto), decide_eq_false stone]
      rfl

/-- A search that returns, and the level it searched. -/
theorem searchIsLadderCaptured_cases {answer : Bool}
    (run : b.searchIsLadderCaptured loc defenderFirst rounds = some (b', answer)) :
    b.searches loc defenderFirst = false ∧ b' = b ∧ answer = false ∨
      b.searches loc defenderFirst = true ∧ ∃ b₁, b' = { b₁ with simpleKoPoint := b.simpleKoPoint } ∧
        Searched loc (b.board loc) defenderFirst none (b.searchStart defenderFirst) answer b₁ := by
  rw [searchIsLadderCaptured_eq] at run
  cases goesOn : b.searches loc defenderFirst with
  | false =>
    rw [goesOn] at run
    obtain ⟨rfl, rfl⟩ := Prod.mk.inj (Option.some.inj run)
    exact Or.inl ⟨rfl, rfl, rfl⟩
  | true =>
    rw [goesOn, if_pos rfl] at run
    obtain ⟨final, looped, result⟩ := Option.map_eq_some_iff.mp run
    obtain ⟨rfl, rfl⟩ := Prod.mk.inj result
    exact Or.inr ⟨rfl, final.board, rfl, searched_of_loop looped⟩

theorem searchIsLadderCaptured_untouched {answer : Bool} (sound : b.Sound)
    (run : b.searchIsLadderCaptured loc defenderFirst rounds = some (b', answer)) :
    b'.Sound ∧ Untouched b b' ∧
      b'.pla = if b.searchPlays loc defenderFirst then mover (b.board loc) defenderFirst else b.pla := by
  rcases searchIsLadderCaptured_cases run with ⟨stops, rfl, -⟩ | ⟨goesOn, b₁, rfl, searched⟩
  · exact ⟨sound, Untouched.refl _, by rw [searchPlays, stops]; rfl⟩
  · have start : (b.searchStart defenderFirst).Sound := by
      unfold searchStart
      split_ifs
      · exact sound.setKo none
      · exact sound
    have same : (b.searchStart defenderFirst).xSize = b.xSize ∧ (b.searchStart defenderFirst).ySize = b.ySize ∧
        (b.searchStart defenderFirst).board = b.board ∧
        (b.searchStart defenderFirst).numCapturesMade = b.numCapturesMade ∧
        (b.searchStart defenderFirst).numNonPassMovesMade = b.numNonPassMovesMade ∧
        (b.searchStart defenderFirst).pla = b.pla := by
      unfold searchStart
      split_ifs <;> exact ⟨rfl, rfl, rfl, rfl, rfl, rfl⟩
    obtain ⟨xSize, ySize, board, captures, nonPass, player⟩ := same
    obtain ⟨sound', untouched, player'⟩ := searched.untouched start
    refine ⟨sound'.setKo _, ⟨⟨untouched.xSize.trans xSize, untouched.ySize.trans ySize, untouched.board.trans board, rfl⟩,
      untouched.numCapturesMade.trans captures, untouched.numNonPassMovesMade.trans nonPass⟩, ?_⟩
    rw [searchPlays, goesOn, Bool.true_and, ← player]
    exact player'

theorem tryAttackerFirst_untouched {opp : Player} {move : Loc} {works : Bool} (sound : b.Sound)
    (run : b.tryAttackerFirst loc opp move rounds = some (b', works)) :
    b'.Sound ∧ Untouched b b' ∧ b'.pla = if b.wouldBeLegal opp move then opp else b.pla := by
  unfold tryAttackerFirst at run
  cases legal : b.wouldBeLegal opp move with
  | false =>
    rw [legal] at run
    obtain ⟨rfl, -⟩ := Prod.mk.inj (Option.some.inj run)
    exact ⟨sound, Untouched.refl _, rfl⟩
  | true =>
    rw [legal, if_pos rfl] at run
    obtain ⟨⟨b₁, record⟩, played, run⟩ := Option.bind_eq_some_iff.mp run
    obtain ⟨⟨b₂, answer⟩, searched, run⟩ := Option.bind_eq_some_iff.mp run
    obtain ⟨b₃, undone, result⟩ := Option.bind_eq_some_iff.mp run
    obtain ⟨rfl, -⟩ := Prod.mk.inj (Option.some.inj result)
    obtain ⟨sound₂, below, -⟩ := searchIsLadderCaptured_untouched (playRecordedUnsafe_sound sound legal played) searched
    obtain ⟨b₃, run, sound₃, untouched, player⟩ := undo_untouched sound legal played sound₂ below.xSize below.ySize below.board
    obtain rfl := Option.some.inj (run.symm.trans undone)
    exact ⟨sound₃, untouched, player⟩

/-- A call of `searchIsLadderCapturedAttackerFirst2Libs` that returns: it stops at once, or tries both liberties. -/
theorem attackerFirst_cases {moves : List Loc}
    (run : b.searchIsLadderCapturedAttackerFirst2Libs loc rounds = some (b', moves)) :
    b.attackerFirstPlays loc = false ∧ b' = b ∧ moves = [] ∨
      ∃ move0 move1 b₁ works0 works1, b.findLiberties loc [] = some [move0, move1] ∧
        b.attackerFirstPlays loc = [move0, move1].any (b.wouldBeLegal (getOpp (b.board loc))) ∧
        b.tryAttackerFirst loc (getOpp (b.board loc)) move0 rounds = some (b₁, works0) ∧
        b₁.tryAttackerFirst loc (getOpp (b.board loc)) move1 rounds = some (b', works1) ∧
        moves = (if works0 then [move0] else []) ++ if works1 then [move1] else [] := by
  unfold searchIsLadderCapturedAttackerFirst2Libs at run
  unfold attackerFirstPlays
  cases inside : b.isOnBoard loc with
  | false =>
    rw [inside] at run
    obtain ⟨rfl, rfl⟩ := Prod.mk.inj (Option.some.inj run)
    exact Or.inl ⟨rfl, rfl, rfl⟩
  | true =>
    rw [inside, if_neg (by decide)] at run
    by_cases stone : b.board loc = .black ∨ b.board loc = .white
    swap
    · rw [if_pos (by tauto)] at run
      obtain ⟨rfl, rfl⟩ := Prod.mk.inj (Option.some.inj run)
      exact Or.inl ⟨by rw [decide_eq_false stone]; rfl, rfl, rfl⟩
    rw [if_neg (by tauto)] at run
    by_cases two : b.libertyCount loc = 2
    swap
    · rw [if_pos two] at run
      obtain ⟨rfl, rfl⟩ := Prod.mk.inj (Option.some.inj run)
      exact Or.inl ⟨by rw [decide_eq_false two, Bool.and_false]; rfl, rfl, rfl⟩
    rw [if_neg (not_not.mpr two)] at run
    obtain ⟨found, liberties, run⟩ := Option.bind_eq_some_iff.mp run
    rw [liberties, decide_eq_true stone, decide_eq_true two]
    match found with
    | [move0, move1] =>
      obtain ⟨⟨b₁, works0⟩, first, run⟩ := Option.bind_eq_some_iff.mp run
      obtain ⟨⟨b₂, works1⟩, second, result⟩ := Option.bind_eq_some_iff.mp run
      obtain ⟨rfl, rfl⟩ := Prod.mk.inj (Option.some.inj result)
      exact Or.inr ⟨move0, move1, b₁, works0, works1, rfl, rfl, first, second, rfl⟩

theorem attackerFirst_untouched {moves : List Loc} (sound : b.Sound)
    (run : b.searchIsLadderCapturedAttackerFirst2Libs loc rounds = some (b', moves)) :
    b'.Sound ∧ Untouched b b' ∧ b'.pla = if b.attackerFirstPlays loc then getOpp (b.board loc) else b.pla := by
  rcases attackerFirst_cases run with ⟨stops, rfl, -⟩ | ⟨move0, move1, b₁, _, _, -, plays, first, second, -⟩
  · exact ⟨sound, Untouched.refl _, by rw [stops]; rfl⟩
  · obtain ⟨sound₁, untouched₁, player₁⟩ := tryAttackerFirst_untouched sound first
    obtain ⟨sound', untouched, player⟩ := tryAttackerFirst_untouched sound₁ second
    refine ⟨sound', untouched₁.trans untouched, ?_⟩
    rw [plays, player, player₁]
    cases legal : b.wouldBeLegal (getOpp (b.board loc)) move0 with
    | true => simp [legal]
    | false =>
      -- The first liberty was not tried, so the second is tried on the same board.
      rw [tryAttackerFirst, legal] at first
      obtain ⟨rfl, -⟩ := Prod.mk.inj (Option.some.inj first)
      simp [legal]

omit [ZobristStone] in
theorem untouched_iff {plays : Bool} {k : Player} (kept : Untouched b b') (player : b'.pla = if plays then k else b.pla) :
    Untouched b b' ∧ b'.pla = b.pla ↔ (plays = true → b.pla = k) := by
  rw [and_iff_right kept, player]
  cases plays with
  | false => simp
  | true => simp [eq_comm]

end Board

open Board

/-- A ladder search, and an undo of the move just played, leave everything as it was exactly when the side that
moved first was to move, or nobody moved. -/
theorem ladder_and_undo_trace [ZobristStone] (size : Size) (b₀ : Board) (start : init size = .ok b₀) (ops : List Op)
    (admissible : (⟨b₀, []⟩ : Session).allAdmissible ops = true) (s : Session)
    (run : (⟨b₀, []⟩ : Session).run ops = some s) (turn : Player) (b : Board) (reached : b = { s.board with pla := turn }) :
    (∀ loc defenderFirst rounds b' answer, (b.board loc).IsStone →
      b.searchIsLadderCaptured loc defenderFirst rounds = some (b', answer) →
        (Untouched b b' ∧ b'.pla = b.pla ↔
          (b.searchPlays loc defenderFirst = true → b.pla = mover (b.board loc) defenderFirst))) ∧
    (∀ loc rounds b' moves, (b.board loc).IsStone →
      b.searchIsLadderCapturedAttackerFirst2Libs loc rounds = some (b', moves) →
        (Untouched b b' ∧ b'.pla = b.pla ↔ (b.attackerFirstPlays loc = true → b.pla = getOpp (b.board loc)))) ∧
    ∀ pla loc, b.wouldBeLegal pla loc = true → ∃ b₁ record b', b.playRecordedUnsafe pla loc = some (b₁, record) ∧
      b₁.undo record = some b' ∧ (Untouched b b' ∧ b'.pla = b.pla ↔ b.pla = pla) := by
  obtain ⟨s', run', sound'⟩ := (Session.sound_init start).run ops admissible
  obtain rfl := Option.some.inj (run'.symm.trans run)
  have sound : b.Sound := by
    rw [reached]
    exact sound'.board.congr rfl rfl rfl rfl rfl rfl rfl rfl
  refine ⟨fun loc defenderFirst rounds b' answer _ search => ?_, fun loc rounds b' moves _ search => ?_,
    fun pla loc legal => ?_⟩
  · obtain ⟨-, kept, player⟩ := searchIsLadderCaptured_untouched sound search
    exact untouched_iff kept player
  · obtain ⟨-, kept, player⟩ := attackerFirst_untouched sound search
    exact untouched_iff kept player
  · obtain ⟨stone, open'⟩ := open_of_legal legal
    obtain ⟨b₁, record, played, sound₁, -⟩ := playRecordedUnsafe_ledTo sound stone open'
    obtain ⟨b', undone, -, kept, player⟩ := undo_untouched sound legal played sound₁ rfl rfl rfl
    refine ⟨b₁, record, b', played, undone, ?_⟩
    rw [and_iff_right kept, player]
    exact eq_comm

/-- After a white stone in a corner of the smallest board. -/
theorem ladder_and_undo_trace_corner :
    letI : ZobristStone := ⟨fun _ _ => 0⟩
    ∃ b : Board, b.board 4 = .white ∧ b.pla = .black ∧
      (∀ b' moves, b.searchIsLadderCapturedAttackerFirst2Libs 4 20 = some (b', moves) →
        Untouched b b' ∧ b'.pla = b.pla) ∧ ∃ b₁ record b', b.playRecordedUnsafe .black 5 = some (b₁, record) ∧
          b₁.undo record = some b' ∧ Untouched b b' ∧ b'.pla = b.pla := by
  let _ : ZobristStone := ⟨fun _ _ => 0⟩
  have whole : ∃ s, (⟨emptyBoard 2 2, []⟩ : Session).run [.playRecordedUnsafe .white 4] = some s ∧
      s.board.board 4 = .white ∧ s.board.pla = .black ∧ s.board.wouldBeLegal .black 5 = true := by
    have ends : (((⟨emptyBoard 2 2, []⟩ : Session).run [.playRecordedUnsafe .white 4]).any fun s =>
      decide (s.board.board 4 = .white) && decide (s.board.pla = .black) && s.board.wouldBeLegal .black 5) = true := by
      decide +kernel
    obtain ⟨s, run, holds⟩ := (Option.any_eq_true _ _).mp ends
    simp only [Bool.and_eq_true, decide_eq_true_eq] at holds
    exact ⟨s, run, holds.1.1, holds.1.2, holds.2⟩
  obtain ⟨s, run, white, turn, legal⟩ := whole
  obtain ⟨-, search, undo⟩ := ladder_and_undo_trace (.square 2) (emptyBoard 2 2) rfl [.playRecordedUnsafe .white 4]
    (by decide +kernel) s run s.board.pla s.board rfl
  refine ⟨s.board, white, turn, fun b' moves found => ?_, ?_⟩
  · exact (search 4 20 b' moves (by rw [white]; decide) found).mpr fun _ => by rw [turn, white]; rfl
  · obtain ⟨b₁, record, b', played, undone, restored⟩ := undo .black 5 legal
    exact ⟨b₁, record, b', played, undone, restored.mpr turn⟩

/-- White plays out of turn on the empty board, the move is undone, and White is to move. -/
theorem undo_keeps_mover :
    letI : ZobristStone := ⟨fun _ _ => 0⟩
    (emptyBoard 2 2).pla = .black ∧ (emptyBoard 2 2).wouldBeLegal .white 4 = true ∧
      (((emptyBoard 2 2).playRecordedUnsafe .white 4).bind fun played => played.1.undo played.2).map Board.pla =
        some .white := by
  decide +kernel

end KataGo.Python
