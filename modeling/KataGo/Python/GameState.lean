import KataGo.Python.Runs

/-! `GameState` in `python/katago/game/gamestate.py`: a game with its boards, its undo and its redo. The lists
grow at their ends, as in the source; `copy` takes over every field of a board. -/

namespace KataGo.Python
open KataGo.Game (Color Loc)

structure GameState where
  board : Board
  moves : List (Color × Loc)
  boards : List Board
  redoStack : List ((Color × Loc) × Board)

namespace GameState

/-- The constructor, or the text of the `ValueError` of the board. -/
def new (boardSize : Size) : Except String GameState := do
  let board ← init boardSize
  return ⟨board, [], [board], []⟩

def canUndo (s : GameState) : Bool := s.moves.length > 0

def canRedo (s : GameState) : Bool := s.redoStack.length > 0

/-- A new move that is the next one to redo takes it off the stack, and any other move clears the stack. -/
def afterMove (redoStack : List ((Color × Loc) × Board)) (move : Color × Loc) : List ((Color × Loc) × Board) :=
  match redoStack.getLast? with
  | none => redoStack
  | some (next, _) => if next = move then redoStack.dropLast else []

theorem afterMove_concat (below : List ((Color × Loc) × Board)) (next move : Color × Loc) (b : Board) :
    afterMove (below ++ [(next, b)]) move = if next = move then below else [] := by
  rw [afterMove, List.getLast?_concat, List.dropLast_concat]

def undo (s : GameState) : Option GameState :=
  match s.moves.getLast?, s.boards.getLast?, s.boards.dropLast.getLast? with
  | some move, some board, some before => some
      { board := before
        moves := s.moves.dropLast
        boards := s.boards.dropLast
        redoStack := s.redoStack ++ [(move, board)] }
  | _, _, _ => none

def redo (s : GameState) : Option GameState :=
  match s.redoStack.getLast? with
  | some (move, board) => some
      { board := board
        moves := s.moves ++ [move]
        boards := s.boards ++ [board]
        redoStack := s.redoStack.dropLast }
  | none => none

inductive Call where
  | play (pla : Color) (loc : Loc)
  | undo
  | redo

section Runs

variable [ZobristStone]

/-- The game after the move, or the text of the `IllegalMoveError`, which leaves the game as it is. -/
def play (s : GameState) (pla : Color) (loc : Loc) : Option (Except String GameState) :=
  (s.board.play pla loc).map fun result => result.map fun board =>
    { board := board
      moves := s.moves ++ [(pla, loc)]
      boards := s.boards ++ [board]
      redoStack := afterMove s.redoStack (pla, loc) }

/-- An illegal move is caught, and `undo` and `redo` are guarded. -/
def call (s : GameState) : Call → Option GameState
  | .play pla loc => (s.play pla loc).map fun result => match result with
      | .error _ => s
      | .ok s' => s'
  | .undo => if s.canUndo then s.undo else some s
  | .redo => if s.canRedo then s.redo else some s

def run (s : GameState) (calls : List Call) : Option GameState := calls.foldlM call s

/-- The moves of a redo stack, from its top, are legal one after the other and lead to the boards kept with them. -/
def Redoable : Board → List ((Color × Loc) × Board) → Prop
  | _, [] => True
  | b, (move, b') :: rest =>
      b.wouldBeLegal move.1 move.2 = true ∧ b.play move.1 move.2 = some (.ok b') ∧ Redoable b' rest

structure Coherent (s : GameState) : Prop where
  length : s.boards.length = s.moves.length + 1
  step : ∀ i move, s.moves[i]? = some move → ∃ b b', s.boards[i]? = some b ∧ s.boards[i + 1]? = some b' ∧
    b.play move.1 move.2 = some (.ok b')
  last : s.boards.getLast? = some s.board
  redo : Redoable s.board s.redoStack.reverse

/-- The board at the end of a line of play. -/
def endOf : Board → List ((Color × Loc) × Board) → Board
  | b, [] => b
  | _, (_, b') :: rest => endOf b' rest

/-- The game is a line of play from `first`: `past` are the moves made, and the redo stack goes on with them. -/
structure Timeline (s : GameState) (first : Board) (past : List ((Color × Loc) × Board)) : Prop where
  sound : first.Sound
  moves : s.moves = past.map Prod.fst
  boards : s.boards = first :: past.map Prod.snd
  board : s.board = endOf first past
  line : Redoable first (past ++ s.redoStack.reverse)

variable {s : GameState} {first b b' : Board} {past rest : List ((Color × Loc) × Board)} {move : Color × Loc}

theorem redoable_append : Redoable b (past ++ rest) ↔ Redoable b past ∧ Redoable (endOf b past) rest := by
  induction past generalizing b with
  | nil => simp [Redoable, endOf]
  | cons entry past ih =>
    obtain ⟨move, b'⟩ := entry
    simp only [List.cons_append, Redoable, endOf, ih, and_assoc]

omit [ZobristStone] in
theorem endOf_snoc : endOf b (past ++ [(move, b')]) = b' := by
  induction past generalizing b with
  | nil => rfl
  | cons entry past ih => exact ih

omit [ZobristStone] in
theorem getLast_boards : (first :: past.map Prod.snd).getLast? = some (endOf first past) := by
  induction past generalizing first with
  | nil => rfl
  | cons entry past ih => exact ih

theorem legal_of_play (played : b.play move.1 move.2 = some (.ok b')) : b.wouldBeLegal move.1 move.2 = true := by
  by_contra illegal
  obtain ⟨message, raised⟩ := Board.play_of_illegal (by simpa using illegal)
  rw [raised] at played
  exact absurd (Option.some.inj played) (by simp)

theorem sound_of_play (sound : b.Sound) (played : b.play move.1 move.2 = some (.ok b')) : b'.Sound := by
  rcases Board.keeps_play sound move.1 move.2 with ⟨message, raised⟩ | ⟨b₁, run, sound', -⟩
  · rw [raised] at played
    exact absurd (Option.some.inj played) (by simp)
  · obtain rfl := Except.ok.inj (Option.some.inj (run.symm.trans played))
    exact sound'

theorem sound_endOf (sound : b.Sound) (line : Redoable b past) : (endOf b past).Sound := by
  induction past generalizing b with
  | nil => exact sound
  | cons entry past ih => exact ih (sound_of_play sound line.2.1) line.2.2

theorem Timeline.sound_board (timeline : Timeline s first past) : s.board.Sound := by
  rw [timeline.board]
  exact sound_endOf timeline.sound (redoable_append.mp timeline.line).1

/-- A move that does not raise. -/
theorem Timeline.played (timeline : Timeline s first past) {pla : Color} {loc : Loc}
    (played : s.board.play pla loc = some (.ok b)) :
    Timeline ⟨b, s.moves ++ [(pla, loc)], s.boards ++ [b], afterMove s.redoStack (pla, loc)⟩ first
      (past ++ [((pla, loc), b)]) := by
  have legal := @legal_of_play _ _ _ (pla, loc) played
  obtain ⟨before, after⟩ := redoable_append.mp timeline.line
  refine ⟨timeline.sound, by simp [timeline.moves], by simp [timeline.boards], endOf_snoc.symm, ?_⟩
  rw [timeline.board] at played legal
  have alone : Redoable first (past ++ [((pla, loc), b)]) := redoable_append.mpr ⟨before, legal, played, trivial⟩
  rw [redoable_append, endOf_snoc]
  refine ⟨alone, ?_⟩
  change Redoable b (afterMove s.redoStack (pla, loc)).reverse
  rcases List.eq_nil_or_concat s.redoStack with none | ⟨below, top, stack⟩
  · rw [afterMove, none]
    trivial
  · obtain ⟨next, b'⟩ := top
    rw [stack, List.concat_eq_append, List.reverse_append] at after
    rw [stack, List.concat_eq_append, afterMove_concat]
    by_cases same : next = (pla, loc)
    · -- The stored board is the one that the move leads to again.
      subst same
      obtain ⟨-, again, later⟩ := after
      obtain rfl := Except.ok.inj (Option.some.inj (again.symm.trans played))
      rw [if_pos rfl]
      exact later
    · rw [if_neg same]
      trivial

theorem Timeline.undone (timeline : Timeline s first past) (guarded : s.canUndo = true) :
    ∃ s' past', s.undo = some s' ∧ Timeline s' first past' := by
  rcases List.eq_nil_or_concat past with rfl | ⟨past', ⟨move, b⟩, rfl⟩
  · rw [canUndo, timeline.moves] at guarded
    exact absurd guarded (by simp)
  · rw [List.concat_eq_append] at timeline
    refine ⟨⟨endOf first past', past'.map Prod.fst, first :: past'.map Prod.snd, s.redoStack ++ [(move, b)]⟩, past',
      ?_, timeline.sound, rfl, rfl, rfl, ?_⟩
    · have moves : s.moves = past'.map Prod.fst ++ [move] := by simpa using timeline.moves
      have boards : s.boards = (first :: past'.map Prod.snd) ++ [b] := by simpa using timeline.boards
      rw [undo, moves, boards, List.getLast?_concat, List.getLast?_concat, List.dropLast_concat, List.dropLast_concat,
        getLast_boards]
    · have line := timeline.line
      rw [List.append_assoc] at line
      rwa [List.reverse_append]

theorem Timeline.redone (timeline : Timeline s first past) (guarded : s.canRedo = true) :
    ∃ s' past', s.redo = some s' ∧ Timeline s' first past' := by
  rcases List.eq_nil_or_concat s.redoStack with none | ⟨below, ⟨move, b⟩, stack⟩
  · rw [canRedo, none] at guarded
    exact absurd guarded (by decide)
  · rw [List.concat_eq_append] at stack
    refine ⟨⟨b, s.moves ++ [move], s.boards ++ [b], below⟩, past ++ [(move, b)], ?_, timeline.sound, ?_, ?_,
      endOf_snoc.symm, ?_⟩
    · rw [redo, stack, List.getLast?_concat, List.dropLast_concat]
    · simp [timeline.moves]
    · simp [timeline.boards]
    · have line := timeline.line
      rw [stack, List.reverse_append] at line
      rw [List.append_assoc]
      exact line

/-- What one call preserves. -/
theorem Timeline.call (timeline : Timeline s first past) (call : Call) :
    ∃ s' past', s.call call = some s' ∧ Timeline s' first past' := by
  cases call with
  | play pla loc =>
    rcases Board.keeps_play timeline.sound_board pla loc with ⟨message, raised⟩ | ⟨b, played, -⟩
    · exact ⟨s, past, by rw [GameState.call, GameState.play, raised]; rfl, timeline⟩
    · exact ⟨_, _, by rw [GameState.call, GameState.play, played]; rfl, timeline.played played⟩
  | undo =>
    by_cases guarded : s.canUndo = true
    · obtain ⟨s', past', undone, timeline'⟩ := timeline.undone guarded
      exact ⟨s', past', (if_pos guarded).trans undone, timeline'⟩
    · exact ⟨s, past, if_neg guarded, timeline⟩
  | redo =>
    by_cases guarded : s.canRedo = true
    · obtain ⟨s', past', redone, timeline'⟩ := timeline.redone guarded
      exact ⟨s', past', (if_pos guarded).trans redone, timeline'⟩
    · exact ⟨s, past, if_neg guarded, timeline⟩

theorem Timeline.run (timeline : Timeline s first past) (calls : List Call) :
    ∃ s' past', s.run calls = some s' ∧ Timeline s' first past' := by
  induction calls generalizing s past with
  | nil => exact ⟨s, past, rfl, timeline⟩
  | cons call calls ih =>
    obtain ⟨s₁, past₁, once, timeline₁⟩ := timeline.call call
    obtain ⟨s', past', rest, timeline'⟩ := ih timeline₁
    refine ⟨s', past', ?_, timeline'⟩
    rw [GameState.run, List.foldlM_cons, once]
    exact rest

/-- The moves of a line of play join neighbouring boards. -/
theorem Redoable.step (line : Redoable b past) {i : Nat} (at_i : (past.map Prod.fst)[i]? = some move) :
    ∃ b₁ b₂, (b :: past.map Prod.snd)[i]? = some b₁ ∧ (b :: past.map Prod.snd)[i + 1]? = some b₂ ∧
      b₁.play move.1 move.2 = some (.ok b₂) := by
  induction past generalizing b i with
  | nil => simp at at_i
  | cons entry past ih =>
    obtain ⟨move', b'⟩ := entry
    cases i with
    | zero =>
      obtain rfl : move' = move := by simpa using at_i
      exact ⟨b, b', rfl, rfl, line.2.1⟩
    | succ i => exact ih line.2.2 at_i

theorem Timeline.coherent (timeline : Timeline s first past) : s.Coherent := by
  obtain ⟨before, after⟩ := redoable_append.mp timeline.line
  refine ⟨by simp [timeline.boards, timeline.moves], fun i move at_i => ?_, ?_, ?_⟩
  · rw [timeline.moves] at at_i
    rw [timeline.boards]
    exact before.step at_i
  · rw [timeline.boards, timeline.board]
    exact getLast_boards
  · rw [timeline.board]
    exact after

/-- Every sequence of calls leaves the moves, the boards and the redo stack of a game in step. -/
theorem run_coherent (boardSize : Size) (s : GameState) (start : new boardSize = .ok s) (calls : List Call) :
    ∃ s', s.run calls = some s' ∧ s'.Coherent := by
  obtain ⟨b, empty, rfl⟩ : ∃ b, init boardSize = .ok b ∧ s = ⟨b, [], [b], []⟩ := by
    unfold new at start
    cases made : init boardSize with
    | error message =>
      rw [made] at start
      exact (nomatch start)
    | ok b =>
      rw [made] at start
      exact ⟨b, rfl, (Except.ok.inj start).symm⟩
  have timeline : Timeline ⟨b, [], [b], []⟩ b [] := ⟨(Session.sound_init empty).board, rfl, rfl, rfl, trivial⟩
  obtain ⟨s', past, run, timeline'⟩ := timeline.run calls
  exact ⟨s', run, timeline'.coherent⟩

omit [ZobristStone] in
/-- On a board of four points: a move repeated after its undo, an illegal one, and one off the redo line. -/
theorem run_coherent_four_points :
    letI : ZobristStone := ⟨fun _ _ => 0⟩
    ∃ s s', new (.square 2) = .ok s ∧ s'.Coherent ∧ s.run
      [.play .black 4, .play .white 5, .undo, .undo, .play .black 4, .play .black 4, .redo, .undo, .play .white 7] = some s' := by
  let _ : ZobristStone := ⟨fun _ _ => 0⟩
  obtain ⟨s', run, coherent⟩ := run_coherent (.square 2) _ rfl
    [.play .black 4, .play .white 5, .undo, .undo, .play .black 4, .play .black 4, .redo, .undo, .play .white 7]
  exact ⟨_, s', rfl, coherent, run⟩

end Runs

end GameState
end KataGo.Python
