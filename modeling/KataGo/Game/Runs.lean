import KataGo.Game.Undo
import KataGo.Game.Placement

/-! Whole sequences of operations on a board. A session keeps the records of the moves that
can still be undone: a move that was recorded can be undone as long as the position it
led to is on the board, and records are taken back in the opposite order. -/

namespace KataGo.Game
open KataGo.Lib Labelling

inductive Op where
  | playMove (loc : Loc) (pla : Player) (isMultiStoneSuicideLegal : Bool)
  | playMoveRecorded (loc : Loc) (pla : Player)
  | undo
  | setStone (loc : Loc) (color : Color)
  | setStoneFailIfNoLibs (loc : Loc) (color : Color)
  | setStonesFailIfNoLibs (placements : List Move)
  | setStonesTolerant (placements : List Move)
  deriving DecidableEq

structure Session where
  board : Board
  records : List MoveRecord

variable [Zobrist]

namespace Session

/-- An operation that is not recorded: earlier records stay good only if it changed nothing. -/
def advance {α : Type} (s : Session) (result : Option (Board × α)) : Option Session := do
  let (b, _) ← result
  let unchanged := b.xSize = s.board.xSize ∧ b.ySize = s.board.ySize ∧
    ∀ p ∈ b.locs, b.colors p = s.board.colors p
  return ⟨b, if unchanged then s.records else []⟩

def apply (s : Session) : Op → Option Session
  | .playMove loc pla isMultiStoneSuicideLegal => s.advance (s.board.playMove loc pla isMultiStoneSuicideLegal)
  | .playMoveRecorded loc pla => do
      let (b, record) ← s.board.playMoveRecorded loc pla
      return ⟨b, record :: s.records⟩
  | .undo =>
      match s.records with
      | [] => none
      | record :: records => do
          let b ← s.board.undo record
          return ⟨b, records⟩
  | .setStone loc color => s.advance (s.board.setStone loc color)
  | .setStoneFailIfNoLibs loc color => s.advance (s.board.setStoneFailIfNoLibs loc color)
  | .setStonesFailIfNoLibs placements => s.advance (s.board.setStonesFailIfNoLibs placements)
  | .setStonesTolerant placements => s.advance (s.board.setStonesTolerant placements)

/-- Recorded moves are legal ones, and an undo has a record to undo. -/
def admissible (s : Session) : Op → Bool
  | .playMoveRecorded loc pla => s.board.isLegal loc pla false || s.board.isLegal loc pla true
  | .undo => !s.records.isEmpty
  | _ => true

def run (s : Session) (ops : List Op) : Option Session := ops.foldlM apply s

/-- Every operation is admissible when its turn comes. -/
def allAdmissible (s : Session) : List Op → Bool
  | [] => true
  | op :: ops => s.admissible op && match s.apply op with
      | some s => s.allAdmissible ops
      | none => true

end Session

namespace Board

variable {b b' B : Board} {loc : Loc} {pla : Player}

/-- The position of `b` is the one `record` led to from `B`. -/
def LedTo (B b : Board) (record : MoveRecord) : Prop :=
  b.xSize = B.xSize ∧ b.ySize = B.ySize ∧
    (record.loc = passLoc ∧ b.colors = B.colors ∨
      B.colors record.loc = .empty ∧ record.pla.IsStone ∧
        record = B.recordOf record.loc record.pla record.koLoc ∧
        b.colors = play (grid B.xSize) .empty record.pla (getOpp record.pla) B.colors record.loc)

/-- The records can be undone one after the other, starting from `b`. -/
def Undoable : Board → List MoveRecord → Prop
  | _, [] => True
  | b, record :: records => ∃ B : Board, B.Consistent ∧ LedTo B b record ∧ Undoable B records

theorem Undoable.congr {records : List MoveRecord} (undoable : b.Undoable records) (xSize : b'.xSize = b.xSize)
    (ySize : b'.ySize = b.ySize) (colors : b'.colors = b.colors) : b'.Undoable records := by
  cases records with
  | nil => trivial
  | cons record records =>
    obtain ⟨B, consistent, ⟨sizeX, sizeY, led⟩, rest⟩ := undoable
    refine ⟨B, consistent, ⟨xSize.trans sizeX, ySize.trans sizeY, ?_⟩, rest⟩
    rwa [colors]

theorem Consistent.colors_eq (consistent : b.Consistent) (consistent' : b'.Consistent) (xSize : b'.xSize = b.xSize)
    (ySize : b'.ySize = b.ySize) (same : ∀ p ∈ b'.locs, b'.colors p = b.colors p) : b'.colors = b.colors := by
  funext p
  by_cases member : p ∈ b'.locs
  · exact same p member
  · have outside : p ∉ b.locs := by rwa [locs, xSize, ySize] at member
    rw [(consistent'.walls p).2 member, (consistent.walls p).2 outside]

theorem undo_ledTo {record : MoveRecord} (consistent : b.Consistent) (consistentB : B.Consistent)
    (led : LedTo B b record) : ∃ b', b.undo record = some b' ∧ b'.Consistent ∧ b'.xSize = B.xSize ∧
      b'.ySize = B.ySize ∧ b'.colors = B.colors := by
  obtain ⟨xSize, ySize, ⟨pass, colours⟩ | ⟨blank, player, form, colours⟩⟩ := led
  · refine ⟨{ b with koLoc := record.koLoc }, by rw [undo]; exact if_pos pass,
      (sameChains_withKo b record.koLoc).consistent consistent, xSize, ySize, colours⟩
  · obtain ⟨b', run, result, sizeX, sizeY, back, -⟩ := undo_spec record.koLoc consistentB blank player
      consistent.regular xSize ySize colours
    rw [← form] at run
    exact ⟨b', run, result, sizeX, sizeY, back⟩

omit [Zobrist] in
theorem isLegal_cases {flag : Bool} (legal : b.isLegal loc pla flag = true) :
    pla.IsStone ∧ (loc = passLoc ∨ b.colors loc = .empty) := by
  unfold isLegal at legal
  split_ifs at legal with stranger
  rw [not_and_or, not_not, not_not] at stranger
  refine ⟨stranger, ?_⟩
  simp only [Bool.or_eq_true, Bool.and_eq_true, decide_eq_true_eq] at legal
  exact legal.imp id fun found => found.1.1.2

theorem keeps_playMove (consistent : b.Consistent) (loc : Loc) (pla : Player) (flag : Bool) :
    Keeps (b.playMove loc pla flag) := by
  unfold playMove
  split_ifs with legal
  · obtain ⟨player, pass | blank⟩ := isLegal_cases legal
    · refine ⟨{ b with koLoc := nullLoc }, true, ?_, (sameChains_withKo b nullLoc).consistent consistent⟩
      rw [playMoveAssumeLegal, if_pos pass]
      rfl
    · obtain ⟨b', run, played⟩ := playMoveAssumeLegal_spec consistent blank player
      exact ⟨b', true, by rw [run]; rfl, played.consistent⟩
  · exact ⟨b, false, rfl, consistent⟩

theorem playMoveRecorded_ledTo (consistent : b.Consistent) (player : pla.IsStone)
    (open' : loc = passLoc ∨ b.colors loc = .empty) :
    ∃ b' record, b.playMoveRecorded loc pla = some (b', record) ∧ b'.Consistent ∧ LedTo b b' record := by
  rcases open' with rfl | blank
  · exact ⟨{ b with koLoc := nullLoc }, ⟨pla, passLoc, b.koLoc, 0#8⟩, rfl,
      (sameChains_withKo b nullLoc).consistent consistent, rfl, rfl, Or.inl ⟨rfl, rfl⟩⟩
  · have notPass : loc ≠ passLoc := consistent.shape.ne_pass (by rw [blank]; decide)
    obtain ⟨b', run, played⟩ := playMoveAssumeLegal_spec consistent blank player
    refine ⟨b', b.recordOf loc pla b.koLoc, ?_, played.consistent, played.xSize, played.ySize,
      Or.inr ⟨blank, player, rfl, played.colors⟩⟩
    rw [playMoveRecorded, run, if_neg notPass]
    rfl

end Board

namespace Session

variable {s : Session}

/-- The invariant of a session. -/
structure Sound (s : Session) : Prop where
  consistent : s.board.Consistent
  undoable : s.board.Undoable s.records

theorem Sound.advance {α : Type} {result : Option (Board × α)} (sound : s.Sound) (keeps : Board.Keeps result) :
    ∃ s', s.advance result = some s' ∧ s'.Sound := by
  obtain ⟨b, r, rfl, consistent⟩ := keeps
  refine ⟨_, rfl, consistent, ?_⟩
  change b.Undoable (if _ then s.records else [])
  split_ifs with unchanged
  · exact sound.undoable.congr unchanged.1 unchanged.2.1
      (sound.consistent.colors_eq consistent unchanged.1 unchanged.2.1 unchanged.2.2)
  · trivial

/-- What one operation preserves. -/
theorem Sound.apply (sound : s.Sound) {op : Op} (admissible : s.admissible op = true) :
    ∃ s', s.apply op = some s' ∧ s'.Sound := by
  have consistent := sound.consistent
  cases op with
  | playMove loc pla flag => exact sound.advance (Board.keeps_playMove consistent loc pla flag)
  | playMoveRecorded loc pla =>
    obtain ⟨player, open'⟩ : pla.IsStone ∧ (loc = passLoc ∨ s.board.colors loc = .empty) := by
      rcases Bool.or_eq_true _ _ ▸ admissible with strict | free
      · exact Board.isLegal_cases strict
      · exact Board.isLegal_cases free
    obtain ⟨b, record, run, consistent', led⟩ := Board.playMoveRecorded_ledTo consistent player open'
    exact ⟨⟨b, record :: s.records⟩, by rw [Session.apply, run]; rfl, consistent',
      s.board, consistent, led, sound.undoable⟩
  | undo =>
    obtain ⟨board, records⟩ := s
    cases records with
    | nil => simp [Session.admissible] at admissible
    | cons record records =>
      obtain ⟨B, consistentB, led, rest⟩ := sound.undoable
      obtain ⟨b, run, consistent', xSize, ySize, colours⟩ := Board.undo_ledTo consistent consistentB led
      exact ⟨⟨b, records⟩, by simp only [Session.apply, run]; rfl, consistent', rest.congr xSize ySize colours⟩
  | setStone loc color => exact sound.advance (Board.keeps_setStone consistent loc color)
  | setStoneFailIfNoLibs loc color => exact sound.advance (Board.keeps_setStoneFailIfNoLibs consistent loc color)
  | setStonesFailIfNoLibs placements => exact sound.advance (Board.keeps_setStonesFailIfNoLibs consistent placements)
  | setStonesTolerant placements => exact sound.advance (Board.keeps_setStonesTolerant consistent placements)

theorem Sound.run (sound : s.Sound) (ops : List Op) (admissible : s.allAdmissible ops = true) :
    ∃ s', s.run ops = some s' ∧ s'.Sound := by
  induction ops generalizing s with
  | nil => exact ⟨s, rfl, sound⟩
  | cons op ops ih =>
    rw [allAdmissible, Bool.and_eq_true] at admissible
    obtain ⟨s₁, first, sound₁⟩ := sound.apply admissible.1
    rw [first] at admissible
    obtain ⟨s', rest, sound'⟩ := ih sound₁ admissible.2
    refine ⟨s', ?_, sound'⟩
    rw [Session.run, List.foldlM_cons, first]
    exact rest

/-- Every run of operations from an empty board ends, with a consistent board. -/
theorem run_consistent (xS yS : Nat) (wide : 1 ≤ xS ∧ xS ≤ maxLen) (high : 1 ≤ yS ∧ yS ≤ maxLen) :
    ∃ b, init xS yS = some b ∧ ∀ ops : List Op, (⟨b, []⟩ : Session).allAdmissible ops = true →
      ∃ s, (⟨b, []⟩ : Session).run ops = some s ∧ s.board.Consistent := by
  obtain ⟨b, start, consistent⟩ := Board.init_consistent xS yS wide high
  refine ⟨b, start, fun ops admissible => ?_⟩
  obtain ⟨s, run, sound⟩ := Sound.run (s := ⟨b, []⟩) ⟨consistent, trivial⟩ ops admissible
  exact ⟨s, run, sound.consistent⟩

omit [Zobrist] in
/-- On a board of four points: two recorded moves, both undone, and a stone set in between. -/
theorem run_consistent_four_points :
    letI := Zobrist.blank
    ∃ b s, init 2 2 = some b ∧ s.board.Consistent ∧ (⟨b, []⟩ : Session).run
      [.playMoveRecorded (Location.getLoc 0 0 2) .black, .playMoveRecorded (Location.getLoc 1 0 2) .white, .undo,
        .undo, .setStone (Location.getLoc 1 1 2) .white, .playMove (Location.getLoc 0 1 2) .black true] = some s := by
  let _ := Zobrist.blank
  obtain ⟨b, start, runs⟩ := run_consistent 2 2 (by decide) (by decide)
  obtain ⟨s, run, consistent⟩ := runs
    [.playMoveRecorded (Location.getLoc 0 0 2) .black, .playMoveRecorded (Location.getLoc 1 0 2) .white, .undo,
      .undo, .setStone (Location.getLoc 1 1 2) .white, .playMove (Location.getLoc 0 1 2) .black true] (by
      obtain rfl := Option.some.inj start
      decide +kernel)
  exact ⟨b, s, start, consistent, run⟩

end Session
end KataGo.Game
