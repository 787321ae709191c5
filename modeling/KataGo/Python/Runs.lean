import KataGo.Python.Placement

/-! Whole sequences of operations on the Python board. A session keeps the records of the
moves that can still be undone: a record is good as long as the stones it led to are on
the board, and records are taken back in the opposite order. An operation that raises
leaves everything as it was. -/

namespace KataGo.Python
open KataGo.Lib CircularList Labelling
open KataGo.Game (Color Player getOpp Loc grid)

inductive Op where
  | play (pla : Color) (loc : Loc)
  | setStone (pla : Color) (loc : Loc)
  | playRecordedUnsafe (pla : Player) (loc : Loc)
  | undo
  deriving DecidableEq

structure Session where
  board : Board
  records : List MoveRecord

namespace Session

/-- After an operation that is not recorded: earlier records stay good only if it moved no stone. -/
def advance (s : Session) (b : Board) : Session :=
  ⟨b, if ∀ p ∈ b.locs, b.board p = s.board.board p then s.records else []⟩

/-- What an operation that can raise leaves. -/
def caught (s : Session) : Except String Board → Session
  | .error _ => s
  | .ok b => s.advance b

variable [ZobristStone]

def apply (s : Session) : Op → Option Session
  | .play pla loc => (s.board.play pla loc).map s.caught
  | .setStone pla loc => (s.board.setStone pla loc).map s.caught
  | .playRecordedUnsafe pla loc => do
      let (b, record) ← s.board.playRecordedUnsafe pla loc
      return ⟨b, record :: s.records⟩
  | .undo =>
      match s.records with
      | [] => none
      | record :: records => do
          let b ← s.board.undo record
          return ⟨b, records⟩

omit [ZobristStone] in
/-- Recorded moves are passes or go to empty points, and an undo has a record to undo. -/
def admissible (s : Session) : Op → Bool
  | .playRecordedUnsafe pla loc => pla.IsStone ∧ (loc = passLoc ∨ s.board.board loc = .empty)
  | .undo => !s.records.isEmpty
  | _ => true

def run (s : Session) (ops : List Op) : Option Session := ops.foldlM apply s

/-- Every operation is admissible when its turn comes. -/
def allAdmissible (s : Session) : List Op → Bool
  | [] => true
  | op :: ops => s.admissible op && match s.apply op with
      | some s => s.allAdmissible ops
      | none => true

end Session

namespace Board

variable {b b' B : Board} {p q loc : Loc} {pla : Color} {record : MoveRecord}

/-- The bookkeeping of a position. The links of every stone are mutually inverse and run once
around its connected component; the members share one head, which is one of them and
holds their number and the number of their liberties, of which there is at least one;
and at an empty point nothing is recorded. -/
structure Consistent (b : Board) : Prop where
  walls : ∀ p, b.board p = .wall ↔ p ∉ b.locs
  inverse : ∀ p, (b.board p).IsStone → b.groupPrev (b.groupNext p) = p ∧ b.groupNext (b.groupPrev p) = p
  cycle : ∀ p, (b.board p).IsStone →
    ∃ l, l.Nodup ∧ (∀ q, q ∈ l ↔ q ∈ b.component p) ∧ Linked b.groupNext l
  head : ∀ p, (b.board p).IsStone → b.groupHead p ∈ b.component p
  shared : ∀ p q, (b.board p).IsStone → q ∈ b.component p → b.groupHead q = b.groupHead p
  stoneCount : ∀ p, (b.board p).IsStone → b.groupStoneCount (b.groupHead p) = (b.component p).ncard
  libertyCount : ∀ p, (b.board p).IsStone → b.groupLibertyCount (b.groupHead p) = (b.liberties p).ncard
  alive : ∀ p, (b.board p).IsStone → 1 ≤ b.groupLibertyCount (b.groupHead p)
  vacant : ∀ p, b.board p = .empty → b.groupHead p = 0 ∧ b.groupNext p = 0 ∧ b.groupPrev p = 0

theorem Sound.consistent (sound : b.Sound) : b.Consistent := by
  have regular := sound.regular
  have booked := regular.booked
  refine ⟨booked.shape.wall_iff, fun p stone => ?_, fun p stone => ?_, fun p stone => ?_, fun p q stone inside =>
    (regular.component p q stone).2 inside, fun p stone => regular.stoneCount stone, fun p stone =>
    regular.libertyCount stone, fun p stone => ?_, fun p blank => ?_⟩
  · obtain ⟨l, ring, -⟩ := (booked.group p stone).ring
    have member := (ring.mem p).2 rfl
    exact ⟨ring.ringed.prev_next member, ring.ringed.next_prev member⟩
  · obtain ⟨l, ring, -⟩ := (booked.group p stone).ring
    exact ⟨l, ring.nodup, fun q => (ring.mem q).trans (regular.component p q stone), ring.ringed.forward⟩
  · exact (regular.component p _ stone).1 (booked.group p stone).self
  · have count := regular.libertyCount_eq_zero_iff stone
    have size := regular.libertyCount stone
    have free := sound.alive p stone
    change 1 ≤ b.libertyCount p
    have positive : b.libertyCount p ≠ 0 := fun zero => count.1 zero free
    omega
  · have vacant := booked.vacant p blank
    exact ⟨vacant.head, vacant.next, vacant.prev⟩

/-- The position of `b` is the one `record` led to from `B`. -/
def LedTo (B b : Board) (record : MoveRecord) : Prop :=
  b.xSize = B.xSize ∧ b.ySize = B.ySize ∧
    (record.loc = passLoc ∧ b.board = B.board ∨ RecordOf B b record)

/-- The records can be undone one after the other, starting from `b`. -/
def Undoable : Board → List MoveRecord → Prop
  | _, [] => True
  | b, record :: records => ∃ B : Board, B.Sound ∧ LedTo B b record ∧ Undoable B records

theorem Undoable.congr {records : List MoveRecord} (undoable : b.Undoable records) (xSize : b'.xSize = b.xSize)
    (ySize : b'.ySize = b.ySize) (board : b'.board = b.board) : b'.Undoable records := by
  cases records with
  | nil => trivial
  | cons record records =>
    obtain ⟨B, sound, ⟨sizeX, sizeY, led⟩, rest⟩ := undoable
    refine ⟨B, sound, ⟨xSize.trans sizeX, ySize.trans sizeY, ?_⟩, rest⟩
    refine led.imp (fun pass => ⟨pass.1, board.trans pass.2⟩) fun recorded => ?_
    exact ⟨recorded.blank, recorded.player, board.trans recorded.board, recorded.capDirs,
      by rw [board]; exact recorded.selfCap⟩

theorem Sound.board_eq (sound : b.Sound) (sound' : b'.Sound) (xSize : b'.xSize = b.xSize)
    (ySize : b'.ySize = b.ySize) (same : ∀ p ∈ b'.locs, b'.board p = b.board p) : b'.board = b.board := by
  funext p
  by_cases member : p ∈ b'.locs
  · exact same p member
  · have outside : p ∉ b.locs := by rwa [locs, xSize, ySize] at member
    rw [(sound'.regular.booked.shape.wall_iff p).2 member, (sound.regular.booked.shape.wall_iff p).2 outside]

variable [ZobristStone]

theorem undo_ledTo (sound : b.Sound) (soundB : B.Sound) (led : LedTo B b record) :
    ∃ b', b.undo record = some b' ∧ b'.Sound ∧ b'.xSize = B.xSize ∧ b'.ySize = B.ySize ∧ b'.board = B.board := by
  obtain ⟨xSize, ySize, ⟨pass, board⟩ | recorded⟩ := led
  · let back : Board := { b with
      simpleKoPoint := record.oldSimpleKoPoint
      pla := record.pla
      numCapturesMade := record.oldNumCapturesMade
      numNonPassMovesMade := record.oldNumNonPassMovesMade }
    exact ⟨back, if_pos pass, sound.congr rfl rfl rfl rfl rfl rfl rfl rfl, xSize, ySize, board⟩
  · obtain ⟨b', run, regular, xSize', ySize', board⟩ := undo_spec soundB.regular soundB.alive recorded sound.regular
      xSize ySize
    refine ⟨b', run, ⟨regular, fun p stone => ?_⟩, xSize', ySize', board⟩
    rw [board] at stone
    rw [liberties, board, xSize']
    exact soundB.alive p stone

theorem playRecordedUnsafe_ledTo (sound : b.Sound) (player : pla.IsStone)
    (open' : loc = passLoc ∨ b.board loc = .empty) :
    ∃ b' record, b.playRecordedUnsafe pla loc = some (b', record) ∧ b'.Sound ∧ LedTo b b' record := by
  obtain ⟨b', run, sound', xSize, ySize, passed, played⟩ := playUnsafe_spec sound player open'
  refine ⟨b', _, by rw [playRecordedUnsafe, run]; rfl, sound', xSize, ySize, ?_⟩
  by_cases pass : loc = passLoc
  · exact Or.inl ⟨pass, passed pass⟩
  · exact Or.inr ⟨open'.resolve_left pass, player, played pass, rfl, rfl⟩

end Board

namespace Session

variable [ZobristStone] {s : Session}

/-- The invariant of a session. -/
structure Sound (s : Session) : Prop where
  board : s.board.Sound
  undoable : s.board.Undoable s.records

omit [ZobristStone] in
theorem Sound.caught (sound : s.Sound) {result : Option (Except String Board)} (keeps : s.board.Keeps result) :
    ∃ s', result.map s.caught = some s' ∧ s'.Sound := by
  rcases keeps with ⟨message, rfl⟩ | ⟨b, rfl, sound', xSize, ySize⟩
  · exact ⟨s, rfl, sound⟩
  · refine ⟨s.advance b, rfl, sound', ?_⟩
    change b.Undoable (if _ then s.records else [])
    split_ifs with unchanged
    · exact sound.undoable.congr xSize ySize (sound.board.board_eq sound' xSize ySize unchanged)
    · trivial

/-- What one operation preserves. -/
theorem Sound.apply (sound : s.Sound) {op : Op} (admissible : s.admissible op = true) :
    ∃ s', s.apply op = some s' ∧ s'.Sound := by
  cases op with
  | play pla loc => exact sound.caught (Board.keeps_play sound.board pla loc)
  | setStone pla loc => exact sound.caught (Board.keeps_setStone sound.board pla loc)
  | playRecordedUnsafe pla loc =>
    obtain ⟨player, open'⟩ := of_decide_eq_true admissible
    obtain ⟨b, record, run, sound', led⟩ := Board.playRecordedUnsafe_ledTo sound.board player open'
    exact ⟨⟨b, record :: s.records⟩, by rw [Session.apply, run]; rfl, sound', s.board, sound.board, led,
      sound.undoable⟩
  | undo =>
    obtain ⟨board, records⟩ := s
    cases records with
    | nil => simp [Session.admissible] at admissible
    | cons record records =>
      obtain ⟨B, soundB, led, rest⟩ := sound.undoable
      obtain ⟨b, run, sound', xSize, ySize, colours⟩ := Board.undo_ledTo sound.board soundB led
      exact ⟨⟨b, records⟩, by simp only [Session.apply, run]; rfl, sound', rest.congr xSize ySize colours⟩

theorem Sound.run (sound : s.Sound) (ops : List Op) (admissible : s.allAdmissible ops = true) :
    ∃ s', s.run ops = some s' ∧ s'.Sound := by
  induction ops generalizing s with
  | nil => exact ⟨s, rfl, sound⟩
  | cons op ops ih =>
    rw [allAdmissible, Bool.and_eq_true] at admissible
    obtain ⟨s₁, first, sound₁⟩ := sound.apply admissible.1
    rw [first] at admissible
    obtain ⟨s', rest, sound'⟩ := ih sound₁ admissible.2
    refine ⟨s', ?_, sound'⟩
    rw [Session.run, List.foldlM_cons, first]
    exact rest

omit [ZobristStone] in
theorem sound_init {size : Size} {b : Board} (start : init size = .ok b) : (⟨b, []⟩ : Session).Sound := by
  unfold init at start
  split_ifs at start with narrow low
  obtain rfl := Except.ok.inj start
  exact ⟨⟨emptyBoard_regular (by omega) (by omega), emptyBoard_allAlive⟩, trivial⟩

/-- Every run of operations from an empty board ends, with consistent bookkeeping. -/
theorem run_bookkeeping (size : Size) (b : Board) (start : init size = .ok b) (ops : List Op)
    (admissible : (⟨b, []⟩ : Session).allAdmissible ops = true) :
    ∃ s, (⟨b, []⟩ : Session).run ops = some s ∧ s.board.Consistent := by
  obtain ⟨s, run, sound⟩ := (sound_init start).run ops admissible
  exact ⟨s, run, sound.board.consistent⟩

omit [ZobristStone] in
/-- On a board of four points: two recorded moves, the second of which captures, an undo,
a move that raises and a stone set over another one. -/
theorem run_bookkeeping_four_points :
    letI : ZobristStone := ⟨fun _ _ => 0⟩
    ∃ b s, init (.square 2) = .ok b ∧ s.board.Consistent ∧ (⟨b, []⟩ : Session).run
      [.setStone .white 7, .playRecordedUnsafe .black 4, .playRecordedUnsafe .black 8, .undo, .play .white 4,
        .setStone .white 4] = some s := by
  let _ : ZobristStone := ⟨fun _ _ => 0⟩
  obtain ⟨s, run, consistent⟩ := run_bookkeeping (.square 2) (emptyBoard 2 2) rfl
    [.setStone .white 7, .playRecordedUnsafe .black 4, .playRecordedUnsafe .black 8, .undo, .play .white 4,
      .setStone .white 4] (by decide +kernel)
  exact ⟨emptyBoard 2 2, s, rfl, consistent, run⟩

end Session
end KataGo.Python
