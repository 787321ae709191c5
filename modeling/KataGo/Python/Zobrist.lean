import KataGo.Python.Runs
import KataGo.Python.Random
import KataGo.Lib.XorFold

/-! The position hash of the Python board. Stones are put down with the key of their own
colour, and so are the stones that an undo puts back, but `remove_unsafe` takes the keys
of the opponent out. The hash is that of the position as long as nothing is taken off. -/

namespace KataGo.Python
open KataGo.Lib CircularList Labelling
open KataGo.Game (Color Player getOpp Loc grid boardLocs adjs_symm)

/-- The keys that the class body draws: black and white in turn, location by location. -/
@[reducible] def ZobristStone.seeded : ZobristStone where
  key
    | .black, loc => BitVec.ofNat 64 (Random.getrandbits64 123987456 (2 * loc.toNat))
    | .white, loc => BitVec.ofNat 64 (Random.getrandbits64 123987456 (2 * loc.toNat + 1))
    | _, _ => 0

variable [ZobristStone]

/-- What one point contributes to the hash. -/
def stoneHash (p : Loc) (c : Color) : BitVec 64 := if c.IsStone then ZobristStone.key c p else 0

/-- The XOR of the keys of all stones. -/
def positionHash (xSize ySize : Nat) (board : Loc → Color) : BitVec 64 :=
  (boardLocs xSize ySize).toFinset.fold (· ^^^ ·) 0 fun p => stoneHash p (board p)

theorem positionHash_update {xSize ySize : Nat} {board : Loc → Color} {p : Loc}
    (member : p ∈ boardLocs xSize ySize) (c : Color) :
    positionHash xSize ySize (Function.update board p c) =
      positionHash xSize ySize board ^^^ stoneHash p (board p) ^^^ stoneHash p c :=
  XorFold.fold_update (· ^^^ ·) (fun x a => by rw [BitVec.xor_assoc, BitVec.xor_self, BitVec.xor_zero])
    (List.mem_toFinset.2 member) c

/-- A stone put on an empty point adds its key. -/
theorem positionHash_place {xSize ySize : Nat} {board : Loc → Color} {p : Loc} {c : Color}
    (member : p ∈ boardLocs xSize ySize) (blank : board p = .empty) (stone : c.IsStone) :
    positionHash xSize ySize (Function.update board p c) =
      positionHash xSize ySize board ^^^ ZobristStone.key c p := by
  have nothing : stoneHash p .empty = 0#64 := if_neg (by decide)
  rw [positionHash_update member, blank, nothing, BitVec.xor_zero, stoneHash, if_pos stone]

theorem positionHash_empty {xSize ySize : Nat} {board : Loc → Color} (nothing : ∀ p, ¬ (board p).IsStone) :
    positionHash xSize ySize board = 0 :=
  XorFold.fold_zero (· ^^^ ·) (fun x => by simp) fun p _ => if_neg (nothing p)

namespace Board

variable {b b' B : Board} {p q loc : Loc} {pla : Color} {record : MoveRecord}

omit [ZobristStone] in
/-- Whether a stone can be put down without taking anything off, by the source's own tests. -/
def takesNothing (b : Board) (pla : Player) (loc : Loc) : Bool :=
  (b.captureDirs pla loc).isEmpty && !b.wouldBeSuicide pla loc

/-- The hash is that of the stones. -/
def Hashed (b : Board) : Prop := b.zobrist = positionHash b.xSize b.ySize b.board

omit [ZobristStone] in
theorem captureDirs_eq_nil_iff : b.captureDirs pla loc = [] ↔
    ∀ x ∈ b.adj loc, ¬ (b.board x = getOpp pla ∧ b.libertyCount x = 1) := by
  rw [captureDirs, List.map_eq_nil_iff, List.filter_eq_nil_iff]
  constructor
  · intro none x near
    obtain ⟨⟨y, i⟩, member, rfl⟩ : ∃ dir ∈ (b.adj loc).zipIdx, dir.1 = x := by
      have fst : x ∈ (b.adj loc).zipIdx.map Prod.fst := by rw [List.zipIdx_map_fst]; exact near
      exact List.mem_map.1 fst
    simpa using none (y, i) member
  · intro none dir member
    simpa using none dir.1 (List.fst_mem_of_mem_zipIdx member)

omit [ZobristStone] in
/-- The test for suicide finds a liberty of the new stone when nothing is captured. -/
theorem liberty_of_not_suicide (regular : b.Regular) (player : pla.IsStone)
    (none : b.captureDirs pla loc = []) (safe : b.wouldBeSuicide pla loc = false) :
    ∃ e, Liberty (grid b.xSize) .empty (Function.update b.board loc pla) loc e := by
  rw [captureDirs_eq_nil_iff] at none
  unfold wouldBeSuicide at safe
  split_ifs at safe with breathing friendly
  · obtain ⟨a, near, found⟩ := List.any_eq_true.1 breathing
    rcases of_decide_eq_true found with blank | captured
    · exact ⟨a, by rw [Function.update_of_ne (ne_of_mem_adj near), blank], loc, Chain.refl loc, near⟩
    · exact absurd captured (none a near)
  · obtain ⟨a, near, found⟩ := List.any_eq_true.1 friendly
    obtain ⟨mine, many⟩ := of_decide_eq_true found
    have stone : (b.board a).IsStone := by rw [mine]; exact player
    rw [regular.libertyCount stone] at many
    obtain ⟨e, free, other⟩ : ∃ e ∈ b.liberties a, e ≠ loc := by
      obtain ⟨e₁, e₂, free₁, free₂, apart⟩ := (Set.one_lt_ncard_iff (regular.liberties_finite stone)).1
        (by exact_mod_cast many)
      by_cases here : e₁ = loc
      · exact ⟨e₂, free₂, fun there => apart (here.trans there.symm)⟩
      · exact ⟨e₁, free₁, here⟩
    obtain ⟨blank, q, path, adjacent⟩ := free
    have placed : ∀ x, b.board x = pla → Function.update b.board loc pla x = pla := by
      intro x label
      by_cases here : x = loc
      · rw [here, Function.update_self]
      · rw [Function.update_of_ne here, label]
    have link : Chain (grid b.xSize) (Function.update b.board loc pla) loc a :=
      Chain.single near (by rw [placed a mine, Function.update_self])
    exact ⟨e, by rw [Function.update_of_ne other, blank], q, link.trans (path.weaken placed mine), adjacent⟩

omit [ZobristStone] in
/-- A loop whose body does nothing. -/
theorem foldlM_eq_self {α β : Type} {f : α → β → Option α} {a : α} (l : List β)
    (still : ∀ x ∈ l, f a x = some a) : l.foldlM f a = some a := by
  induction l with
  | nil => rfl
  | cons x l ih =>
    rw [List.foldlM_cons, still x (by simp)]
    exact ih fun y later => still y (by simp [later])

/-- A stone that takes nothing only adds its key. -/
theorem addUnsafe_quiet (sound : b.Sound) (blank : b.board loc = .empty) (player : pla.IsStone)
    (quiet : b.takesNothing pla loc = true) :
    ∃ b', b.addUnsafe pla loc = some b' ∧ b'.Sound ∧ b'.xSize = b.xSize ∧ b'.ySize = b.ySize ∧
      b'.board = Function.update b.board loc pla ∧ b'.zobrist = b.zobrist ^^^ ZobristStone.key pla loc := by
  have regular := sound.regular
  simp only [takesNothing, Bool.and_eq_true, List.isEmpty_iff, Bool.not_eq_true'] at quiet
  obtain ⟨none, safe⟩ := quiet
  have free := liberty_of_not_suicide regular player none safe
  rw [captureDirs_eq_nil_iff] at none
  obtain ⟨b₁, join, regular₁, same, placed, hash⟩ := regular.joinStone blank player
  have stays : (b₁.adj loc).foldlM (captureDir (getOpp pla)) ⟨b₁, 0, 0⟩ = some ⟨b₁, 0, 0⟩ := by
    refine foldlM_eq_self _ fun a near => if_neg ?_
    rintro ⟨opposite, dead⟩
    rw [same.adj] at near
    change b₁.board a = getOpp pla at opposite
    change b₁.libertyCount a = 0 at dead
    have stone : (b₁.board a).IsStone := by rw [opposite]; exact player.opp
    rw [placed, Function.update_of_ne (ne_of_mem_adj near)] at opposite
    rw [regular₁.libertyCount_eq_zero_iff stone, liberties, placed, same.xSize] at dead
    exact none a near ⟨opposite, (captures_iff regular blank player near opposite).2 dead⟩
  have stone : (b₁.board loc).IsStone := by rw [placed, Function.update_self]; exact player
  have alive : b₁.libertyCount loc ≠ 0 := by
    rw [Ne, regular₁.libertyCount_eq_zero_iff stone, liberties, placed, same.xSize, not_not]
    exact free
  have run : b.addUnsafe pla loc = some (b₁.settle pla loc 0 ⟨b₁, 0, 0⟩) := by
    rw [addUnsafe, join]
    simp only [Option.bind_eq_bind, Option.bind_some, stays, resolveSuicide, if_neg alive]
    rfl
  obtain ⟨b', run', played⟩ := addUnsafe_spec regular sound.alive blank player
  obtain rfl := Option.some.inj (run'.symm.trans run)
  exact ⟨_, run, played.sound, played.xSize, played.ySize, placed, hash⟩

theorem Hashed.place (hashed : b.Hashed) (sound : b.Sound) (blank : b.board loc = .empty) (player : pla.IsStone)
    (xSize : b'.xSize = b.xSize) (ySize : b'.ySize = b.ySize) (board : b'.board = Function.update b.board loc pla)
    (hash : b'.zobrist = b.zobrist ^^^ ZobristStone.key pla loc) : b'.Hashed := by
  have member := sound.regular.booked.shape.mem_locs (p := loc) (by rw [blank]; decide)
  rw [Hashed, hash, hashed, xSize, ySize, board, positionHash_place member blank player]

theorem playUnsafe_quiet (sound : b.Sound) (hashed : b.Hashed) (player : pla.IsStone)
    (open' : loc = passLoc ∨ b.board loc = .empty) (quiet : loc = passLoc ∨ b.takesNothing pla loc = true) :
    ∃ b', b.playUnsafe pla loc = some b' ∧ b'.Hashed ∧ (loc ≠ passLoc → b'.board loc = pla) := by
  by_cases pass : loc = passLoc
  · exact ⟨{ b with simpleKoPoint := none, pla := getOpp pla }, if_pos pass, hashed, fun other => absurd pass other⟩
  · have blank := open'.resolve_left pass
    obtain ⟨b', run, -, xSize, ySize, board, hash⟩ := addUnsafe_quiet sound blank player (quiet.resolve_left pass)
    have hashed' := hashed.place sound blank player xSize ySize board hash
    refine ⟨{ b' with pla := getOpp pla }, by rw [playUnsafe, if_neg pass, run]; rfl, hashed', fun _ => ?_⟩
    change b'.board loc = pla
    rw [board, Function.update_self]

/-- Undoing a move that took nothing takes the key of its stone out again. -/
theorem undo_quiet (regular : b.Regular) (player : record.pla.IsStone) (notPass : record.loc ≠ passLoc)
    (capDirs : record.capDirs = []) (selfCap : record.selfCap = false) (placed : b.board record.loc = record.pla) :
    ∃ b', b.undo record = some b' ∧ b'.zobrist = b.zobrist ^^^ ZobristStone.key record.pla record.loc := by
  obtain ⟨b₀, reset⟩ : ∃ b₀ : Board, b₀ = { b with
    simpleKoPoint := record.oldSimpleKoPoint
    pla := record.pla
    numCapturesMade := record.oldNumCapturesMade
    numNonPassMovesMade := record.oldNumNonPassMovesMade } := ⟨_, rfl⟩
  have regular₀ : b₀.Regular := by
    rw [reset]
    exact regular.congr rfl rfl rfl rfl rfl rfl rfl rfl
  have placed₀ : b₀.board record.loc = record.pla := by rw [reset]; exact placed
  obtain ⟨b', delete, -, -, -, hash⟩ := deleteStone_spec regular₀ player placed₀
  refine ⟨b', ?_, by rw [hash, reset]⟩
  rw [undo, if_neg notPass, capDirs, selfCap, ← delete, reset]
  rfl

/-- A stone set where nothing is taken off. -/
theorem setStone_quiet (sound : b.Sound) (hashed : b.Hashed) (quiet : b.board loc = pla ∨
    b.board loc = .empty ∧ b.takesNothing pla loc = true) (ok : b.setStone pla loc = some (.ok b')) : b'.Hashed := by
  by_cases settable : pla ≠ .wall
  swap
  · rw [not_not] at settable
    rw [setStone, if_pos (by rw [settable]; decide)] at ok
    cases Option.some.inj ok
  by_cases onBoard : b.isOnBoard loc = true
  swap
  · rw [setStone, if_neg (by revert settable; cases pla <;> decide), if_pos (by simpa using onBoard)] at ok
    cases Option.some.inj ok
  rw [setStone_eq settable onBoard] at ok
  obtain ⟨b₁, replaced, same⟩ := Option.map_eq_some_iff.1 ok
  obtain rfl := Except.ok.inj same
  change b₁.zobrist = positionHash b₁.xSize b₁.ySize b₁.board
  unfold replaceStone at replaced
  by_cases still : b.board loc = pla
  · rw [if_pos still] at replaced
    obtain rfl := Option.some.inj replaced
    exact hashed
  · obtain ⟨blank, calm⟩ := quiet.resolve_left still
    rw [if_neg still, if_pos blank] at replaced
    have player : pla.IsStone := by
      by_contra none
      exact (cases_of_not_stone none).elim (fun empty => still (blank.trans empty.symm)) settable
    obtain ⟨b₂, run, -, xSize, ySize, board, hash⟩ := addUnsafe_quiet sound blank player calm
    obtain rfl := Option.some.inj (run.symm.trans replaced)
    exact hashed.place sound blank player xSize ySize board hash

omit [ZobristStone] in
/-- A record that took nothing belongs to a move that only placed its stone. -/
theorem RecordOf.board_of_quiet (recorded : RecordOf B b record) (sound : B.Sound) (capDirs : record.capDirs = [])
    (selfCap : record.selfCap = false) : b.board = Function.update B.board record.loc record.pla := by
  have none := captureDirs_eq_nil_iff.1 (recorded.capDirs.symm.trans capDirs)
  have nothing := removeDead_of_no_capture sound.regular sound.alive recorded.blank recorded.player none
  have stays : b.board record.loc ≠ .empty := by simpa [selfCap] using recorded.selfCap
  by_cases free : ∃ e, Liberty (grid B.xSize) .empty (removeDead (grid B.xSize) .empty (getOpp record.pla)
      (Function.update B.board record.loc record.pla)) record.loc e
  · rw [recorded.board, play_of_alive free, nothing]
  · rw [recorded.board, play_of_dead free, if_pos (Chain.refl _)] at stays
    exact absurd rfl stays

end Board

namespace Session

variable {s : Session}

omit [ZobristStone] in
/-- The operation takes no stone off the board: it raises or passes, it puts a stone down
without capture or suicide, it sets a point to what it is, or it undoes such a move. -/
def quiet (s : Session) : Op → Bool
  | .play pla loc => !s.board.wouldBeLegal pla loc || loc = passLoc || s.board.takesNothing pla loc
  | .setStone pla loc =>
      pla = .wall || !s.board.isOnBoard loc || s.board.board loc = pla ||
        (s.board.board loc = .empty && s.board.takesNothing pla loc)
  | .playRecordedUnsafe pla loc => loc = passLoc || s.board.takesNothing pla loc
  | .undo => true

/-- Every operation is quiet when its turn comes. -/
def allQuiet (s : Session) : List Op → Bool
  | [] => true
  | op :: ops => s.quiet op && match s.apply op with
      | some s => s.allQuiet ops
      | none => true

/-- A session of quiet operations. -/
structure Quiet (s : Session) : Prop where
  sound : s.Sound
  hashed : s.board.Hashed
  records : ∀ record ∈ s.records, record.loc = passLoc ∨ record.capDirs = [] ∧ record.selfCap = false

/-- Catching the outcome of a call keeps the records, or drops them. -/
theorem Quiet.caught (quiet : s.Quiet) {result : Option (Except String Board)} {s' : Session}
    (run : result.map s.caught = some s') (sound : s'.Sound)
    (hashed : ∀ b, result = some (.ok b) → b.Hashed) : s'.Quiet := by
  obtain ⟨outcome, found, rfl⟩ := Option.map_eq_some_iff.1 run
  cases outcome with
  | error message => exact quiet
  | ok b =>
    refine ⟨sound, hashed b found, fun record member => ?_⟩
    change record ∈ (if _ then s.records else []) at member
    split_ifs at member
    · exact quiet.records record member
    · simp at member

/-- What one operation preserves. -/
theorem Quiet.apply (quiet : s.Quiet) {op : Op} (admissible : s.admissible op = true) (calm : s.quiet op = true) :
    ∃ s', s.apply op = some s' ∧ s'.Quiet := by
  obtain ⟨s', run, sound'⟩ := quiet.sound.apply admissible
  refine ⟨s', run, ?_⟩
  have sound := quiet.sound.board
  cases op with
  | play pla loc =>
    refine quiet.caught run sound' fun b ok => ?_
    cases legal : s.board.wouldBeLegal pla loc with
    | false =>
      obtain ⟨message, raised⟩ := Board.play_of_illegal legal
      rw [raised] at ok
      cases Option.some.inj ok
    | true =>
      simp only [Session.quiet, legal, Bool.not_true, Bool.false_or, Bool.or_eq_true, decide_eq_true_eq] at calm
      obtain ⟨player, open'⟩ := Board.open_of_legal legal
      obtain ⟨b', played, hashed, -⟩ := Board.playUnsafe_quiet sound quiet.hashed player open' calm
      rw [Board.play_of_legal legal, played] at ok
      rw [← Except.ok.inj (Option.some.inj ok)]
      exact hashed
  | setStone pla loc =>
    refine quiet.caught run sound' fun b ok => ?_
    simp only [Session.quiet, Bool.or_eq_true, Bool.and_eq_true, decide_eq_true_eq, or_assoc] at calm
    rcases calm with wall | off | rest
    · rw [Board.setStone, if_pos (by rw [wall]; decide)] at ok
      cases Option.some.inj ok
    · rw [Board.setStone] at ok
      split_ifs at ok
      · cases Option.some.inj ok
      · cases Option.some.inj ok
    · exact Board.setStone_quiet sound quiet.hashed rest ok
  | playRecordedUnsafe pla loc =>
    obtain ⟨player, open'⟩ := of_decide_eq_true admissible
    simp only [Session.quiet, Bool.or_eq_true, decide_eq_true_eq] at calm
    obtain ⟨b, played, hashed, placed⟩ := Board.playUnsafe_quiet sound quiet.hashed player open' calm
    rw [Session.apply, Board.playRecordedUnsafe, played] at run
    obtain rfl := Option.some.inj run
    refine ⟨sound', hashed, fun record member => ?_⟩
    rcases List.mem_cons.1 member with rfl | older
    · by_cases pass : loc = passLoc
      · exact Or.inl pass
      · have quietly := calm.resolve_left pass
        simp only [Board.takesNothing, Bool.and_eq_true, List.isEmpty_iff] at quietly
        refine Or.inr ⟨quietly.1, decide_eq_false ?_⟩
        rw [placed pass]
        exact player.ne_empty
    · exact quiet.records record older
  | undo =>
    obtain ⟨board, records⟩ := s
    cases records with
    | nil => simp [Session.admissible] at admissible
    | cons record records =>
      have later : ∀ r ∈ records, r.loc = passLoc ∨ r.capDirs = [] ∧ r.selfCap = false :=
        fun r member => quiet.records r (List.mem_cons_of_mem _ member)
      obtain ⟨B, soundB, ⟨sizeX, sizeY, led⟩, rest⟩ := quiet.sound.undoable
      obtain ⟨b, undone, -, xSize, ySize, colours⟩ := Board.undo_ledTo sound soundB ⟨sizeX, sizeY, led⟩
      simp only [Session.apply] at run
      rw [undone] at run
      obtain rfl := Option.some.inj run
      refine ⟨sound', ?_, later⟩
      have hashed : board.zobrist = positionHash board.xSize board.ySize board.board := quiet.hashed
      change b.zobrist = positionHash b.xSize b.ySize b.board
      rw [xSize, ySize, colours]
      rcases led with ⟨pass, same⟩ | recorded
      · rw [Board.undo, if_pos pass] at undone
        rw [← Option.some.inj undone]
        exact hashed.trans (by rw [sizeX, sizeY, same])
      · have notPass : record.loc ≠ passLoc :=
          (soundB.regular.booked.shape.positive (by rw [recorded.blank]; decide)).ne'
        obtain ⟨capDirs, selfCap⟩ := (quiet.records record List.mem_cons_self).resolve_left notPass
        have placed := recorded.board_of_quiet soundB capDirs selfCap
        obtain ⟨b', undone', hash⟩ := Board.undo_quiet sound.regular recorded.player notPass capDirs selfCap
          (by rw [placed, Function.update_self])
        obtain rfl := Option.some.inj (undone.symm.trans undone')
        have member := soundB.regular.booked.shape.mem_locs (p := record.loc) (by rw [recorded.blank]; decide)
        rw [hash, hashed, sizeX, sizeY, placed, positionHash_place member recorded.blank recorded.player,
          BitVec.xor_assoc, BitVec.xor_self, BitVec.xor_zero]

theorem Quiet.run (quiet : s.Quiet) (ops : List Op) (admissible : s.allAdmissible ops = true)
    (calm : s.allQuiet ops = true) : ∃ s', s.run ops = some s' ∧ s'.Quiet := by
  induction ops generalizing s with
  | nil => exact ⟨s, rfl, quiet⟩
  | cons op ops ih =>
    rw [allAdmissible, Bool.and_eq_true] at admissible
    rw [allQuiet, Bool.and_eq_true] at calm
    obtain ⟨s₁, first, quiet₁⟩ := quiet.apply admissible.1 calm.1
    rw [first] at admissible calm
    obtain ⟨s', rest, quiet'⟩ := ih quiet₁ admissible.2 calm.2
    refine ⟨s', ?_, quiet'⟩
    rw [Session.run, List.foldlM_cons, first]
    exact rest

theorem quiet_init {size : Size} {b : Board} (start : init size = .ok b) : (⟨b, []⟩ : Session).Quiet := by
  refine ⟨sound_init start, ?_, by simp⟩
  unfold init at start
  split_ifs at start with narrow low
  obtain rfl := Except.ok.inj start
  exact (positionHash_empty emptyBoard_noStone).symm

/-- As long as no operation takes a stone off, the hash is that of the position. -/
theorem posZobrist_of_quiet_run (size : Size) (b : Board) (start : init size = .ok b) (ops : List Op)
    (admissible : (⟨b, []⟩ : Session).allAdmissible ops = true) (calm : (⟨b, []⟩ : Session).allQuiet ops = true) :
    ∃ s, (⟨b, []⟩ : Session).run ops = some s ∧
      s.board.posZobrist = positionHash s.board.xSize s.board.ySize s.board.board := by
  obtain ⟨s, run, quiet⟩ := (quiet_init start).run ops admissible calm
  exact ⟨s, run, quiet.hashed⟩

omit [ZobristStone] in
/-- On a board of four points: a recorded move, its undo, a stone that is set and a move. -/
theorem posZobrist_of_quiet_run_four_points :
    letI := ZobristStone.seeded
    ∃ b s, init (.square 2) = .ok b ∧ (⟨b, []⟩ : Session).run
        [.playRecordedUnsafe .black 4, .undo, .setStone .white 5, .play .black 7] = some s ∧
      s.board.posZobrist = positionHash s.board.xSize s.board.ySize s.board.board := by
  let _ := ZobristStone.seeded
  obtain ⟨s, run, hashed⟩ := posZobrist_of_quiet_run (.square 2) (emptyBoard 2 2) rfl
    [.playRecordedUnsafe .black 4, .undo, .setStone .white 5, .play .black 7] (by decide +kernel) (by decide +kernel)
  exact ⟨emptyBoard 2 2, s, rfl, run, hashed⟩

omit [ZobristStone] in
/-- Black at two opposite corners of a board of four points, after capturing a stone or after
a pass of the opponent: the same stones under different hashes. -/
theorem posZobrist_after_capture :
    letI := ZobristStone.seeded
    ∃ b s₁ s₂, init (.square 2) = .ok b ∧
      (⟨b, []⟩ : Session).run [.play .black 4, .play .white 7, .play .black 8] = some s₁ ∧
      (⟨b, []⟩ : Session).run [.play .black 4, .play .white passLoc, .play .black 8] = some s₂ ∧
      (∀ p ∈ b.locs, s₁.board.board p = s₂.board.board p) ∧ s₁.board.posZobrist ≠ s₂.board.posZobrist := by
  let _ := ZobristStone.seeded
  have start : init (.square 2) = .ok (emptyBoard 2 2) := rfl
  obtain ⟨s₁, run₁, -⟩ := (sound_init start).run [.play .black 4, .play .white 7, .play .black 8] (by decide +kernel)
  obtain ⟨s₂, run₂, -⟩ := (sound_init start).run [.play .black 4, .play .white passLoc, .play .black 8]
    (by decide +kernel)
  have colours : ((⟨emptyBoard 2 2, []⟩ : Session).run [.play .black 4, .play .white 7, .play .black 8]).map
      (fun s => (emptyBoard 2 2).locs.map s.board.board) =
    ((⟨emptyBoard 2 2, []⟩ : Session).run [.play .black 4, .play .white passLoc, .play .black 8]).map
      (fun s => (emptyBoard 2 2).locs.map s.board.board) := by decide +kernel
  have hashes : ((⟨emptyBoard 2 2, []⟩ : Session).run [.play .black 4, .play .white 7, .play .black 8]).map
      (fun s => s.board.posZobrist) ≠
    ((⟨emptyBoard 2 2, []⟩ : Session).run [.play .black 4, .play .white passLoc, .play .black 8]).map
      (fun s => s.board.posZobrist) := by decide +kernel
  rw [run₁, run₂] at colours hashes
  exact ⟨emptyBoard 2 2, s₁, s₂, start, run₁, run₂, List.map_inj_left.1 (Option.some.inj colours),
    fun same => hashes (congrArg some same)⟩

end Session
end KataGo.Python
