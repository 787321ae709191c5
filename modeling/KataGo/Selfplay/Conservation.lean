import KataGo.Selfplay.Manager
import Mathlib.Data.Finset.Card
import Mathlib.Data.List.Count

/-! Places for unwritten games are conserved: the counter of a model is the number of games that
threads may still hand over, that wait in its queue, that its data write loop has in hand or
in its cohort buffer. -/

namespace KataGo.Selfplay
open KataGo.Lib KataGo.Game

namespace GameThread

/-- The game that the thread has handed to `enqueueDataToWrite`, while the call is on its way. -/
def inHand (m : Nat) : GameThread → List FinishedGameData
  | pushing k gameData | refused k gameData => if k = m then [gameData] else []
  | _ => []

/-- The thread has nothing to do with other models. -/
def Only (m : Nat) (t : GameThread) : Prop := ∀ k ≠ m, t.holds k = false ∧ t.reserves k = false ∧ t.inHand k = []

theorem holds_of_reserves {t : GameThread} {m : Nat} (reserves : t.reserves m = true) : t.holds m = true := by
  cases t <;> simp_all [GameThread.reserves, holds]

theorem only_of_holds {t : GameThread} {m : Nat} (here : t.holds m = true) : t.Only m := by
  intro k apart
  have other : m ≠ k := apart.symm
  cases t with
  | idle | stopped => exact ⟨rfl, rfl, rfl⟩
  | acquired j | waiting j | reserved j | playing j _ | played j _ | pushing j _ | refused j _ | canceling j
  | leaving j _ =>
    obtain rfl : j = m := of_decide_eq_true here
    simp [holds, reserves, inHand, other]

theorem inHand_length (t : GameThread) (m : Nat) : (t.inHand m).length ≤ if t.reserves m then 1 else 0 := by
  cases t <;> simp only [inHand, reserves] <;> split_ifs <;> simp_all

end GameThread

variable {settings : Settings} {creditError : List FinishedGameData → Option String}

namespace ModelData

/-- The state of one model, that is in the list of models or not, that `held` threads have acquired, and that
`reserved` of them have a place at, some of which are handing over the games `inHand`. Of the
places that are taken, `due` are about to be given back. -/
structure Sound (settings : Settings) (d : ModelData) (listed : Prop) (held reserved due : Nat)
    (inHand : List FinishedGameData) : Prop where
  acquired : d.acquireCount = held
  listed_of_held : held ≠ 0 → listed
  reserved_le : reserved ≤ held
  inHand_le : inHand.length ≤ reserved
  unlisted_iff : d.dataQueueReadOnly = true ↔ ¬ listed
  closed : d.queueReadOnly = true → ¬ listed
  attempts : 0 ≤ d.nextExtremeAttemptIdx ∧ d.nextExtremeAttemptIdx < settings.groupSize
  counted : d.numUnwrittenGames =
    reserved + d.finishedGameQueue.length + d.loop.games.length + d.cohortBuffer.pendingGames.length + due
  bounded : d.numUnwrittenGames ≤ settings.maxDataQueueSize
  drained : d.loop.pastQueue = true → d.queueReadOnly = true ∧ d.finishedGameQueue = []
  emptied : d.loop.pastQueue = true → d.loop ≠ .draining → d.cohortBuffer.pendingGames = []
  accounted : d.enqueued.Perm (inHand ++ (d.finishedGameQueue ++ (d.loop.games ++
    (d.cohortBuffer.pendingGames ++ (d.written ++ d.deleted)))))

variable {d d' : ModelData} {listed : Prop} {held reserved due : Nat} {inHand inHand' : List FinishedGameData}
  {gameData : FinishedGameData}

theorem releaseUnwrittenGames_one (taken : 1 ≤ d.numUnwrittenGames) :
    d.releaseUnwrittenGames 1 = .ok { d with numUnwrittenGames := d.numUnwrittenGames - 1 } :=
  (if_neg one_ne_zero).trans (if_pos taken)

theorem pollCapacity_cases (settings : Settings) (d : ModelData) (shouldStop : Bool) :
    d.pollCapacity settings shouldStop = (d, none) ∨ d.pollCapacity settings shouldStop = (d, some false) ∨
      d.numUnwrittenGames < settings.maxDataQueueSize ∧
        d.pollCapacity settings shouldStop = ({ d with numUnwrittenGames := d.numUnwrittenGames + 1 }, some true) := by
  unfold pollCapacity
  split_ifs with full stop spare
  · exact .inr (.inl rfl)
  · exact .inl rfl
  · exact .inr (.inl rfl)
  · refine .inr (.inr ⟨?_, rfl⟩)
    simp only [Bool.and_eq_true, Bool.not_eq_true', decide_eq_true_eq, Bool.or_eq_true, not_or, not_and,
      Bool.not_eq_true] at full spare
    exact Nat.not_le.1 (full spare.1)

theorem waitPush_cases (settings : Settings) (d : ModelData) (gameData : FinishedGameData) :
    d.waitPush settings gameData = none ∨ d.waitPush settings gameData = some (d, false) ∨
      d.queueReadOnly = false ∧ d.waitPush settings gameData =
        some ({ d with finishedGameQueue := d.finishedGameQueue ++ [gameData] }, true) := by
  unfold waitPush
  split_ifs with full readOnly
  · exact .inl rfl
  · exact .inr (.inl rfl)
  · exact .inr (.inr ⟨Bool.not_eq_true _ ▸ readOnly, rfl⟩)

/-- What a launch writes. -/
def launched (d : ModelData) (started : Nat) (isOpen : Bool) (id : BitVec 64) (attempt : Int) : ModelData :=
  { d with
    gameStartedCount := started
    hasOpenExtremeCohort := isOpen
    openExtremeCohortId := id
    nextExtremeAttemptIdx := attempt }

namespace Sound

theorem launch (sound : d.Sound settings listed held reserved 0 inHand) (started : Nat) (isOpen : Bool) (id : BitVec 64)
    {attempt : Int} (inside : 0 ≤ attempt ∧ attempt < settings.groupSize) :
    (d.launched started isOpen id attempt).Sound settings listed held reserved 0 inHand :=
  { sound with attempts := inside }

theorem new (settings : Settings) (modelName : String) : (ModelData.new modelName).Sound settings True 0 0 0 [] where
  acquired := rfl
  listed_of_held _ := trivial
  reserved_le := Nat.le_refl 0
  inHand_le := Nat.le_refl 0
  unlisted_iff := by simp [ModelData.new]
  closed closed := by simp [ModelData.new] at closed
  attempts := ⟨Int.le_refl 0, settings.size.1⟩
  counted := rfl
  bounded := Nat.zero_le _
  drained past := by simp [ModelData.new, WriteLoop.pastQueue] at past
  emptied past := by simp [ModelData.new, WriteLoop.pastQueue] at past
  accounted := List.Perm.refl []

/-- The places that are due are given back. -/
theorem settle (sound : d.Sound settings listed held reserved due inHand) :
    d.releaseUnwrittenGames due = .ok { d with numUnwrittenGames := d.numUnwrittenGames - due } ∧
      { d with numUnwrittenGames := d.numUnwrittenGames - due }.Sound settings listed held reserved 0 inHand := by
  have counted := sound.counted
  refine ⟨?_, { sound with counted := ?_, bounded := (Nat.sub_le _ _).trans sound.bounded }⟩
  · unfold releaseUnwrittenGames
    split_ifs with none enough
    · rw [none]
      rfl
    · rfl
    · omega
  · show d.numUnwrittenGames - due =
      reserved + d.finishedGameQueue.length + d.loop.games.length + d.cohortBuffer.pendingGames.length + 0
    omega

theorem acquire (sound : d.Sound settings listed held reserved 0 inHand) (here : listed) :
    { d with acquireCount := d.acquireCount + 1 }.Sound settings listed (held + 1) reserved 0 inHand :=
  { sound with
    acquired := by
      show d.acquireCount + 1 = ((held + 1 : Nat) : Int)
      rw [sound.acquired]
      push_cast
      rfl
    listed_of_held := fun _ => here
    reserved_le := Nat.le_succ_of_le sound.reserved_le }

theorem release (sound : d.Sound settings listed (held + 1) reserved 0 inHand) (free : reserved ≤ held) :
    { d with acquireCount := d.acquireCount - 1 }.Sound settings listed held reserved 0 inHand :=
  { sound with
    acquired := by
      show d.acquireCount - 1 = (held : Int)
      rw [sound.acquired]
      push_cast
      exact Int.add_sub_cancel _ _
    listed_of_held := fun _ => sound.listed_of_held (Nat.succ_ne_zero held)
    reserved_le := free }

/-- A thread is given a place. -/
theorem reserve (sound : d.Sound settings listed held reserved 0 inHand) (free : reserved < held)
    (below : d.numUnwrittenGames < settings.maxDataQueueSize) :
    { d with numUnwrittenGames := d.numUnwrittenGames + 1 }.Sound settings listed held (reserved + 1) 0 inHand :=
  { sound with
    reserved_le := free
    inHand_le := Nat.le_succ_of_le sound.inHand_le
    counted := by
      have counted := sound.counted
      show d.numUnwrittenGames + 1 = reserved + 1 + d.finishedGameQueue.length + d.loop.games.length +
        d.cohortBuffer.pendingGames.length + 0
      omega
    bounded := below }

/-- A thread will give its place back. -/
theorem cancel (sound : d.Sound settings listed held (reserved + 1) 0 inHand) (free : inHand.length ≤ reserved) :
    d.Sound settings listed held reserved 1 inHand :=
  { sound with
    reserved_le := (Nat.le_succ reserved).trans sound.reserved_le
    inHand_le := free
    counted := by
      have counted := sound.counted
      omega }

/-- A thread calls `enqueueDataToWrite`. -/
theorem enqueue (sound : d.Sound settings listed held reserved 0 inHand) (perm : inHand'.Perm (gameData :: inHand))
    (free : inHand.length < reserved) :
    { d with enqueued := d.enqueued ++ [gameData] }.Sound settings listed held reserved 0 inHand' :=
  { sound with
    inHand_le := by
      rw [perm.length_eq]
      exact free
    accounted := by
      refine (List.perm_append_singleton gameData d.enqueued).trans ((sound.accounted.cons gameData).trans ?_)
      exact perm.symm.append_right _ }

/-- The game enters the queue, and takes the place of the thread. -/
theorem push (sound : d.Sound settings listed held (reserved + 1) 0 inHand') (perm : inHand'.Perm (gameData :: inHand))
    (writable : d.queueReadOnly = false) :
    { d with finishedGameQueue := d.finishedGameQueue ++ [gameData] }.Sound settings listed held reserved 0 inHand := by
  have size := sound.inHand_le
  rw [perm.length_eq, List.length_cons] at size
  exact { sound with
    reserved_le := (Nat.le_succ reserved).trans sound.reserved_le
    inHand_le := by omega
    counted := by
      have counted := sound.counted
      show d.numUnwrittenGames = reserved + (d.finishedGameQueue ++ [gameData]).length + d.loop.games.length +
        d.cohortBuffer.pendingGames.length + 0
      rw [List.length_append, List.length_singleton]
      omega
    drained := fun past => by
      have closed := (sound.drained past).1
      rw [writable] at closed
      exact absurd closed Bool.false_ne_true
    accounted := by
      refine sound.accounted.trans ((perm.append_right _).trans ?_)
      rw [List.append_assoc]
      exact List.perm_middle.symm.trans (List.Perm.append_left _ List.perm_middle.symm) }

/-- A game that cannot enter the queue is deleted. -/
theorem refuse (sound : d.Sound settings listed held (reserved + 1) 0 inHand')
    (perm : inHand'.Perm (gameData :: inHand)) :
    (d.delete [gameData]).Sound settings listed held reserved 1 inHand := by
  have size := sound.inHand_le
  rw [perm.length_eq, List.length_cons] at size
  exact { sound with
    reserved_le := (Nat.le_succ reserved).trans sound.reserved_le
    inHand_le := by omega
    counted := by
      have counted := sound.counted
      show d.numUnwrittenGames = reserved + d.finishedGameQueue.length + d.loop.games.length +
        d.cohortBuffer.pendingGames.length + 1
      omega
    accounted := by
      refine sound.accounted.trans ((perm.append_right _).trans ?_)
      show (gameData :: (inHand ++ (d.finishedGameQueue ++ (d.loop.games ++ (d.cohortBuffer.pendingGames ++
        (d.written ++ d.deleted)))))).Perm (inHand ++ (d.finishedGameQueue ++ (d.loop.games ++
          (d.cohortBuffer.pendingGames ++ (d.written ++ (d.deleted ++ [gameData]))))))
      simp only [← List.append_assoc]
      exact (List.perm_append_singleton gameData _).symm }

/-- Nobody has acquired the model when it leaves the list. -/
theorem unlist (sound : d.Sound settings listed 0 reserved 0 inHand) :
    { d with dataQueueReadOnly := true }.Sound settings False 0 reserved 0 inHand :=
  { sound with
    listed_of_held := fun held => absurd rfl held
    unlisted_iff := ⟨fun _ => not_false, fun _ => rfl⟩
    closed := fun _ => not_false }

theorem close (sound : d.Sound settings listed held reserved 0 inHand) (readOnly : d.dataQueueReadOnly = true) :
    { d with queueReadOnly := true }.Sound settings listed held reserved 0 inHand :=
  { sound with
    closed := fun _ => sound.unlisted_iff.1 readOnly
    drained := fun past => ⟨rfl, (sound.drained past).2⟩ }

/-- A model that is not listed has no places taken by threads. -/
theorem idle (sound : d.Sound settings listed held reserved due inHand) (unlisted : ¬ listed) :
    held = 0 ∧ reserved = 0 ∧ inHand = [] := by
  have none : held = 0 := by
    by_contra some
    exact unlisted (sound.listed_of_held some)
  have reservedNone : reserved = 0 := Nat.le_zero.1 (none ▸ sound.reserved_le)
  exact ⟨none, reservedNone, List.length_eq_zero_iff.1 (Nat.le_zero.1 (reservedNone ▸ sound.inHand_le))⟩

section Loop

/-- The loop takes a game out of the queue. -/
theorem pop {rest : List FinishedGameData} (sound : d.Sound settings listed held reserved 0 inHand)
    (here : d.loop = .popping) (queue : d.finishedGameQueue = gameData :: rest) :
    { d with finishedGameQueue := rest, loop := .popped gameData }.Sound settings listed held reserved 0 inHand :=
  { sound with
    counted := by
      have counted := sound.counted
      rw [here, queue] at counted
      exact counted.trans (by simp [WriteLoop.games]; omega)
    drained := fun past => absurd past Bool.false_ne_true
    emptied := fun past => absurd past Bool.false_ne_true
    accounted := by
      have accounted := sound.accounted
      rw [here, queue] at accounted
      exact accounted.trans (List.Perm.append_left _ List.perm_middle.symm) }

theorem popNothing (sound : d.Sound settings listed held reserved 0 inHand) (here : d.loop = .popping)
    (queue : d.finishedGameQueue = []) (closed : d.queueReadOnly = true) :
    { d with loop := .draining }.Sound settings listed held reserved 0 inHand :=
  { sound with
    counted := by
      have counted := sound.counted
      rwa [here] at counted
    drained := fun _ => ⟨closed, queue⟩
    emptied := fun _ other => absurd rfl other
    accounted := by
      have accounted := sound.accounted
      rwa [here] at accounted }

/-- A game in the hands of the loop is deleted. -/
theorem drop (sound : d.Sound settings listed held reserved 0 inHand) (here : d.loop = .popped gameData) :
    ({ d with loop := .popping }.delete [gameData]).Sound settings listed held reserved 1 inHand :=
  { sound with
    counted := by
      have counted := sound.counted
      rw [here] at counted
      exact counted.trans (by simp [WriteLoop.games, delete]; omega)
    drained := fun past => absurd past Bool.false_ne_true
    emptied := fun past => absurd past Bool.false_ne_true
    accounted := by
      have accounted := sound.accounted
      rw [here] at accounted
      refine accounted.trans (List.Perm.append_left _ (List.Perm.append_left _ ?_))
      show (gameData :: (d.cohortBuffer.pendingGames ++ (d.written ++ d.deleted))).Perm
        (d.cohortBuffer.pendingGames ++ (d.written ++ (d.deleted ++ [gameData])))
      simp only [← List.append_assoc]
      exact (List.perm_append_singleton gameData _).symm }

/-- A game goes into the cohort buffer. -/
theorem add (creditError : List FinishedGameData → Option String)
    (sound : d.Sound settings listed held reserved 0 inHand) (here : d.loop = .popped gameData) :
    ({ d with
        cohortBuffer := (d.cohortBuffer.addGame creditError gameData).buffer
        loop := if (d.cohortBuffer.addGame creditError gameData).result = AddResult.cohortReady then
          .writing (d.cohortBuffer.addGame creditError gameData).completedGames else .popping }.delete
      (d.cohortBuffer.addGame creditError gameData).deleted).Sound settings listed held reserved
        (d.cohortBuffer.addGame creditError gameData).deleted.length inHand := by
  obtain ⟨added, call⟩ : ∃ added, added = d.cohortBuffer.addGame creditError gameData := ⟨_, rfl⟩
  have perm := d.cohortBuffer.addGame_perm creditError gameData
  have none := d.cohortBuffer.addGame_completed creditError gameData
  rw [← call] at perm none ⊢
  obtain ⟨loop, named⟩ : ∃ loop, loop = if added.result = AddResult.cohortReady then
    WriteLoop.writing added.completedGames else .popping := ⟨_, rfl⟩
  rw [← named]
  have games : loop.games = added.completedGames := by
    rw [named]
    split_ifs with ready
    · rfl
    · exact (none ready).symm
  have loops : loop.pastQueue = false := by
    rw [named]
    split_ifs <;> rfl
  have counted := sound.counted
  have accounted := sound.accounted
  rw [here] at counted accounted
  exact { sound with
    counted := by
      have sizes := perm.length_eq
      rw [List.length_append, List.length_append, List.length_cons] at sizes
      show d.numUnwrittenGames = reserved + d.finishedGameQueue.length + loop.games.length +
        added.buffer.pendingGames.length + added.deleted.length
      rw [games, counted]
      simp only [WriteLoop.games, List.length_singleton]
      omega
    drained := fun past => absurd (loops.symm.trans past) Bool.false_ne_true
    emptied := fun past => absurd (loops.symm.trans past) Bool.false_ne_true
    accounted := by
      refine accounted.trans (List.Perm.append_left _ (List.Perm.append_left _ ?_))
      show ((gameData :: d.cohortBuffer.pendingGames) ++ (d.written ++ d.deleted)).Perm
        (loop.games ++ (added.buffer.pendingGames ++ (d.written ++ (d.deleted ++ added.deleted))))
      rw [games]
      refine (perm.symm.append_right _).trans ?_
      have swap : (added.buffer.pendingGames ++ (added.completedGames ++ added.deleted)).Perm
          (added.completedGames ++ (added.buffer.pendingGames ++ added.deleted)) := by
        rw [← List.append_assoc, ← List.append_assoc]
        exact List.perm_append_comm.append_right _
      refine (swap.append_right _).trans ?_
      simp only [List.append_assoc]
      refine List.Perm.append_left _ (List.Perm.append_left _ ?_)
      rw [← List.append_assoc d.written]
      exact List.perm_append_comm }

/-- The loop writes a game. -/
theorem write {rest : List FinishedGameData} (sound : d.Sound settings listed held reserved 0 inHand)
    (here : d.loop = .writing (gameData :: rest)) :
    { d with loop := .writing rest, written := d.written ++ [gameData] }.Sound settings listed held reserved 1
      inHand :=
  { sound with
    counted := by
      have counted := sound.counted
      rw [here] at counted
      exact counted.trans (by simp [WriteLoop.games]; omega)
    drained := fun past => absurd past Bool.false_ne_true
    emptied := fun past => absurd past Bool.false_ne_true
    accounted := by
      have accounted := sound.accounted
      rw [here] at accounted
      refine accounted.trans (List.Perm.append_left _ (List.Perm.append_left _ ?_))
      show (gameData :: (rest ++ (d.cohortBuffer.pendingGames ++ (d.written ++ d.deleted)))).Perm
        (rest ++ (d.cohortBuffer.pendingGames ++ ((d.written ++ [gameData]) ++ d.deleted)))
      rw [List.append_assoc d.written, List.singleton_append]
      simp only [← List.append_assoc]
      exact List.perm_middle.symm }

theorem wrote (sound : d.Sound settings listed held reserved 0 inHand) (here : d.loop = .writing []) :
    { d with loop := .popping }.Sound settings listed held reserved 0 inHand :=
  { sound with
    counted := by
      have counted := sound.counted
      rwa [here] at counted
    drained := fun past => absurd past Bool.false_ne_true
    emptied := fun past => absurd past Bool.false_ne_true
    accounted := by
      have accounted := sound.accounted
      rwa [here] at accounted }

/-- The loop deletes the games of incomplete cohorts. -/
theorem discard (sound : d.Sound settings listed held reserved 0 inHand) (here : d.loop = .draining) :
    ({ d with cohortBuffer := .empty, loop := .asserting }.delete d.cohortBuffer.pendingGames).Sound settings listed
      held reserved d.cohortBuffer.pendingGames.length inHand :=
  { sound with
    counted := by
      have counted := sound.counted
      rw [here] at counted
      exact counted
    drained := fun _ => sound.drained (by rw [here]; rfl)
    emptied := fun _ _ => rfl
    accounted := by
      have accounted := sound.accounted
      rw [here] at accounted
      refine accounted.trans (List.Perm.append_left _ (List.Perm.append_left _ ?_))
      show (d.cohortBuffer.pendingGames ++ (d.written ++ d.deleted)).Perm
        (d.written ++ (d.deleted ++ d.cohortBuffer.pendingGames))
      rw [← List.append_assoc d.written]
      exact List.perm_append_comm }

/-- The loop goes on after its queue is empty for good. -/
theorem advance {loop : WriteLoop} (sound : d.Sound settings listed held reserved 0 inHand)
    (past : d.loop.pastQueue = true) (other : d.loop ≠ .draining) (games : d.loop.games = loop.games) :
    { d with loop := loop }.Sound settings listed held reserved 0 inHand :=
  { sound with
    counted := by
      have counted := sound.counted
      rwa [games] at counted
    drained := fun _ => sound.drained past
    emptied := fun _ _ => sound.emptied past other
    accounted := by
      have accounted := sound.accounted
      rwa [games] at accounted }

/-- Once the games of incomplete cohorts are gone, no place is taken and nobody holds the model. -/
theorem ended (sound : d.Sound settings listed held reserved 0 inHand) (past : d.loop.pastQueue = true)
    (other : d.loop ≠ .draining) :
    d.numUnwrittenGames = 0 ∧ d.acquireCount = 0 ∧ ¬ listed ∧ d.enqueued.Perm (d.written ++ d.deleted) := by
  obtain ⟨closed, queue⟩ := sound.drained past
  have unlisted := sound.closed closed
  obtain ⟨none, reservedNone, handless⟩ := sound.idle unlisted
  have buffer := sound.emptied past other
  have games : d.loop.games = [] := by
    cases loop : d.loop <;> simp_all [WriteLoop.pastQueue, WriteLoop.games]
  have counted := sound.counted
  have accounted := sound.accounted
  rw [queue, buffer, games, reservedNone] at counted
  rw [queue, buffer, games, handless] at accounted
  exact ⟨counted, by rw [sound.acquired, none]; rfl, unlisted, accounted⟩

theorem counters (sound : d.Sound settings listed held reserved due inHand) (games moves : Nat) :
    { d with gamesFinishedCount := games, movesPlayedCount := moves }.Sound settings listed held reserved due inHand :=
  { sound with }

/-- A popped game is counted, and deleted, buffered or passed on. -/
theorem handle (sound : d.Sound settings listed held reserved 0 inHand) (here : d.loop = .popped gameData) :
    ∃ d', { d with loop := .popping }.handle creditError settings gameData = .ok d' ∧
      d'.Sound settings listed held reserved 0 inHand ∧ d'.loop ≠ .ended := by
  obtain ⟨c, counted⟩ : ∃ c : ModelData, c = { d with
    gamesFinishedCount := d.gamesFinishedCount + 1
    movesPlayedCount := d.movesPlayedCount + (gameData.endMoves - gameData.startMoves) } := ⟨_, rfl⟩
  have sound : c.Sound settings listed held reserved 0 inHand := by
    rw [counted]
    exact sound.counters _ _
  have here : c.loop = .popped gameData := by
    rw [counted]
    exact here
  have count : { d with loop := .popping }.countFinishedGame gameData = .ok { c with loop := .popping } := by
    rw [counted]
    exact if_pos gameData.extends_start
  unfold ModelData.handle
  rw [count]
  simp only [bind, Except.bind]
  by_cases mismatch : { c with loop := .popping }.mismatched settings gameData.extremeCohort = true
  · rw [if_pos mismatch]
    obtain ⟨release, settled⟩ := (sound.drop here).settle
    exact ⟨_, release, settled, by simp [delete]⟩
  · obtain ⟨release, settled⟩ := (sound.add creditError here).settle
    have sizes := c.cohortBuffer.addGame_numDeleted creditError gameData
    have due : c.cohortBuffer.numPendingGames + 1 -
        (c.cohortBuffer.addGame creditError gameData).buffer.numPendingGames -
          (c.cohortBuffer.addGame creditError gameData).completedGames.length =
            (c.cohortBuffer.addGame creditError gameData).deleted.length := by omega
    rw [if_neg mismatch, if_pos (by omega), due]
    refine ⟨_, release, settled, ?_⟩
    show (if _ then WriteLoop.writing _ else .popping) ≠ .ended
    split_ifs <;> exact WriteLoop.noConfusion

/-- The loop does not fail, and keeps the count. -/
theorem writeStep (sound : d.Sound settings listed held reserved 0 inHand) {outcome : Except Failure ModelData}
    (step : d.writeStep creditError settings = some outcome) :
    ∃ d', outcome = .ok d' ∧ d'.Sound settings listed held reserved 0 inHand ∧ d.loop ≠ .ended ∧ d'.loop ≠ .ended := by
  unfold ModelData.writeStep at step
  cases here : d.loop with
  | popping =>
    rw [here] at step
    cases queue : d.finishedGameQueue with
    | nil =>
      rw [queue] at step
      simp only at step
      split_ifs at step with closed
      cases step
      have next := sound.popNothing here queue closed
      rw [queue] at next
      exact ⟨_, rfl, next, by simp, by simp⟩
    | cons gameData rest =>
      rw [queue] at step
      cases step
      exact ⟨_, rfl, sound.pop here queue, by simp, by simp⟩
  | popped gameData =>
    rw [here] at step
    cases step
    obtain ⟨d', run, sound', running⟩ := sound.handle here
    exact ⟨d', run, sound', by simp, running⟩
  | writing completedGames =>
    rw [here] at step
    cases completedGames with
    | nil =>
      cases step
      exact ⟨_, rfl, sound.wrote here, by simp, by simp⟩
    | cons gameData rest =>
      cases step
      obtain ⟨release, settled⟩ := (sound.write here).settle
      exact ⟨_, (if_pos gameData.extends_start).trans release, settled, by simp, by simp⟩
  | draining =>
    rw [here] at step
    cases step
    obtain ⟨release, settled⟩ := (sound.discard here).settle
    refine ⟨_, ?_, settled, by simp, by simp [delete]⟩
    rw [ExtremeCohortGameBuffer.numPendingGames_eq]
    exact release
  | asserting =>
    rw [here] at step
    obtain ⟨none, free, -⟩ := sound.ended (by rw [here]; rfl) (by simp [here])
    simp only at step
    rw [if_neg (not_not.2 none), if_neg (not_not.2 free)] at step
    cases step
    exact ⟨_, rfl, sound.advance (by rw [here]; rfl) (by simp [here]) (by rw [here]; rfl), by simp, by simp⟩
  | locking | deleted | ended =>
    rw [here] at step
    cases step

end Loop

end Sound
end ModelData
end KataGo.Selfplay
