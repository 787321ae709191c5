import KataGo.Selfplay.CohortBuffer

/-! `SelfplayManager` of `cpp/program/selfplaymanager.cpp` and the game loop of
`cpp/command/selfplay.cpp`, with extreme cohorts enabled. A step is what one thread does between
two mutexes: `threadsafequeue.h` guards a queue, `unwrittenGamesMutex` the counter of its
model, and `managerMutex` the list of models. -/

namespace KataGo.Selfplay
open KataGo.Lib KataGo.Game

/-- What the constructor of the manager accepts when cohorts are enabled. -/
structure Settings where
  groupSize : Int
  focalPla : Player
  configIdentity : String
  runIdentity : String
  cohortIdStart : BitVec 64
  maxDataQueueSize : Nat
  autoCleanupAllButLatestIfUnused : Bool
  size : 0 < groupSize ∧ groupSize ≤ 64
  player : focalPla = .black ∨ focalPla = .white
  multiple : groupSize ≤ maxDataQueueSize ∧ (maxDataQueueSize : Int) % groupSize = 0
  identities : configIdentity ≠ "" ∧ runIdentity ≠ ""

/-- The assertions and exceptions that end a thread or the process. -/
inductive Failure where
  | releasedTooMany
  | negativeAcquireCount
  | acquiredAtShutdown
  | modelNotFound
  | invalidLaunch
  | tooManyAttempts
  | invalidHistory
  | bufferGrew
  | unwrittenAtEnd
  | acquiredAtEnd
  | listedAtEnd
  | tooManyLoopsEnded
  | modelsWithoutLoop
  deriving DecidableEq, Repr

/-- Where the data write loop of a model is. -/
inductive WriteLoop where
  | popping
  | popped (gameData : FinishedGameData)
  | writing (completedGames : List FinishedGameData)
  | draining
  | asserting
  | locking
  | deleted
  | ended
  deriving DecidableEq

namespace WriteLoop

/-- The games that the loop has taken out of the queue and not disposed of. -/
def games : WriteLoop → List FinishedGameData
  | popped gameData => [gameData]
  | writing completedGames => completedGames
  | _ => []

/-- `waitPop` has returned `false`. -/
def pastQueue : WriteLoop → Bool
  | draining | asserting | locking | deleted | ended => true
  | _ => false

end WriteLoop

/-- The last three fields record what became of the games; the program does not keep them. -/
structure ModelData where
  modelName : String
  gameStartedCount : Nat
  gamesFinishedCount : Nat
  movesPlayedCount : Nat
  finishedGameQueue : List FinishedGameData
  queueReadOnly : Bool
  numUnwrittenGames : Nat
  dataQueueReadOnly : Bool
  acquireCount : Int
  hasOpenExtremeCohort : Bool
  openExtremeCohortId : BitVec 64
  nextExtremeAttemptIdx : Int
  cohortBuffer : ExtremeCohortGameBuffer
  loop : WriteLoop
  enqueued : List FinishedGameData
  written : List FinishedGameData
  deleted : List FinishedGameData

namespace ModelData

def new (modelName : String) : ModelData :=
  ⟨modelName, 0, 0, 0, [], false, 0, false, 0, false, 0, 0, .empty, .popping, [], [], []⟩

def releaseUnwrittenGames (d : ModelData) (count : Nat) : Except Failure ModelData :=
  if count = 0 then .ok d
  else if count ≤ d.numUnwrittenGames then .ok { d with numUnwrittenGames := d.numUnwrittenGames - count }
  else .error .releasedTooMany

def delete (d : ModelData) (games : List FinishedGameData) : ModelData := { d with deleted := d.deleted ++ games }

/-- One turn of the loop in `waitForUnwrittenGameCapacity`: the answer, if there is one yet. -/
def pollCapacity (settings : Settings) (d : ModelData) (shouldStop : Bool) : ModelData × Option Bool :=
  if !d.dataQueueReadOnly && d.numUnwrittenGames ≥ settings.maxDataQueueSize then
    (d, if shouldStop then some false else none)
  else if d.dataQueueReadOnly || shouldStop then (d, some false)
  else ({ d with numUnwrittenGames := d.numUnwrittenGames + 1 }, some true)

/-- `waitPush`: `none` while it waits. -/
def waitPush (settings : Settings) (d : ModelData) (gameData : FinishedGameData) : Option (ModelData × Bool) :=
  if !d.queueReadOnly && d.finishedGameQueue.length ≥ settings.maxDataQueueSize then none
  else if d.queueReadOnly then some (d, false)
  else some ({ d with finishedGameQueue := d.finishedGameQueue ++ [gameData] }, true)

def countFinishedGame (d : ModelData) (gameData : FinishedGameData) : Except Failure ModelData :=
  if gameData.startMoves ≤ gameData.endMoves then
    .ok { d with
      gamesFinishedCount := d.gamesFinishedCount + 1
      movesPlayedCount := d.movesPlayedCount + (gameData.endMoves - gameData.startMoves) }
  else .error .invalidHistory

def mismatched (settings : Settings) (d : ModelData) (a : ExtremeCohortData) : Bool :=
  !a.hasValidAssignment || a.groupSize ≠ settings.groupSize || a.focalPla ≠ settings.focalPla ||
    a.focalModelIdentity ≠ d.modelName || a.configIdentity ≠ settings.configIdentity ||
    a.runIdentity ≠ settings.runIdentity

/-- `writeGame`. The writers of data and of SGF files are not modelled. -/
def writeGame (d : ModelData) (gameData : FinishedGameData) : Except Failure ModelData :=
  if gameData.startMoves ≤ gameData.endMoves then
    { d with written := d.written ++ [gameData] }.releaseUnwrittenGames 1
  else .error .invalidHistory

variable (creditError : List FinishedGameData → Option String)

/-- What the loop does with a game that it has popped. -/
def handle (settings : Settings) (d : ModelData) (gameData : FinishedGameData) : Except Failure ModelData := do
  let d ← d.countFinishedGame gameData
  if d.mismatched settings gameData.extremeCohort then
    (d.delete [gameData]).releaseUnwrittenGames 1
  else
    let pendingBefore := d.cohortBuffer.numPendingGames
    let added := d.cohortBuffer.addGame creditError gameData
    let pendingAfter := added.buffer.numPendingGames
    if pendingBefore + 1 ≥ pendingAfter + added.completedGames.length then
      let d := { d with
        cohortBuffer := added.buffer
        loop := if added.result = AddResult.cohortReady then .writing added.completedGames else .popping }
      (d.delete added.deleted).releaseUnwrittenGames (pendingBefore + 1 - pendingAfter - added.completedGames.length)
    else .error .bufferGrew

/-- The steps of `runDataWriteLoopImpl` that need nothing but the model. -/
def writeStep (settings : Settings) (d : ModelData) : Option (Except Failure ModelData) :=
  match d.loop with
  | .popping =>
    match d.finishedGameQueue with
    | gameData :: rest => some (.ok { d with finishedGameQueue := rest, loop := .popped gameData })
    | [] => if d.queueReadOnly then some (.ok { d with loop := .draining }) else none
  | .popped gameData => some ({ d with loop := .popping }.handle creditError settings gameData)
  | .writing [] => some (.ok { d with loop := .popping })
  | .writing (gameData :: rest) => some ({ d with loop := .writing rest }.writeGame gameData)
  | .draining =>
    let (buffer, games) := d.cohortBuffer.discardIncomplete
    some (({ d with cohortBuffer := buffer, loop := .asserting }.delete games).releaseUnwrittenGames
      d.cohortBuffer.numPendingGames)
  | .asserting =>
    if d.numUnwrittenGames ≠ 0 then some (.error .unwrittenAtEnd)
    else if d.acquireCount ≠ 0 then some (.error .acquiredAtEnd)
    else some (.ok { d with loop := .locking })
  | .locking | .deleted | .ended => none

end ModelData

/-- Where a thread of the game loop is. All places but the first and the last belong to a model. -/
inductive GameThread where
  | idle
  | acquired (m : Nat)
  | waiting (m : Nat)
  | reserved (m : Nat)
  | playing (m : Nat) (assignment : ExtremeCohortData)
  | played (m : Nat) (gameData : Option FinishedGameData)
  | pushing (m : Nat) (gameData : FinishedGameData)
  | refused (m : Nat) (gameData : FinishedGameData)
  | canceling (m : Nat)
  | leaving (m : Nat) (shouldContinue : Bool)
  | stopped
  deriving DecidableEq

namespace GameThread

/-- The thread has acquired the model and not released it. -/
def holds (m : Nat) : GameThread → Bool
  | idle | stopped => false
  | acquired k | waiting k | reserved k | playing k _ | played k _ | pushing k _ | refused k _ | canceling k
  | leaving k _ => k = m

/-- The thread has a place for a game of the model, and has neither used it nor given it back. -/
def reserves (m : Nat) : GameThread → Bool
  | reserved k | playing k _ | played k _ | pushing k _ | refused k _ | canceling k => k = m
  | _ => false

end GameThread

/-- Models are numbered in the order in which they are loaded. -/
structure State where
  modelDatas : List Nat
  data : Nat → ModelData
  numLoaded : Nat
  numDataWriteLoopsActive : Int
  nextExtremeCohortId : BitVec 64
  threads : List GameThread

namespace State

variable (settings : Settings)

/-- The manager, once it is constructed, and the threads that are about to use it. -/
def start (numGameThreads : Nat) : State :=
  ⟨[], fun _ => .new "", 0, 0, settings.cohortIdStart, List.replicate numGameThreads .idle⟩

def setData (s : State) (m : Nat) (d : ModelData) : State := { s with data := Function.update s.data m d }

/-- The first half of `setDataQueueReadOnly`, and the removal from the list, for some of the models. -/
def unlist (s : State) (unused : List Nat) : State :=
  { s with
    modelDatas := s.modelDatas.filter (· ∉ unused)
    data := fun m => if m ∈ unused then { s.data m with dataQueueReadOnly := true } else s.data m }

def maybeAutoCleanup (s : State) : Except Failure State :=
  if settings.autoCleanupAllButLatestIfUnused then
    let unused := s.modelDatas.dropLast.filter fun m => (s.data m).acquireCount ≤ 0
    if unused.all fun m => (s.data m).acquireCount = 0 then .ok (s.unlist unused) else .error .negativeAcquireCount
  else .ok s

/-- Without an effect, and `none`, when the name is taken. -/
def loadModelAndStartDataWriting (s : State) (modelName : String) : Option (Except Failure State) :=
  if s.modelDatas.any fun m => (s.data m).modelName = modelName then none
  else some (maybeAutoCleanup settings
    { s.setData s.numLoaded (.new modelName) with
      modelDatas := s.modelDatas ++ [s.numLoaded]
      numLoaded := s.numLoaded + 1
      numDataWriteLoopsActive := s.numDataWriteLoopsActive + 1 })

/-- The destructor. It is called once the game threads have been joined. -/
def shutdown (s : State) : Option (Except Failure State) :=
  if s.threads.all (· = .stopped) then
    if s.modelDatas.all fun m => (s.data m).acquireCount = 0 then some (.ok (s.unlist s.modelDatas))
    else some (.error .acquiredAtShutdown)
  else none

/-- The second half of `setDataQueueReadOnly`. -/
def closeQueue (s : State) (m : Nat) : Option (Except Failure State) :=
  if m < s.numLoaded ∧ (s.data m).dataQueueReadOnly then
    some (.ok (s.setData m { s.data m with queueReadOnly := true }))
  else none

def acquireModel (s : State) (m : Nat) : State :=
  s.setData m { s.data m with acquireCount := (s.data m).acquireCount + 1 }

def release (s : State) (m : Nat) : Except Failure State :=
  if m ∈ s.modelDatas then
    maybeAutoCleanup settings (s.setData m { s.data m with acquireCount := (s.data m).acquireCount - 1 })
  else .ok s

def countOneGameStartedAndGetCohort (s : State) (m : Nat) (opponentModelIdentity : String) :
    Except Failure (State × ExtremeCohortData) :=
  if m ∉ s.modelDatas then .error .modelNotFound
  else if opponentModelIdentity = "" then .error .invalidLaunch
  else
    let d := s.data m
    let d := { d with gameStartedCount := d.gameStartedCount + 1 }
    let (d, nextExtremeCohortId) :=
      if d.hasOpenExtremeCohort then (d, s.nextExtremeCohortId)
      else
        ({ d with
          hasOpenExtremeCohort := true
          openExtremeCohortId := s.nextExtremeCohortId
          nextExtremeAttemptIdx := 0 }, s.nextExtremeCohortId + 1)
    let assignment : ExtremeCohortData :=
      ⟨true, ExtremeCohortData.currentVersion, d.openExtremeCohortId, d.nextExtremeAttemptIdx, settings.groupSize,
        settings.focalPla, d.modelName, opponentModelIdentity, settings.configIdentity, settings.runIdentity⟩
    if !assignment.hasValidAssignment then .error .invalidLaunch
    else
      let d := { d with nextExtremeAttemptIdx := d.nextExtremeAttemptIdx + 1 }
      let closed := { d with hasOpenExtremeCohort := false, nextExtremeAttemptIdx := 0 }
      if d.nextExtremeAttemptIdx ≥ settings.groupSize then
        if d.nextExtremeAttemptIdx = settings.groupSize then
          .ok ({ s.setData m closed with nextExtremeCohortId := nextExtremeCohortId }, assignment)
        else .error .tooManyAttempts
      else .ok ({ s.setData m d with nextExtremeCohortId := nextExtremeCohortId }, assignment)

/-- The last steps of a data write loop need the manager. -/
def loopStep (creditError : List FinishedGameData → Option String) (s : State) (m : Nat) :
    Option (Except Failure State) :=
  let d := s.data m
  match d.loop with
  | .locking =>
    if m ∈ s.modelDatas then some (.error .listedAtEnd) else some (.ok (s.setData m { d with loop := .deleted }))
  | .deleted =>
    let s := { s.setData m { d with loop := .ended } with numDataWriteLoopsActive := s.numDataWriteLoopsActive - 1 }
    if s.numDataWriteLoopsActive < 0 then some (.error .tooManyLoopsEnded)
    else if s.numDataWriteLoopsActive = 0 ∧ s.modelDatas ≠ [] then some (.error .modelsWithoutLoop)
    else some (.ok s)
  | _ => (d.writeStep creditError settings).map fun outcome => outcome.map (s.setData m)

end State

/-- What a game thread cannot know: the model that is the latest one, whether to stop, how many
games have been started, and how its game ends. A game may carry any assignment at all. -/
inductive Input where
  | acquire (m : Nat)
  | shouldStop (stop : Bool)
  | launch (opponentModelIdentity : String)
  | finish (gameData : Option FinishedGameData)
  deriving DecidableEq

namespace State

variable (settings : Settings)

/-- A thread of the game loop takes a step. -/
def gameStep (s : State) : GameThread → Input → Option (Except Failure (State × GameThread))
  | .idle, .shouldStop true => some (.ok (s, .stopped))
  | .idle, .acquire m => if m ∈ s.modelDatas then some (.ok (s.acquireModel m, .acquired m)) else none
  | .acquired m, .shouldStop _ =>
    if m ∈ s.modelDatas then some (.ok (s, .waiting m)) else some (.error .modelNotFound)
  | .waiting m, .shouldStop stop =>
    match (s.data m).pollCapacity settings stop with
    | (_, none) => some (.ok (s, .waiting m))
    | (_, some false) => some (.ok (s, .leaving m false))
    | (d, some true) => some (.ok (s.setData m d, .reserved m))
  | .reserved m, .finish none => some (.ok (s, .played m none))
  | .reserved m, .launch opponent =>
    some ((s.countOneGameStartedAndGetCohort settings m opponent).map fun (s, assignment) => (s, .playing m assignment))
  | .playing m _, .finish gameData => some (.ok (s, .played m gameData))
  | .played m (some gameData), .shouldStop _ =>
    if m ∈ s.modelDatas then
      some (.ok (s.setData m { s.data m with enqueued := (s.data m).enqueued ++ [gameData] }, .pushing m gameData))
    else some (.error .modelNotFound)
  | .played m none, .shouldStop _ =>
    if m ∈ s.modelDatas then some (.ok (s, .canceling m)) else some (.error .modelNotFound)
  | .pushing m gameData, .shouldStop _ =>
    match (s.data m).waitPush settings gameData with
    | none => none
    | some (d, true) => some (.ok (s.setData m d, .leaving m true))
    | some (_, false) => some (.ok (s, .refused m gameData))
  | .refused m gameData, .shouldStop _ =>
    some (((s.data m).delete [gameData]).releaseUnwrittenGames 1 |>.map fun d => (s.setData m d, .leaving m true))
  | .canceling m, .shouldStop _ =>
    some ((s.data m).releaseUnwrittenGames 1 |>.map fun d => (s.setData m d, .leaving m false))
  | .leaving m shouldContinue, .shouldStop _ =>
    some ((s.release settings m).map fun s => (s, if shouldContinue then .idle else .stopped))
  | _, _ => none

end State

inductive Action where
  | load (modelName : String)
  | shutdown
  | closeQueue (m : Nat)
  | loop (m : Nat)
  | game (thread : Nat) (input : Input)
  deriving DecidableEq

namespace State

variable (settings : Settings) (creditError : List FinishedGameData → Option String)

/-- One step of any thread. It is `none` when the thread cannot take the step now. -/
def step (s : State) : Action → Option (Except Failure State)
  | .load modelName => s.loadModelAndStartDataWriting settings modelName
  | .shutdown => s.shutdown
  | .closeQueue m => s.closeQueue m
  | .loop m => if m < s.numLoaded then s.loopStep settings creditError m else none
  | .game i input =>
    match s.threads[i]? with
    | none => none
    | some thread => (s.gameStep settings thread input).map fun outcome =>
        outcome.map fun (next, thread) => { next with threads := s.threads.set i thread }

/-- The steps of all threads, in any order. -/
def run (s : State) : List Action → Option (Except Failure State)
  | [] => some (.ok s)
  | action :: rest =>
    match s.step settings creditError action with
    | none => none
    | some (.error failure) => some (.error failure)
    | some (.ok s) => s.run rest

end State
end KataGo.Selfplay
