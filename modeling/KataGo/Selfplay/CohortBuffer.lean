import KataGo.Game.Board
import KataGo.Lib.Dict

/-! The completion buffer of `cpp/program/selfplaymanager.cpp`: games wait in it until their
cohort is complete. What a call deletes is part of its result. -/

namespace KataGo.Selfplay
open KataGo.Lib KataGo.Game

/-- The fields that are assigned at launch. -/
structure ExtremeCohortData where
  enabled : Bool
  metadataVersion : Int
  cohortId : BitVec 64
  attemptIdx : Int
  groupSize : Int
  focalPla : Player
  focalModelIdentity : String
  opponentModelIdentity : String
  configIdentity : String
  runIdentity : String
  deriving DecidableEq

namespace ExtremeCohortData

/-- `METADATA_VERSION` -/
def currentVersion : Int := 1

def hasValidAssignment (a : ExtremeCohortData) : Bool :=
  a.enabled && a.metadataVersion = currentVersion && a.groupSize > 0 && a.attemptIdx ≥ 0 && a.attemptIdx < a.groupSize &&
    (a.focalPla = .black || a.focalPla = .white) && a.focalModelIdentity ≠ "" && a.opponentModelIdentity ≠ "" &&
    a.configIdentity ≠ "" && a.runIdentity ≠ ""

/-- What the constructor leaves. -/
def unassigned : ExtremeCohortData := ⟨false, 0, 0, 0, 0, .empty, "", "", "", ""⟩

end ExtremeCohortData

/-- A game, with the lengths of its two histories. The second one extends the first. -/
structure FinishedGameData where
  extremeCohort : ExtremeCohortData
  startMoves : Nat
  endMoves : Nat
  extends_start : startMoves ≤ endMoves
  deriving DecidableEq

structure CohortKey where
  cohortId : BitVec 64
  groupSize : Int
  focalPla : Player
  focalModelIdentity : String
  opponentModelIdentity : String
  configIdentity : String
  runIdentity : String
  deriving DecidableEq

def ExtremeCohortData.key (a : ExtremeCohortData) : CohortKey :=
  ⟨a.cohortId, a.groupSize, a.focalPla, a.focalModelIdentity, a.opponentModelIdentity, a.configIdentity, a.runIdentity⟩

structure CohortBucket where
  gamesByAttempt : List (Option FinishedGameData)
  failed : Bool
  failureReason : String

namespace CohortBucket

def ofSize (groupSize : Int) : CohortBucket := ⟨List.replicate groupSize.toNat none, false, ""⟩

def games (bucket : CohortBucket) : List FinishedGameData := bucket.gamesByAttempt.filterMap id

/-- A bucket has a place for every attempt of its cohort. -/
def Fits (key : CohortKey) (bucket : CohortBucket) : Prop := bucket.gamesByAttempt.length = key.groupSize.toNat

theorem Fits.set {key : CohortKey} {bucket : CohortBucket} (fits : bucket.Fits key) (attempt : Nat)
    (place : Option FinishedGameData) :
    Fits key { bucket with gamesByAttempt := bucket.gamesByAttempt.set attempt place } :=
  List.length_set.trans fits

theorem Fits.fail {key : CohortKey} {bucket : CohortBucket} (fits : bucket.Fits key) (reason : String) :
    Fits key { bucket with failed := true, failureReason := reason } := fits

end CohortBucket

structure ExtremeCohortGameBuffer where
  pending : Dict CohortKey CohortBucket
  fits : ∀ key bucket, pending.get key = some bucket → bucket.Fits key

inductive AddResult where
  | buffered
  | cohortReady
  | cohortRejected
  deriving DecidableEq, Repr

/-- What `addGame` leaves behind. -/
structure Added where
  buffer : ExtremeCohortGameBuffer
  result : AddResult
  completedGames : List FinishedGameData
  error : String
  deleted : List FinishedGameData

namespace ExtremeCohortGameBuffer

def empty : ExtremeCohortGameBuffer := ⟨Dict.empty, by simp⟩

def put (buffer : ExtremeCohortGameBuffer) (key : CohortKey) (bucket : CohortBucket) (fits : bucket.Fits key) :
    ExtremeCohortGameBuffer :=
  ⟨buffer.pending.set key bucket, fun key' bucket' found => by
    rw [Dict.get_set] at found
    split_ifs at found with same
    · rw [same, ← Option.some.inj found]
      exact fits
    · exact buffer.fits key' bucket' found⟩

def erase (buffer : ExtremeCohortGameBuffer) (key : CohortKey) : ExtremeCohortGameBuffer :=
  ⟨buffer.pending.erase key, fun key' bucket' found => by
    rw [Dict.get_erase] at found
    split_ifs at found
    exact buffer.fits key' bucket' found⟩

/-- The bucket that `emplace` finds or makes. -/
def bucketOf (buffer : ExtremeCohortGameBuffer) (key : CohortKey) : { bucket : CohortBucket // bucket.Fits key } :=
  match found : buffer.pending.get key with
  | some bucket => ⟨bucket, buffer.fits key bucket found⟩
  | none => ⟨CohortBucket.ofSize key.groupSize, List.length_replicate⟩

/-- Scores are floating-point numbers. What `applyExtremeCohortCredits` has against a complete
cohort, if anything, is a parameter. -/
def addGame (creditError : List FinishedGameData → Option String) (buffer : ExtremeCohortGameBuffer)
    (gameData : FinishedGameData) : Added :=
  let assignment := gameData.extremeCohort
  if !assignment.hasValidAssignment then
    ⟨buffer, .cohortRejected, [], "game has no valid extreme-cohort launch assignment", [gameData]⟩
  else
    let key := assignment.key
    let bucket := buffer.bucketOf key
    let attempt := assignment.attemptIdx.toNat
    if (bucket.1.gamesByAttempt.getD attempt none).isSome then
      let reason := "duplicate attempt index received"
      ⟨buffer.put key { bucket.1 with failed := true, failureReason := reason } (bucket.2.fail reason), .cohortRejected,
        [], reason, [gameData]⟩
    else
      let filled := { bucket.1 with gamesByAttempt := bucket.1.gamesByAttempt.set attempt (some gameData) }
      if filled.gamesByAttempt.any Option.isNone then
        ⟨buffer.put key filled (bucket.2.set attempt (some gameData)), .buffered, [], "", []⟩
      else if filled.failed then ⟨buffer.erase key, .cohortRejected, [], filled.failureReason, filled.games⟩
      else
        match creditError filled.games with
        | some error => ⟨buffer.erase key, .cohortRejected, [], error, filled.games⟩
        | none => ⟨buffer.erase key, .cohortReady, filled.games, "", []⟩

def numPendingGames (buffer : ExtremeCohortGameBuffer) : Nat :=
  (buffer.pending.values.map fun bucket => bucket.gamesByAttempt.countP Option.isSome).sum

/-- The games that are deleted, bucket by bucket. -/
def pendingGames (buffer : ExtremeCohortGameBuffer) : List FinishedGameData :=
  buffer.pending.values.flatMap CohortBucket.games

/-- The empty buffer, and the games that are gone. -/
def discardIncomplete (buffer : ExtremeCohortGameBuffer) : ExtremeCohortGameBuffer × List FinishedGameData :=
  (empty, buffer.pendingGames)

section Accounting

variable {buffer : ExtremeCohortGameBuffer} {key : CohortKey} {bucket : CohortBucket} {gameData : FinishedGameData}

theorem numPendingGames_eq (buffer : ExtremeCohortGameBuffer) :
    buffer.numPendingGames = buffer.pendingGames.length := by
  have each : ∀ bucket : CohortBucket, bucket.gamesByAttempt.countP Option.isSome = bucket.games.length := by
    intro bucket
    unfold CohortBucket.games
    induction bucket.gamesByAttempt with
    | nil => rfl
    | cons place rest ih => cases place <;> simp [ih]
  unfold numPendingGames pendingGames
  rw [List.length_flatMap]
  simp only [each]

@[simp] theorem pendingGames_empty : empty.pendingGames = [] := rfl

theorem pendingGames_put (fits : bucket.Fits key) :
    (buffer.put key bucket fits).pendingGames.Perm (bucket.games ++ (buffer.erase key).pendingGames) :=
  ((Dict.perm_set buffer.pending key bucket).map Prod.snd).flatMap_right CohortBucket.games

/-- The games of a bucket, and those of the others. -/
theorem pendingGames_split (buffer : ExtremeCohortGameBuffer) (key : CohortKey) :
    buffer.pendingGames.Perm ((buffer.bucketOf key).1.games ++ (buffer.erase key).pendingGames) := by
  unfold bucketOf
  split
  · rename_i bucket found
    exact ((Dict.perm_of_get found).map Prod.snd).flatMap_right CohortBucket.games
  · rename_i absent
    have nothing : (CohortBucket.ofSize key.groupSize).games = [] := by
      simp [CohortBucket.games, CohortBucket.ofSize, List.filterMap_replicate_of_none]
    have same : (buffer.erase key).pendingGames = buffer.pendingGames :=
      congrArg (fun d => d.values.flatMap CohortBucket.games) (Dict.erase_of_get_none absent)
    rw [nothing, same, List.nil_append]

/-- A game that takes a free place. -/
theorem games_set (gameData : FinishedGameData) {places : List (Option FinishedGameData)} {attempt : Nat} (inside : attempt < places.length)
    (free : (places.getD attempt none).isSome = false) :
    ((places.set attempt (some gameData)).filterMap id).Perm (gameData :: places.filterMap id) := by
  induction places generalizing attempt with
  | nil => exact absurd inside (by simp)
  | cons place rest ih =>
    cases attempt with
    | zero =>
      have vacant : place = none := by simpa using free
      subst vacant
      simp
    | succ attempt =>
      have later := ih (Nat.lt_of_succ_lt_succ inside) (by simpa using free)
      cases place with
      | none => simpa using later
      | some other => simpa using (later.cons other).trans (List.Perm.swap gameData other _)

theorem attempt_lt (valid : gameData.extremeCohort.hasValidAssignment = true)
    (fits : bucket.Fits gameData.extremeCohort.key) :
    gameData.extremeCohort.attemptIdx.toNat < bucket.gamesByAttempt.length := by
  unfold CohortBucket.Fits at fits
  rw [fits]
  simp only [ExtremeCohortData.hasValidAssignment, Bool.and_eq_true, decide_eq_true_eq] at valid
  show _ < gameData.extremeCohort.groupSize.toNat
  omega

/-- Every game is in the buffer, in the completed cohort or deleted, and in one of them only. -/
theorem addGame_perm (creditError : List FinishedGameData → Option String) (buffer : ExtremeCohortGameBuffer)
    (gameData : FinishedGameData) :
    ((buffer.addGame creditError gameData).buffer.pendingGames ++
      ((buffer.addGame creditError gameData).completedGames ++ (buffer.addGame creditError gameData).deleted)).Perm
        (gameData :: buffer.pendingGames) := by
  have parts := buffer.pendingGames_split gameData.extremeCohort.key
  unfold addGame
  simp only
  split_ifs with invalid duplicate waiting failed
  · exact List.perm_append_singleton gameData buffer.pendingGames
  · refine (List.perm_append_singleton gameData _).trans (List.Perm.cons gameData ?_)
    exact (pendingGames_put ((buffer.bucketOf gameData.extremeCohort.key).2.fail _)).trans parts.symm
  all_goals
    have valid : gameData.extremeCohort.hasValidAssignment = true := by simpa using invalid
    have entered := (games_set gameData
      (attempt_lt valid (buffer.bucketOf gameData.extremeCohort.key).2) (Bool.not_eq_true _ ▸ duplicate)).append_right
        (buffer.erase gameData.extremeCohort.key).pendingGames
    have whole := entered.trans (parts.symm.cons gameData)
  · rw [List.append_nil, List.append_nil]
    exact (pendingGames_put ((buffer.bucketOf gameData.extremeCohort.key).2.set _ _)).trans whole
  · exact List.perm_append_comm.trans whole
  · split
    · exact List.perm_append_comm.trans whole
    · rw [List.append_nil]
      exact List.perm_append_comm.trans whole

/-- The number of deleted games is what the sizes say, and the subtraction does not go below zero. -/
theorem addGame_numDeleted (creditError : List FinishedGameData → Option String) (buffer : ExtremeCohortGameBuffer)
    (gameData : FinishedGameData) :
    buffer.numPendingGames + 1 = (buffer.addGame creditError gameData).buffer.numPendingGames +
      (buffer.addGame creditError gameData).completedGames.length +
        (buffer.addGame creditError gameData).deleted.length := by
  have sizes := (addGame_perm creditError buffer gameData).length_eq
  rw [List.length_append, List.length_append, List.length_cons] at sizes
  rw [numPendingGames_eq, numPendingGames_eq]
  omega

theorem addGame_completed (creditError : List FinishedGameData → Option String) (buffer : ExtremeCohortGameBuffer)
    (gameData : FinishedGameData) (waiting : (buffer.addGame creditError gameData).result ≠ .cohortReady) :
    (buffer.addGame creditError gameData).completedGames = [] := by
  revert waiting
  unfold addGame
  simp only
  split_ifs
  · exact fun _ => rfl
  · exact fun _ => rfl
  · exact fun _ => rfl
  · exact fun _ => rfl
  · split
    · exact fun _ => rfl
    · exact fun ready => absurd rfl ready

end Accounting

end ExtremeCohortGameBuffer
end KataGo.Selfplay
