import KataGo.Scheduler.Operations

/-! The calls that the scheduler takes: their arguments are checked, the state is loaded, and what
the operation makes of it is committed. -/

namespace KataGo.Scheduler
open KataGo.Lib

variable {F : Type} [Numbers F]

/-- Whether a value counts as true. -/
def truthy : Json F → Bool
  | .null => false
  | .bool b => b
  | .int n => n ≠ 0
  | .float x => ¬NumberEq.sameInt x 0
  | .str s => s ≠ ""
  | .arr items => ¬items.isEmpty
  | .obj fields => ¬fields.isEmpty

/-- The first argument of an enqueue call: an item, or a value that should be a work identifier. -/
inductive ItemArg (F : Type) [Numbers F] where
  | workItem (item : WorkItem F)
  | value (value : Json F)

structure EnqueueArgs (F : Type) [Numbers F] where
  item : ItemArg F
  kind : Json F
  workId : Json F
  eligibleGpus : Option (List (Json F))
  preemptible : Json F
  preferredGpu : Json F
  payload : Json F

namespace EnqueueArgs

def fromFields (args : EnqueueArgs F) (workId : Json F) : Checked (WorkItem F) := do
  require (workId.isNull = false ∧ args.kind.isNull = false) (.value "work_id and kind are required")
  RawItem.make {
    workId := workId
    kind := args.kind
    eligibleGpus := args.eligibleGpus
    preemptible := args.preemptible
    preferredGpu := args.preferredGpu
    payload := args.payload }

def desired (args : EnqueueArgs F) : Checked (WorkItem F) :=
  match args.item with
  | .workItem item => do
      require (args.kind.isNull = true ∧ args.workId.isNull = true ∧ args.eligibleGpus.isNone = true ∧
        args.preferredGpu.isNull = true ∧ args.payload.isNull = true ∧ truthy args.preemptible = false)
        (.value "a WorkItem cannot be combined with item fields")
      return item
  | .value (.str workId) => do
      require (args.workId.isNull = true ∨ args.workId.isStr workId = true)
        (.value "positional and keyword work_id differ")
      args.fromFields (.str workId)
  | .value .null => args.fromFields args.workId
  | .value _ => .error ⟨.typeError, "item must be a WorkItem, work ID string, or None"⟩

end EnqueueArgs

/-- The fields of a claim that a release looks at. -/
structure ClaimArg where
  claimId : String
  workId : String
  gpuId : String
  ownerId : String

structure ReleaseArgs (F : Type) where
  claimOrGpu : ClaimArg ⊕ Json F
  ownerId : Json F
  workId : Json F
  outcome : Json F
  requeue : Option Bool
  idleReason : Json F
  idleDetails : Json F

namespace ReleaseArgs

def normalizeOutcome (outcome : ReleaseOutcome) (requeue : Option Bool) : Checked ReleaseOutcome :=
  match requeue with
  | some true =>
      if outcome = .completed ∨ outcome = .requeue then .ok .requeue
      else .error (.value "requeue=True conflicts with terminal outcome")
  | some false =>
      if outcome = .requeue then .error (.value "requeue=False conflicts with outcome='requeue'") else .ok outcome
  | none => .ok outcome

def optionalReason (value : Json F) : Checked (Option IdleReason) :=
  if value.isNull then .ok none else do return some (← normalizeIdleReason value)

def finish (args : ReleaseArgs F) (gpuId : String) (ownerId workId : Json F) (expectedClaimId : Option String) :
    Checked (ReleaseRequest F) := do
  let ownerId ← requireIdentifier ownerId "owner_id"
  let workId ← optionalIdentifier workId "work_id"
  let outcome ← normalizeOutcome (← normalizeReleaseOutcome args.outcome) args.requeue
  let idleReason ← optionalReason args.idleReason
  let idleDetails ← jsonObject args.idleDetails "idle_details"
  return ⟨gpuId, ownerId, workId, expectedClaimId, outcome, idleReason, idleDetails⟩

def request (args : ReleaseArgs F) : Checked (ReleaseRequest F) :=
  match args.claimOrGpu with
  | .inl claim => do
      require (args.ownerId.isNull = true ∨ args.ownerId.isStr claim.ownerId = true)
        (.value "owner_id differs from Claim")
      require (args.workId.isNull = true ∨ args.workId.isStr claim.workId = true) (.value "work_id differs from Claim")
      args.finish claim.gpuId (.str claim.ownerId) (.str claim.workId) (some claim.claimId)
  | .inr value => do
      let gpuId ← requireIdentifier value "gpu_id"
      args.finish gpuId.1 args.ownerId args.workId none

end ReleaseArgs

inductive Call (F : Type) [Numbers F] where
  | enqueue (args : EnqueueArgs F)
  | claim (gpuId ownerId : Json F)
  | release (args : ReleaseArgs F)
  | requestPreemption (gpuId requestedBy forWorkId reason : Json F)
  | recordIdle (gpuId reason ownerId workId details : Json F)
  | setSafetyHalt (reason gpuId : Json F)
  | clearSafetyHalt (gpuId : Json F)

/-- A call with its arguments checked. -/
inductive Request (F : Type) [Numbers F] where
  | enqueue (desired : WorkItem F)
  | claim (gpuId ownerId : Identifier)
  | release (request : ReleaseRequest F)
  | requestPreemption (gpuId requestedBy : Identifier) (forWorkId : Option Identifier) (reason : Identifier)
  | recordIdle (gpuId : Identifier) (reason : IdleReason) (ownerId workId : Option Identifier) (details : Payload F)
  | setSafetyHalt (reason : Identifier) (gpuId : Option Identifier)
  | clearSafetyHalt (gpuId : Option Identifier)

/-- The checks of the arguments, which are made before the lock is taken. -/
def Call.check : Call F → Checked (Request F)
  | .enqueue args => do return .enqueue (← args.desired)
  | .claim gpuId ownerId => do
      return .claim (← requireIdentifier gpuId "gpu_id") (← requireIdentifier ownerId "owner_id")
  | .release args => do return .release (← args.request)
  | .requestPreemption gpuId requestedBy forWorkId reason => do
      let gpuId ← requireIdentifier gpuId "gpu_id"
      let requestedBy ← requireIdentifier requestedBy "requested_by"
      let reason ← requireIdentifier reason "reason"
      return .requestPreemption gpuId requestedBy (← optionalIdentifier forWorkId "for_work_id") reason
  | .recordIdle gpuId reason ownerId workId details => do
      let gpuId ← requireIdentifier gpuId "gpu_id"
      let reason ← normalizeIdleReason reason
      let ownerId ← optionalIdentifier ownerId "owner_id"
      let workId ← optionalIdentifier workId "work_id"
      return .recordIdle gpuId reason ownerId workId (← jsonObject details "idle details")
  | .setSafetyHalt reason gpuId => do
      return .setSafetyHalt (← requireIdentifier reason "reason") (← optionalIdentifier gpuId "gpu_id")
  | .clearSafetyHalt gpuId => do return .clearSafetyHalt (← optionalIdentifier gpuId "gpu_id")

/-- What a call makes of the state that it loads. -/
def Request.apply (request : Request F) (clock : Nat → F) (s : State F) : Checked (Answer F × Option (State F)) :=
  match request with
  | .enqueue desired => s.enqueue desired
  | .claim gpuId ownerId => s.claim gpuId ownerId clock
  | .release request => s.release request clock
  | .requestPreemption gpuId requestedBy forWorkId reason => s.requestPreemption gpuId requestedBy forWorkId reason clock
  | .recordIdle gpuId reason ownerId workId details => s.recordIdleCall gpuId reason ownerId workId details clock
  | .setSafetyHalt reason gpuId => s.setSafetyHalt reason gpuId clock
  | .clearSafetyHalt gpuId => s.clearSafetyHalt gpuId

/-- A call at a time, on a disk that may fail. -/
structure Attempt (F : Type) [Numbers F] where
  call : Call F
  clock : Nat → F
  disk : Disk

namespace Attempt

def decide (attempt : Attempt F) (file : StateFile) : Checked (Answer F × Option (State F)) := do
  let request ← attempt.call.check
  let s ← loadState F file
  request.apply attempt.clock s

/-- What a call returns, and the file after it. -/
def run (attempt : Attempt F) (file : StateFile) : Checked (Answer F) × StateFile :=
  match attempt.decide file with
  | .error e => (.error e, file)
  | .ok (answer, none) => (.ok answer, file)
  | .ok (answer, some s) =>
      match commit attempt.disk file s with
      | (.ok _, file') => (.ok answer, file')
      | (.error e, file') => (.error e, file')

/-- The file after calls, one after the other under the lock of the state. -/
def runAll (file : StateFile) (attempts : List (Attempt F)) : StateFile :=
  attempts.foldl (fun file attempt => (attempt.run file).2) file

end Attempt

/-- The file of a scheduler that was opened for the first time. -/
def opened (F : Type) [Numbers F] (configured : Option {set : GpuSet // set.gpus ≠ []}) : StateFile :=
  match stateBytes (newState F configured) with
  | .ok data => .regular data
  | .error _ => .missing

/-- The state that a file holds, be it small enough to load or not. -/
def stored (F : Type) [Numbers F] (file : StateFile) : Checked (State F) :=
  match file with
  | .regular data => readState F data
  | _ => .error (.state "scheduler state is missing")

end KataGo.Scheduler
