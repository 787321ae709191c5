import KataGo.Lib.Strings
import Mathlib.Data.Rat.Defs
import Mathlib.Algebra.Order.Ring.Rat

/-! The lease of `python/risk_score/gpu_lease.py`: the identities of processes and checkpoints, the
persisted record and the runtime configuration. Times are exact. -/

namespace KataGo.Lease

structure ProcessIdentity where
  pid : Int
  startTimeTicks : Option Int
  processGroupId : Option Int
  bootId : Option String
  commandSha256 : Option String
  cgroup : Option String
  deriving DecidableEq, Repr

namespace ProcessIdentity

/-- `is_verifiable` -/
def isVerifiable (p : ProcessIdentity) : Bool :=
  p.startTimeTicks.isSome || (p.commandSha256.isSome && p.cgroup.isSome)

/-- `same_process_as`: what either side knows has to agree, and that has to be enough. -/
def sameProcessAs (p q : ProcessIdentity) : Bool :=
  p.pid = q.pid && p.bootId = q.bootId && p.startTimeTicks = q.startTimeTicks && p.processGroupId = q.processGroupId &&
    p.commandSha256 = q.commandSha256 && p.cgroup = q.cgroup && p.isVerifiable

end ProcessIdentity

structure CheckpointIdentity where
  device : Int
  inode : Int
  size : Int
  mtimeNs : Int
  sha256 : String
  deriving DecidableEq, Repr

namespace CheckpointIdentity

/-- `content_changed_from` -/
def contentChangedFrom (c before : CheckpointIdentity) : Bool := c.sha256 ≠ before.sha256

end CheckpointIdentity

structure LeaseRecord where
  leaseId : String
  ownerId : String
  phase : String
  expectedGpuUuid : String
  trainer : Option ProcessIdentity
  evaluators : List ProcessIdentity
  checkpointSha256 : Option String
  checkpointSize : Option Int
  safetyHalt : Bool
  safetyReason : Option String
  createdAt : ℚ
  updatedAt : ℚ
  preDrainCheckpoint : Option CheckpointIdentity
  handoffCheckpoint : Option CheckpointIdentity
  leaseCleanObservationTimes : List ℚ
  releaseCleanObservationTimes : List ℚ
  restorationStatus : String
  restoredTrainer : Option ProcessIdentity
  deriving DecidableEq, Repr

structure RuntimeConfig where
  runRoot : String
  promotionRoot : String
  leaseStatePath : String
  eventLogPath : String
  expectedGpuUuid : String
  gpuIndex : Nat
  cleanObservations : Nat
  cleanObservationIntervalSeconds : ℚ
  pollIntervalSeconds : { d : ℚ // 0 < d }
  trainerLaunchCommand : List String
  trainerGracefulCommand : List String
  trainerCheckpointPath : String
  trainerDrainTimeoutSeconds : ℚ
  trainerCheckpointTimeoutSeconds : ℚ
  trainerCheckpointStableSeconds : ℚ
  requireCheckpointChange : Bool
  trainerStartTimeoutSeconds : ℚ
  evaluatorDrainCommand : List String
  evaluatorDrainTimeoutSeconds : ℚ
  ownerId : String

/-- An error: those of the lease have a code. -/
structure Failure where
  code : Option String
  message : String
  deriving DecidableEq, Repr

/-- `GpuLeaseError` -/
def gpuLeaseError (code message : String) : Failure := ⟨some code, message⟩

structure GpuProcess where
  pid : Int
  processName : String
  usedMemoryMib : Option Int

structure GpuObservation where
  gpuUuid : String
  processes : List GpuProcess

structure CommandResult where
  returncode : Int
  stdout : String
  stderr : String

/-- `_validate_argv` -/
def validateArgv (argv : List String) (name : String) : Except Failure Unit :=
  if argv = [] ∨ "" ∈ argv then .error (gpuLeaseError "invalid_command" (name ++ " must be a non-empty argv sequence"))
  else .ok ()

def prohibited : List String := ["sigstop", "stop", "-stop", "-sigstop", "-19"]

/-- `_reject_sigstop` -/
def rejectSigstop (argv : List String) (name : String) : Except Failure Unit :=
  if argv.any fun part => String.ofList (Lib.lower (Lib.strip part.toList)) ∈ prohibited then
    .error (gpuLeaseError "sigstop_prohibited" (name ++ " must never use SIGSTOP"))
  else .ok ()

end KataGo.Lease
