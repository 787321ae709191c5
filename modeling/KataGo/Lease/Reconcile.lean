import KataGo.Lease.Handoff

/-! Reconciliation after a crash, and what its dry run reports. -/

namespace KataGo.Lease
open KataGo.Lib

variable {W : Type} [Host W] (config : RuntimeConfig)

/-- Which of the recorded processes are live. -/
structure Liveness where
  trainer : Bool
  restored : Bool
  evaluators : List ProcessIdentity

def liveness (record : LeaseRecord) (w : W) : Liveness where
  trainer := record.trainer.any (Host.isRunning w)
  restored := record.restoredTrainer.any (Host.isRunning w)
  evaluators := record.evaluators.filter (Host.isRunning w)

/-- `_planned_reconcile_actions` -/
def plannedReconcileActions (record : LeaseRecord) (w : W) : List String :=
  if record.safetyHalt then ["operator_clear_safety_halt"]
  else
    let trainerAlive := record.trainer.any (Host.isRunning w)
    let restoredAlive := record.restoredTrainer.any (Host.isRunning w)
    let evaluatorAlive := record.evaluators.any (Host.isRunning w)
    if (trainerAlive || restoredAlive) && evaluatorAlive then ["safety_halt_process_overlap"]
    else if record.phase = "restoring_trainer" && restoredAlive then ["complete_trainer_restoration"]
    else if record.phase = "draining_trainer" then
      if record.preDrainCheckpoint.isNone then ["safety_halt_missing_pre_drain_checkpoint"]
      else [if trainerAlive then "complete_trainer_drain" else "validate_checkpoint_handoff", "restore_trainer"]
    else if record.phase = "trainer_running" && trainerAlive then
      if record.evaluators = [] then [] else ["clear_stale_evaluator_identities"]
    else if record.handoffCheckpoint.isNone then ["safety_halt_missing_checkpoint_handoff"]
    else
      (if evaluatorAlive || !record.evaluators.isEmpty then ["drain_evaluators"] else []) ++
        if !trainerAlive && !restoredAlive then ["verify_release_gpu", "restore_trainer"] else []

abbrev Reconciled := List String × LeaseRecord

/-- The lease is halted, as the last of the actions. -/
def halt (record : LeaseRecord) (reason : String) (actions : List String) : Run W Reconciled := do
  let halted ← setSafetyHalt record reason
  return (actions, halted)

/-- A block of which every error halts the lease. -/
def orHalt {α : Type} (x : Run W α) (record : LeaseRecord) (reason : String) : Run W (α ⊕ LeaseRecord) :=
  Program.catch_ (do
    let a ← x
    return .inl a) fun failure => do
      let halted ← setSafetyHalt record (reason ++ failure.message)
      return .inr halted

/-- The last part: the GPU is clean and the trainer starts again. -/
def releaseAndRestore (record : LeaseRecord) (actions : List String) : Run W Reconciled := do
  match ← orHalt (requireCleanGpu config) record "reconcile trainer restoration failed: " with
  | .inr halted => return (actions ++ ["safety_halt_trainer_restore"], halted)
  | .inl releaseTimes =>
      let record ← replaceRecord record fun r =>
        { r with phase := "release_gpu_verified", releaseCleanObservationTimes := releaseTimes }
      let restoration := do
        let _ ← requireRecordedHandoffCheckpoint record
        restoreTrainer config record
      match ← orHalt restoration record "reconcile trainer restoration failed: " with
      | .inr halted => return (actions ++ ["safety_halt_trainer_restore"], halted)
      | .inl restored => return (actions ++ ["restored_trainer"], restored)

/-- The trainer may only be started where none is live. -/
def restoreUnlessLive (record : LeaseRecord) (trainerLive : Bool) (actions : List String) : Run W Reconciled :=
  if trainerLive then
    halt record "unexpected live trainer during incomplete handoff" (actions ++ ["safety_halt_unexpected_trainer"])
  else releaseAndRestore config record actions

/-- What follows once the checkpoint of the handoff is known. -/
def finishHandoff (record : LeaseRecord) (trainerLive : Bool) (actions : List String) : Run W Reconciled :=
  if record.evaluators = [] then restoreUnlessLive config record trainerLive actions
  else do
    let record ← replaceRecord record fun r => { r with phase := "draining_evaluators" }
    match ← orHalt (drainEvaluators config record) record "reconcile evaluator drain failed: " with
    | .inr halted => return (actions ++ ["safety_halt_evaluator_drain"], halted)
    | .inl record => restoreUnlessLive config record trainerLive (actions ++ ["drained_evaluators"])

/-- A restoration that had come as far as a live trainer. -/
def completeRestoration (record : LeaseRecord) : Run W Reconciled :=
  if record.handoffCheckpoint.isNone then
    halt record "restored trainer is live without checkpoint handoff proof" ["safety_halt_missing_checkpoint_handoff"]
  else do
    let record ← replaceRecord record fun r =>
      { r with
        phase := "trainer_running"
        trainer := r.restoredTrainer
        restorationStatus := "restored"
        evaluators := []
        ownerId := config.ownerId }
    return (["completed_trainer_restoration"], record)

def clearStaleEvaluators (record : LeaseRecord) : Run W Reconciled :=
  if record.evaluators = [] then pure ([], record)
  else do
    let record ← replaceRecord record fun r => { r with evaluators := [], ownerId := config.ownerId }
    return (["cleared_stale_evaluator_identities"], record)

/-- `_reconcile_locked` -/
def reconcileLocked (record : LeaseRecord) : Run W Reconciled := do
  Program.perform (.activate record)
  if record.expectedGpuUuid ≠ config.expectedGpuUuid then
    halt record "lease GPU UUID differs from runtime configuration" ["safety_halt_gpu_uuid_mismatch"]
  else if record.safetyHalt then return ([], record)
  else
    let live ← Run.observe (liveness record)
    if (live.trainer || live.restored) && !live.evaluators.isEmpty then
      halt record "trainer and evaluator identities are both live" ["safety_halt_process_overlap"]
    else if record.phase = "restoring_trainer" && live.restored then completeRestoration config record
    else if record.phase = "trainer_running" && live.trainer then clearStaleEvaluators config record
    else if record.phase = "draining_trainer" then
      match ← orHalt (completeTrainerDrain config record live.trainer) record
          "reconcile checkpoint handoff validation failed: " with
      | .inr halted => return (["safety_halt_checkpoint_handoff"], halted)
      | .inl record => finishHandoff config record live.restored ["validated_trainer_checkpoint_handoff"]
    else if record.handoffCheckpoint.isNone then
      halt record "reconcile refused restore without checkpoint handoff proof" ["safety_halt_missing_checkpoint_handoff"]
    else finishHandoff config record (live.trainer || live.restored) []

end KataGo.Lease
