import KataGo.Lease.Host

/-! The steps of a handoff between the trainer and the evaluators in `python/risk_score/gpu_lease.py`. -/

namespace KataGo.Lease
open KataGo.Lib

variable {W : Type} [Host W] (config : RuntimeConfig)

def emit (event : String) (record : Option LeaseRecord) : Run W Unit := Program.perform (.emit event record)

/-- `_replace_record` -/
def replaceRecord (record : LeaseRecord) (change : LeaseRecord → LeaseRecord) : Run W LeaseRecord := do
  let now ← Run.observe Host.clock
  let updated := { change record with updatedAt := now }
  Program.perform (.activate updated)
  Program.perform (.save updated)
  return updated

/-- `_set_safety_halt` -/
def setSafetyHalt (record : LeaseRecord) (reason : String) : Run W LeaseRecord := do
  let updated ← replaceRecord record fun r =>
    { r with phase := "safety_halt", safetyHalt := true, safetyReason := some reason, restorationStatus := "safety_halt" }
  emit "safety_halt" (some updated)
  return updated

/-- The values of the placeholders of a command. -/
def placeholders (record : Option LeaseRecord) (identity : Option ProcessIdentity) (workerIndex : Nat) :
    List (String × String) :=
  [("run_root", config.runRoot), ("promotion_root", config.promotionRoot), ("lease_state", config.leaseStatePath),
    ("event_log", config.eventLogPath), ("checkpoint_path", config.trainerCheckpointPath),
    ("gpu_uuid", config.expectedGpuUuid), ("gpu_index", toString config.gpuIndex),
    ("worker_index", toString workerIndex), ("lease_id", (record.map LeaseRecord.leaseId).getD ""),
    ("owner_id", config.ownerId), ("pid", (identity.map fun p => toString p.pid).getD ""),
    ("process_group_id", ((identity.bind ProcessIdentity.processGroupId).map toString).getD ""),
    ("checkpoint_sha256", (record.bind LeaseRecord.checkpointSha256).getD "")]

/-- `_expand` -/
def expand (template : List String) (record : Option LeaseRecord) (identity : Option ProcessIdentity) (workerIndex : Nat) :
    Run W (List String) :=
  Program.lift do
    let argv ← template.mapM fun part => Host.formatMap (W := W) part (placeholders config record identity workerIndex)
    validateArgv argv "expanded command"
    rejectSigstop argv "expanded command"
    return argv

/-- Whether the process of an identity has been replaced by another one with its number. -/
def identityReused (identity : ProcessIdentity) (w : W) : Bool :=
  (Host.currentIdentity w identity.pid).any fun current => !identity.sameProcessAs current

/-- `_require_identity_alive` -/
def requireIdentityAlive (identity : ProcessIdentity) (processRole : String) : Run W Unit := do
  let current ← Run.observe fun w => Host.currentIdentity w identity.pid
  if !identity.isVerifiable then
    Program.raise (gpuLeaseError "unverifiable_process_identity" (processRole ++ " identity cannot distinguish PID reuse"))
  else if current.all fun current => !identity.sameProcessAs current then
    Program.raise (gpuLeaseError "process_identity_changed" (processRole ++ " PID is absent or has been reused"))
  else return ()

/-- A command that fails unless it returns zero. -/
def runCommand (argv : List String) (timeout : ℚ) (failure : Failure) : Run W Unit := do
  let result ← Run.run argv timeout
  if result.returncode ≠ 0 then Program.raise failure else return ()

/-- `_request_trainer_drain` -/
def requestTrainerDrain (identity : ProcessIdentity) : Run W Unit := do
  requireIdentityAlive identity "trainer"
  if config.trainerGracefulCommand = [] then Run.signalProcessGroup identity
  else
    let m ← Program.read
    let argv ← expand config config.trainerGracefulCommand m.activeRecord (some identity) 0
    runCommand argv config.trainerDrainTimeoutSeconds
      (gpuLeaseError "trainer_graceful_command_failed" "Trainer graceful-drain command failed")

/-- `_wait_for_exit` -/
def waitForExit (identity : ProcessIdentity) (timeout : ℚ) (code : String) : Run W Unit := do
  let now ← Run.observe Host.clock
  Program.poll (hostClock (some identity)) config.pollIntervalSeconds (now + timeout)
    (gpuLeaseError code "Process group did not exit before its deadline")
    (fun _ m =>
      if identityReused identity m.world || (!Host.isRunning m.world identity && !Host.processGroupAlive m.world identity)
      then .inr () else .inl ()) ()

/-- The variables of the loop that waits for a checkpoint. -/
structure Stability where
  stableSince : Option ℚ
  previous : Option (Int × Int)

/-- One look at the checkpoint file. -/
def lookAtCheckpoint (before : Option CheckpointIdentity) (requireChange : Bool) (t : Stability) (w : W) :
    Stability ⊕ CheckpointIdentity :=
  match Host.checkpointStat w with
  | none => .inl t
  | some current =>
      let t := if some current = t.previous then t else ⟨some (Host.clock w), some current⟩
      if t.stableSince.any fun since => config.trainerCheckpointStableSeconds ≤ Host.clock w - since then
        match Host.stableCheckpointIdentity w with
        | some identity =>
            if before.all fun before => !requireChange || identity.contentChangedFrom before then .inr identity else .inl t
        | none => .inl t
      else .inl t

/-- `_wait_for_checkpoint_identity` -/
def waitForCheckpointIdentity (before : Option CheckpointIdentity) (requireChange : Bool) : Run W CheckpointIdentity := do
  let now ← Run.observe Host.clock
  Program.poll (hostClock none) config.pollIntervalSeconds (now + config.trainerCheckpointTimeoutSeconds)
    (gpuLeaseError "trainer_checkpoint_timeout" "Trainer exited without a complete checkpoint handoff")
    (fun t m => lookAtCheckpoint config before requireChange t m.world) ⟨none, none⟩

/-- What is done about the trainer before its exit is awaited. -/
def stopTrainer (identity : ProcessIdentity) (issueCommand : Bool) : Run W Unit := do
  let w ← Run.observe id
  if Host.isRunning w identity then
    if issueCommand then requestTrainerDrain config identity
    else Program.raise (gpuLeaseError "trainer_still_running" "Cannot validate a completed handoff while trainer is live")
  else if issueCommand && !identityReused identity w && Host.processGroupAlive w identity then
    Program.raise (gpuLeaseError "unverifiable_trainer_process_group"
      "Trainer PID is gone but its process group is still live")
  else return ()

def awaitTrainer (identity : ProcessIdentity) : Run W Unit := do
  let w ← Run.observe id
  if Host.isRunning w identity || (!identityReused identity w && Host.processGroupAlive w identity) then
    waitForExit config identity config.trainerDrainTimeoutSeconds "trainer_drain_timeout"
  else return ()

/-- `_complete_trainer_drain` -/
def completeTrainerDrain (record : LeaseRecord) (issueCommand : Bool) : Run W LeaseRecord :=
  match record.trainer, record.preDrainCheckpoint with
  | some identity, some before => do
      stopTrainer config identity issueCommand
      awaitTrainer config identity
      let handoff ← waitForCheckpointIdentity config (some before) config.requireCheckpointChange
      let record ← replaceRecord record fun r =>
        { r with
          phase := "trainer_drained"
          checkpointSha256 := some handoff.sha256
          checkpointSize := some handoff.size
          handoffCheckpoint := some handoff
          restorationStatus := "pending" }
      emit "trainer_drained" (some record)
      return record
  | _, _ => Program.raise (gpuLeaseError "missing_pre_drain_checkpoint"
      "Drain state lacks trainer or pre-drain checkpoint proof")

/-- `_require_recorded_handoff_checkpoint` -/
def requireRecordedHandoffCheckpoint (record : LeaseRecord) : Run W CheckpointIdentity := do
  let observed ← Run.observe Host.stableCheckpointIdentity
  match record.handoffCheckpoint with
  | none => Program.raise (gpuLeaseError "missing_handoff_checkpoint"
      "Refusing trainer restore without handoff checkpoint proof")
  | some expected =>
      if observed = some expected then return expected
      else Program.raise (gpuLeaseError "handoff_checkpoint_changed"
        "Trainer checkpoint no longer matches the validated handoff")

/-- How one live evaluator is told to drain. -/
def requestEvaluatorDrain (record : LeaseRecord) (identity : ProcessIdentity) (workerIndex : Nat) : Run W Unit :=
  if config.evaluatorDrainCommand = [] then Run.signalProcessGroup identity
  else do
    let argv ← expand config config.evaluatorDrainCommand (some record) (some identity) workerIndex
    runCommand argv config.evaluatorDrainTimeoutSeconds
      (gpuLeaseError "evaluator_drain_command_failed" "Evaluator drain command failed")

def awaitEvaluator (identity : ProcessIdentity) : Run W Unit := do
  let w ← Run.observe id
  if Host.isRunning w identity || Host.processGroupAlive w identity then
    waitForExit config identity config.evaluatorDrainTimeoutSeconds "evaluator_drain_timeout"
  else return ()

/-- `_drain_evaluators` -/
def drainEvaluators (record : LeaseRecord) : Run W LeaseRecord := do
  let w ← Run.observe id
  let live := record.evaluators.zipIdx.filter fun entry => Host.isRunning w entry.1
  live.forM fun entry => requestEvaluatorDrain config record entry.1 entry.2
  live.forM fun entry => awaitEvaluator config entry.1
  let record ← replaceRecord record fun r =>
    { r with phase := if r.safetyHalt then "safety_halt" else "evaluator_drained", evaluators := [] }
  emit "evaluators_drained" (some record)
  return record

/-- One observation of a GPU without processes. -/
def observeCleanGpu : Run W ℚ := do
  let m ← Program.read
  match Host.gpuProbe m.world with
  | .error failure =>
      if failure.code.isSome then Program.raise failure
      else Program.raise (gpuLeaseError "gpu_probe_failed" ("GPU probe failed: " ++ failure.message))
  | .ok observation =>
      if observation.gpuUuid ≠ config.expectedGpuUuid then
        Program.raise (gpuLeaseError "gpu_uuid_mismatch" "GPU observation did not identify the configured UUID")
      else if !observation.processes.isEmpty then
        Program.raise (gpuLeaseError "foreign_gpu_process" "GPU is not clean; refusing exclusive lease handoff")
      else do
        emit "gpu_clean_observation" m.activeRecord
        return Host.clock m.world

/-- The pause between two observations. -/
def pauseBefore (remaining : Nat) : Run W Unit :=
  if remaining = 0 then pure () else Program.perform (.sleep none config.cleanObservationIntervalSeconds)

/-- The observations that are left to be made. -/
def cleanObservationTimes : Nat → Run W (List ℚ)
  | 0 => pure []
  | remaining + 1 => do
      let observedAt ← observeCleanGpu config
      pauseBefore config remaining
      let rest ← cleanObservationTimes remaining
      return observedAt :: rest

/-- `_require_clean_gpu` -/
def requireCleanGpu : Run W (List ℚ) := cleanObservationTimes config config.cleanObservations

/-- The loop that waits until the restarted trainer runs. -/
def awaitStart (identity : ProcessIdentity) : Run W Unit := do
  let now ← Run.observe Host.clock
  Program.poll (hostClock (some identity)) config.pollIntervalSeconds (now + config.trainerStartTimeoutSeconds)
    (gpuLeaseError "trainer_restart_failed" "Restarted trainer did not remain alive")
    (fun _ m => if Host.isRunning m.world identity then .inr () else .inl ()) ()

/-- `_restore_trainer` -/
def restoreTrainer (record : LeaseRecord) : Run W LeaseRecord := do
  let _ ← requireRecordedHandoffCheckpoint record
  let record ← replaceRecord record fun r =>
    { r with phase := "restoring_trainer", evaluators := [], ownerId := config.ownerId, restorationStatus := "pending" }
  let argv ← expand config config.trainerLaunchCommand (some record) record.trainer 0
  let identity ← Run.spawn argv
  let record ← replaceRecord record fun r => { r with restoredTrainer := some identity, restorationStatus := "started" }
  awaitStart config identity
  let record ← replaceRecord record fun r =>
    { r with
      phase := "trainer_running"
      trainer := some identity
      evaluators := []
      safetyHalt := false
      safetyReason := none
      restorationStatus := "restored"
      restoredTrainer := some identity }
  emit "trainer_restored" (some record)
  return record

end KataGo.Lease
