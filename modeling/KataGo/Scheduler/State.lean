import KataGo.Lib.Sha256
import KataGo.Lib.Utf8
import KataGo.Scheduler.Work

/-! The state of the scheduler: how it is sealed, checked, written to its file and loaded. -/

namespace KataGo.Scheduler
open KataGo.Lib

def schemaVersion : Int := 1
def maxStateBytes : Nat := 64 * 1024 * 1024

structure State (F : Type) [Numbers F] where
  revision : Nat
  nextSequence : Nat
  dynamicGpus : Bool
  gpuIds : GpuSet
  work : Dict Identifier (WorkRecord F)
  claims : Dict Identifier (Claim F)
  preemptionRequests : Dict Identifier (PreemptionRequest F)
  idleEvents : List (IdleEvent F)
  idle : Dict Identifier Identifier
  safetyHalt : Option (Halt F)
  gpuSafetyHalts : Dict Identifier (Option (Halt F))

section Text

variable {F : Type} [Numbers F]

def canonicalJsonBytes (value : Json F) : Checked ByteArray :=
  match Json.canonical value with
  | some text => .ok (Utf8.encode text)
  | none => .error (.value "value is not canonical-JSON compatible")

def canonicalSha256 (value : Json F) : Checked String := do
  return String.ofList (Sha256.hexDigest (← canonicalJsonBytes value).data.toList)

def dictJson {ν : Type} (encode : ν → Json F) (d : Dict Identifier ν) : Json F :=
  .obj (d.entries.map fun entry => (entry.1.1, encode entry.2))

namespace State

/-- The fields of the state without its hash. -/
def body (s : State F) : List (String × Json F) :=
  [("schema_version", .int schemaVersion), ("revision", .int s.revision), ("next_sequence", .int s.nextSequence),
    ("dynamic_gpus", .bool s.dynamicGpus), ("gpu_ids", .arr (s.gpuIds.gpus.map identifierJson)),
    ("work", dictJson (fun record => .obj record.toDict) s.work),
    ("claims", dictJson (fun claim => .obj claim.toDict) s.claims),
    ("preemption_requests", dictJson (fun request => .obj request.toDict) s.preemptionRequests),
    ("idle_events", .arr (s.idleEvents.map fun event => .obj event.toDict)),
    ("idle", dictJson identifierJson s.idle), ("safety_halt", Halt.optionJson s.safetyHalt),
    ("gpu_safety_halts", dictJson Halt.optionJson s.gpuSafetyHalts)]

/-- The numbers that were given out to what the state still knows of. -/
def sequences (s : State F) : List Nat :=
  s.work.values.flatMap (fun record => record.enqueueSequence :: (record.lastRelease.toList.map (·.sequence))) ++
    s.claims.values.map (·.sequence) ++ s.preemptionRequests.values.map (·.sequence) ++ s.idleEvents.map (·.sequence)

end State

section Validation

/-- The entries of an object, each with its key as the scheduler knows it. -/
def objectOf (value : Json F) (field : String) : Checked (List (String × Json F)) :=
  match value with
  | .obj fields => .ok fields
  | _ => .error (.state s!"{field} must be an object")

def readGpuIds (value : Json F) : Checked GpuSet :=
  match value with
  | .arr items => do
      let gpus ← (items.mapM fun item => requireIdentifier item "gpu_id").mapError fun error => .state error.text
      if ordered : gpus.Pairwise (· < ·) then return ⟨gpus, ordered⟩
      else .error (.state "gpu_ids must be sorted and unique")
  | _ => .error (.state "gpu_ids must be an array")

def checkVersion (value : Json F) : Checked Unit :=
  match value with
  | .int n => require (n = schemaVersion) (.state "unsupported scheduler state schema")
  | .float x => require (NumberEq.sameInt x schemaVersion = true) (.state "unsupported scheduler state schema")
  | _ => .error (.state "unsupported scheduler state schema")

def checkHash (fields : List (String × Json F)) : Checked Unit := do
  let expected ← canonicalSha256 (.obj (fields.filter fun field => field.1 ≠ "state_sha256"))
  require ((Json.get fields "state_sha256").isStr expected = true) (.state "scheduler state hash mismatch")

/-- The registered GPU of a name. -/
def registered (gpuIds : GpuSet) (name : String) : Option Identifier := gpuIds.gpus.find? fun gpu => gpu.1 = name

def readRecord (gpuIds : GpuSet) (records : Dict Identifier (WorkRecord F)) (entry : String × Json F) :
    Checked (Dict Identifier (WorkRecord F)) := do
  let record ← WorkRecord.fromDict entry.2
  require (entry.1 = record.item.workId.1) (.state "work map key differs from work_id")
  require (∀ gpus ∈ record.item.eligibleGpus, ∀ gpu ∈ gpus.gpus, gpu ∈ gpuIds.gpus)
    (.state "work names an unregistered eligible GPU")
  require (∀ gpu ∈ record.item.preferredGpu, gpu ∈ gpuIds.gpus) (.state "work names an unregistered preferred GPU")
  return records.set record.item.workId record

def readClaim (gpuIds : GpuSet) (records : Dict Identifier (WorkRecord F)) (claims : Dict Identifier (Claim F))
    (entry : String × Json F) : Checked (Dict Identifier (Claim F)) := do
  let claim ← Claim.fromDict entry.2
  require (entry.1 = claim.gpuId.1 ∧ claim.gpuId ∈ gpuIds.gpus) (.state "claim GPU is unregistered or mismatched")
  require (claim.claimId ∉ claims.values.map (·.claimId) ∧ claim.workId ∉ claims.values.map (·.workId))
    (.state "claim identity or claimed work is duplicated")
  require (∃ record ∈ records.get claim.workId, record.state = .claimed ∧ record.activeClaimId = some claim.claimId ∧
    record.item.isEligible claim.gpuId = true) (.state "claim contradicts its work record")
  return claims.set claim.gpuId claim

def claimOf (claims : Dict Identifier (Claim F)) (workId : Identifier) : Option (Claim F) :=
  claims.values.find? fun claim => claim.workId = workId

def checkClaimed (claims : Dict Identifier (Claim F)) (record : WorkRecord F) : Checked Unit :=
  if record.state = .claimed then
    require (∃ claim ∈ claimOf claims record.item.workId, record.activeClaimId = some claim.claimId)
      (.state "claimed work has no matching GPU claim")
  else require (record.activeClaimId = none ∧ (claimOf claims record.item.workId).isNone)
    (.state "unclaimed work retains an active claim")

def readRequest (gpuIds : GpuSet) (records : Dict Identifier (WorkRecord F)) (claims : Dict Identifier (Claim F))
    (requests : Dict Identifier (PreemptionRequest F)) (entry : String × Json F) :
    Checked (Dict Identifier (PreemptionRequest F)) := do
  let request ← PreemptionRequest.fromDict entry.2
  require (entry.1 = request.requestId.1 ∧ request.gpuId ∈ gpuIds.gpus)
    (.state "preemption request key or GPU mismatches")
  require ((records.get request.runningWorkId).isSome ∧ (records.get request.requestedForWorkId).isSome)
    (.state "preemption request names unknown work")
  require (request.status = .pending → ∃ claim ∈ claims.get request.gpuId, claim.claimId = request.claimId ∧
    claim.workId = request.runningWorkId ∧ ∃ record ∈ records.get request.runningWorkId, record.item.preemptible = true)
    (.state "pending preemption request has no preemptible active claim")
  return requests.set request.requestId request

def lastSequence (events : List (IdleEvent F)) : Nat := (events.getLast?.map (·.sequence)).getD 0

def readEvent (gpuIds : GpuSet) (events : List (IdleEvent F)) (value : Json F) : Checked (List (IdleEvent F)) := do
  let event ← IdleEvent.fromDict value
  require (event.gpuId ∈ gpuIds.gpus ∧ event.eventId ∉ events.map (·.eventId))
    (.state "idle event GPU or identity is invalid")
  require (lastSequence events < event.sequence) (.state "idle event history is not ordered")
  return events ++ [event]

def readIdle (gpuIds : GpuSet) (events : List (IdleEvent F)) (idle : Dict Identifier Identifier)
    (entry : String × Json F) : Checked (Dict Identifier Identifier) :=
  match registered gpuIds entry.1, entry.2 with
  | some gpu, .str name =>
      match events.find? fun event => event.eventId.1 = name with
      | some event =>
          if event.gpuId = gpu then .ok (idle.set gpu event.eventId)
          else .error (.state "current idle index names the wrong event")
      | none => .error (.state "current idle index names the wrong event")
  | _, _ => .error (.state "current idle index is invalid")

def readGpuHalt (gpuIds : GpuSet) (halts : Dict Identifier (Option (Halt F))) (entry : String × Json F) :
    Checked (Dict Identifier (Option (Halt F))) :=
  match registered gpuIds entry.1 with
  | some gpu => do return halts.set gpu (← Halt.validateHalt entry.2 "gpu_safety_halt")
  | none => .error (.state "GPU safety halt names unknown GPU")

def arrayOf (value : Json F) : Checked (List (Json F)) :=
  match value with
  | .arr items => .ok items
  | _ => .error (.state "idle_events must be an array")

def stateFields : List String :=
  ["schema_version", "revision", "next_sequence", "dynamic_gpus", "gpu_ids", "work", "claims", "preemption_requests",
    "idle_events", "idle", "safety_halt", "gpu_safety_halts", "state_sha256"]

/-- Check the fields of a state, and what they refer to among each other. -/
def validateState (value : List (String × Json F)) : Checked (State F) := do
  let fields ← fieldsOf stateFields (.state "scheduler state fields differ from schema") (.obj value)
  checkVersion (Json.get fields "schema_version")
  let revision ← requireNonnegativeInt (Json.get fields "revision") "revision"
  let nextSequence ← requirePositiveInt (Json.get fields "next_sequence") "next_sequence"
  let dynamicGpus ← requireBool (Json.get fields "dynamic_gpus") (.state "dynamic_gpus must be boolean")
  let gpuIds ← readGpuIds (Json.get fields "gpu_ids")
  checkHash fields
  let rawWork ← objectOf (Json.get fields "work") "work"
  let rawClaims ← objectOf (Json.get fields "claims") "claims"
  let rawRequests ← objectOf (Json.get fields "preemption_requests") "preemption_requests"
  let rawIdle ← objectOf (Json.get fields "idle") "idle"
  let rawHalts ← objectOf (Json.get fields "gpu_safety_halts") "gpu_safety_halts"
  let rawEvents ← arrayOf (Json.get fields "idle_events")
  let work ← rawWork.foldlM (readRecord gpuIds) Dict.empty
  let claims ← rawClaims.foldlM (readClaim gpuIds work) Dict.empty
  work.values.forM (checkClaimed claims)
  let requests ← rawRequests.foldlM (readRequest gpuIds work claims) Dict.empty
  let events ← rawEvents.foldlM (readEvent gpuIds) []
  let idle ← rawIdle.foldlM (readIdle gpuIds events) Dict.empty
  let safetyHalt ← Halt.validateHalt (Json.get fields "safety_halt") "safety_halt"
  let gpuSafetyHalts ← rawHalts.foldlM (readGpuHalt gpuIds) Dict.empty
  let state : State F := {
    revision := revision
    nextSequence := nextSequence
    dynamicGpus := dynamicGpus
    gpuIds := gpuIds
    work := work
    claims := claims
    preemptionRequests := requests
    idleEvents := events
    idle := idle
    safetyHalt := safetyHalt
    gpuSafetyHalts := gpuSafetyHalts }
  require (state.sequences.foldl max 0 < nextSequence)
    (.state "next_sequence does not exceed all allocated sequences")
  return state

end Validation

section Files

/-- What stands at the path of the state. -/
inductive StateFile where
  | missing
  | special
  | regular (data : ByteArray)

/-- What becomes of a write: it fails before the file is in place, or the directory cannot be
synced after it is. -/
inductive Disk where
  | sound | failsBefore | failsAfter
  deriving DecidableEq

def decodeState (data : ByteArray) : Checked (List (String × Json F)) :=
  match (Utf8.decode data).bind (Json.loads uniqueHooks) with
  | some (.obj fields) => .ok fields
  | some _ => .error (.state "scheduler state root must be an object")
  | none => .error (.state "cannot decode scheduler state")

/-- The state that the bytes of a file stand for. -/
def readState (F : Type) [Numbers F] (data : ByteArray) : Checked (State F) := do
  let fields : List (String × Json F) ← decodeState data
  let canonical ← canonicalJsonBytes (.obj fields)
  require (data = canonical ++ Utf8.encode ['\n']) (.state "scheduler state is not canonical newline-terminated JSON")
  validateState fields

def loadState (F : Type) [Numbers F] (file : StateFile) : Checked (State F) :=
  match file with
  | .missing => .error (.state "scheduler state is missing")
  | .special => .error (.state "scheduler state must be a regular non-symlink file")
  | .regular data => do
      require (data.size ≤ maxStateBytes) (.state "scheduler state exceeds the size limit")
      readState F data

/-- The state read back from its canonical text, with its hash. -/
def sealState (fields : List (String × Json F)) : Checked (List (String × Json F)) := do
  let encoded ← canonicalJsonBytes (.obj fields)
  match (Utf8.decode encoded).bind (Json.loads (plainHooks : Json.Hooks F)) with
  | some (.obj body) => do
      let hash ← canonicalSha256 (.obj body)
      return body ++ [("state_sha256", Json.str hash)]
  | _ => .error (.value "state is not an object")

def atomicWriteJson (disk : Disk) (file : StateFile) (data : ByteArray) : Checked Unit × StateFile :=
  match disk with
  | .sound => (.ok (), .regular data)
  | .failsBefore => (.error ⟨.osError, "write failed"⟩, file)
  | .failsAfter => (.error ⟨.osError, "directory sync failed"⟩, .regular data)

/-- The bytes that a state is written as, once it is sealed and checked. -/
def stateBytes (s : State F) : Checked ByteArray := do
  let fields ← sealState s.body
  let _ ← validateState fields
  return (← canonicalJsonBytes (.obj fields)) ++ Utf8.encode ['\n']

def commit (disk : Disk) (file : StateFile) (s : State F) : Checked Unit × StateFile :=
  match stateBytes { s with revision := s.revision + 1 } with
  | .error e => (.error e, file)
  | .ok data => atomicWriteJson disk file data

/-- The state of a scheduler that is opened for the first time. -/
def newState (F : Type) [Numbers F] (configured : Option {set : GpuSet // set.gpus ≠ []}) : State F where
  revision := 0
  nextSequence := 1
  dynamicGpus := configured.isNone
  gpuIds := (configured.map Subtype.val).getD .empty
  work := .empty
  claims := .empty
  preemptionRequests := .empty
  idleEvents := []
  idle := .empty
  safetyHalt := none
  gpuSafetyHalts := .empty

end Files
end Text
end KataGo.Scheduler
