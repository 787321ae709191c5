import KataGo.Lib.JsonEq
import KataGo.Lib.JsonObject
import KataGo.Lib.Replay
import KataGo.Lib.Strings

/-! What the scheduler keeps records of: work items, claims, releases, preemption requests and
idle events, how each is written as a JSON object and how it is read back. -/

namespace KataGo.Scheduler
open KataGo.Lib

/-- What the scheduler takes from its runtime besides the text and the equality of numbers:
`float` of a value. -/
class Numbers (F : Type) extends NumberText F, NumberEq F where
  toFloat : Json F → Option F
  toFloat_float : ∀ x : F, toFloat (.float x) = some x

inductive ErrorKind where
  | valueError | typeError | keyError | schedulerError | stateError | conflictError | unknownGpu | gpuBusy
  | noActiveClaim | osError
  deriving DecidableEq

structure SchedulerError where
  kind : ErrorKind
  text : String
  deriving DecidableEq

namespace SchedulerError

def value (text : String) : SchedulerError := ⟨.valueError, text⟩
def state (text : String) : SchedulerError := ⟨.stateError, text⟩
def conflict (text : String) : SchedulerError := ⟨.conflictError, text⟩

end SchedulerError

abbrev Checked (α : Type) : Type := Except SchedulerError α

/-- The errors of a check, raised as errors of the state with a label. -/
def labelled {α : Type} (label : String) (check : Checked α) : Checked α :=
  check.mapError fun error => .state s!"{label}: {error.text}"

theorem labelled_eq_ok {α : Type} {label : String} {check : Checked α} {a : α} :
    labelled label check = .ok a ↔ check = .ok a := by
  cases check with
  | error e => simp [labelled, Except.mapError]
  | ok a' => simp [labelled, Except.mapError]

section Fields

variable {F : Type}

def isIdentifier (s : String) : Bool :=
  strip s.toList ≠ [] ∧ strip s.toList = s.toList ∧ Char.ofNat 0 ∉ s.toList

abbrev Identifier : Type := {s : String // isIdentifier s = true}

instance lawfulIdentifier : LawfulBEq Identifier := inferInstance

def requireIdentifier (value : Json F) (field : String) : Checked Identifier :=
  match value with
  | .str s =>
      if strip s.toList = [] then .error (.value s!"{field} must be a non-empty string")
      else if strip s.toList ≠ s.toList then .error (.value s!"{field} may not have surrounding whitespace")
      else if identifier : isIdentifier s = true then .ok ⟨s, identifier⟩
      else .error (.value s!"{field} may not contain NUL")
  | _ => .error (.value s!"{field} must be a non-empty string")

/-- An identifier that may be missing. -/
def optionalIdentifier (value : Json F) (field : String) : Checked (Option Identifier) :=
  if value.isNull then .ok none else do return some (← requireIdentifier value field)

def requirePositiveInt (value : Json F) (field : String) : Checked Nat :=
  match value with
  | .int n => if n < 1 then .error (.value s!"{field} must be a positive integer") else .ok n.toNat
  | _ => .error (.value s!"{field} must be a positive integer")

def requireNonnegativeInt (value : Json F) (field : String) : Checked Nat :=
  match value with
  | .int n => if n < 0 then .error (.value s!"{field} must be a nonnegative integer") else .ok n.toNat
  | _ => .error (.value s!"{field} must be a nonnegative integer")

def requireBool (value : Json F) (error : SchedulerError) : Checked Bool :=
  match value with
  | .bool b => .ok b
  | _ => .error error

/-- The fields of an object with exactly these names. -/
def fieldsOf (names : List String) (error : SchedulerError) (value : Json F) : Checked (List (String × Json F)) :=
  match value with
  | .obj fields =>
      if (∀ name ∈ names, name ∈ fields.map Prod.fst) ∧ ∀ name ∈ fields.map Prod.fst, name ∈ names then .ok fields
      else .error error
  | _ => .error error

def identifierJson (id : Identifier) : Json F := .str id.1

def optionalJson : Option Identifier → Json F
  | none => .null
  | some id => .str id.1

end Fields

section Kinds

variable {F : Type}

inductive WorkKind where
  | recovery | promotionConfirmation | promotionCanary | screening | curation | trainer | selfPlay | backfill
  deriving DecidableEq

def WorkKind.value : WorkKind → String
  | recovery => "recovery"
  | promotionConfirmation => "promotion-confirmation"
  | promotionCanary => "promotion-canary"
  | screening => "screening"
  | curation => "curation"
  | trainer => "trainer"
  | selfPlay => "self-play"
  | backfill => "backfill"

/-- Confirmation and canary share the tier of what promotion waits for. -/
def priorityTiers : List (List WorkKind) :=
  [[.recovery], [.promotionConfirmation, .promotionCanary], [.screening], [.curation], [.trainer], [.selfPlay],
    [.backfill]]

def priorityOrder : List WorkKind := priorityTiers.flatten

def priorityRank (kind : WorkKind) : Nat := priorityTiers.findIdx fun tier => kind ∈ tier

def prioritySubrank (kind : WorkKind) : Nat :=
  ((priorityTiers.find? fun tier => kind ∈ tier).getD []).findIdx fun other => other = kind

/-- Whether a kind goes before another: by its tier, then by its place in the tier. -/
def classBefore (kind other : WorkKind) : Bool :=
  priorityRank kind < priorityRank other ∨
    priorityRank kind = priorityRank other ∧ prioritySubrank kind < prioritySubrank other

def workKindAliases : List (String × WorkKind) :=
  [("confirmation", .promotionConfirmation), ("promotion-confirmation", .promotionConfirmation),
    ("promotion_confirmation", .promotionConfirmation), ("canary", .promotionCanary),
    ("promotion-canary", .promotionCanary), ("promotion_canary", .promotionCanary), ("selfplay", .selfPlay),
    ("self-play", .selfPlay), ("self_play", .selfPlay)]

def normalizeWorkKind (value : Json F) : Checked WorkKind :=
  match value with
  | .str s =>
      let normalized := lower (strip s.toList)
      match workKindAliases.lookup (String.ofList normalized) with
      | some kind => .ok kind
      | none =>
          match priorityOrder.find? fun kind => kind.value = String.ofList (dashed normalized) with
          | some kind => .ok kind
          | none => .error (.value s!"unknown work kind: {reprText s}")
  | _ => .error (.value "kind must be a WorkKind or string")

inductive WorkState where
  | queued | claimed | completed | failed | cancelled
  deriving DecidableEq

def WorkState.value : WorkState → String
  | queued => "queued"
  | claimed => "claimed"
  | completed => "completed"
  | failed => "failed"
  | cancelled => "cancelled"

def workStateOf (value : Json F) : Checked WorkState :=
  match [WorkState.queued, .claimed, .completed, .failed, .cancelled].find? fun state => value.isStr state.value with
  | some state => .ok state
  | none => .error (.value "not a valid WorkState")

inductive ReleaseOutcome where
  | completed | requeue | failed | cancelled
  deriving DecidableEq

def ReleaseOutcome.value : ReleaseOutcome → String
  | completed => "completed"
  | requeue => "requeue"
  | failed => "failed"
  | cancelled => "cancelled"

def releaseOutcomeAliases : List (String × ReleaseOutcome) :=
  [("complete", .completed), ("completed", .completed), ("requeue", .requeue), ("requeued", .requeue),
    ("failed", .failed), ("cancelled", .cancelled), ("canceled", .cancelled)]

def normalizeReleaseOutcome (value : Json F) : Checked ReleaseOutcome :=
  match value with
  | .str s =>
      match releaseOutcomeAliases.lookup (String.ofList (dashed (lower (strip s.toList)))) with
      | some outcome => .ok outcome
      | none => .error (.value s!"unknown release outcome: {reprText s}")
  | _ => .error (.value "release outcome must be a ReleaseOutcome or string")

inductive PreemptionStatus where
  | pending | boundaryReached
  deriving DecidableEq

def PreemptionStatus.value : PreemptionStatus → String
  | pending => "pending"
  | boundaryReached => "boundary-reached"

def preemptionStatusOf (value : Json F) : Checked PreemptionStatus :=
  match [PreemptionStatus.pending, .boundaryReached].find? fun status => value.isStr status.value with
  | some status => .ok status
  | none => .error (.value "not a valid PreemptionStatus")

inductive IdleReason where
  | noRunnableWork | checkpointBoundary | leaseHandoff | safetyHalt
  deriving DecidableEq

def IdleReason.value : IdleReason → String
  | noRunnableWork => "no-runnable-work"
  | checkpointBoundary => "checkpoint-boundary"
  | leaseHandoff => "lease-handoff"
  | safetyHalt => "safety-halt"

def idleReasonAliases : List (String × IdleReason) :=
  [("no-runnable-work", .noRunnableWork), ("checkpoint-boundary", .checkpointBoundary),
    ("lease-handoff", .leaseHandoff), ("safety-halt", .safetyHalt), ("no_runnable_work", .noRunnableWork),
    ("checkpoint_boundary", .checkpointBoundary), ("lease_handoff", .leaseHandoff), ("safety_halt", .safetyHalt)]

def normalizeIdleReason (value : Json F) : Checked IdleReason :=
  match value with
  | .str s =>
      match idleReasonAliases.lookup (String.ofList (lower (strip s.toList))) with
      | some reason => .ok reason
      | none => .error (.value s!"unknown idle reason: {reprText s}")
  | _ => .error (.value "idle reason must be an IdleReason or string")

end Kinds

/-- GPU identifiers, in order and each of them once. -/
structure GpuSet where
  gpus : List Identifier
  ordered : gpus.Pairwise (· < ·)

namespace GpuSet

theorem pairwise_sort {gpus : List Identifier} (distinct : gpus.Nodup) :
    (gpus.insertionSort (· ≤ ·)).Pairwise (· < ·) := by
  have sorted : (gpus.insertionSort (· ≤ ·)).SortedLE := (List.pairwise_insertionSort (· ≤ ·) gpus).sortedLE
  exact (sorted.sortedLT_of_nodup ((List.perm_insertionSort _ gpus).nodup_iff.mpr distinct)).pairwise

def sort (gpus : List Identifier) (distinct : gpus.Nodup) : GpuSet :=
  ⟨gpus.insertionSort (· ≤ ·), pairwise_sort distinct⟩

def empty : GpuSet := ⟨[], List.Pairwise.nil⟩

def contains (set : GpuSet) (gpu : Identifier) : Bool := gpu ∈ set.gpus

def add (set : GpuSet) (gpu : Identifier) : GpuSet :=
  if fresh : gpu ∉ set.gpus then
    sort (set.gpus ++ [gpu]) (List.Nodup.append (set.ordered.imp fun less => less.ne) (List.nodup_singleton gpu)
      (List.disjoint_singleton.mpr fresh))
  else set

theorem mem_add {set : GpuSet} {gpu other : Identifier} : other ∈ (set.add gpu).gpus ↔ other = gpu ∨ other ∈ set.gpus := by
  unfold add
  split
  next fresh =>
    rw [sort, (List.perm_insertionSort _ _).mem_iff, List.mem_append, List.mem_singleton]
    exact Or.comm
  next present =>
    constructor
    · exact .inr
    · rintro (rfl | member)
      · exact not_not.mp present
      · exact member

end GpuSet

section Records

variable {F : Type} [Numbers F]

/-- A JSON object that was copied through its canonical text. -/
structure Payload (F : Type) [Numbers F] where
  fields : List (String × Json F)
  copied : Copied fields

/-- What the canonical text of an object reads back as; the keys of the dictionary are distinct. -/
def jsonObject (value : Json F) (field : String) : Checked (Payload F) :=
  match value with
  | .null => .ok ⟨[], copied_nil⟩
  | .obj fields =>
      if valid : (Json.obj fields).encodable = true ∧ (Json.obj fields).keyed = true then
        .ok ⟨sortFields fields, copied_sortFields valid.1 valid.2⟩
      else .error (.value "value is not canonical-JSON compatible")
  | _ => .error (.value s!"{field} must be a JSON object")

/-- A finite time. -/
structure Time (F : Type) [Numbers F] where
  value : F
  finite : NumberText.isFinite value = true

def readFloat (value : Json F) : Checked F :=
  match Numbers.toFloat value with
  | some x => .ok x
  | none => .error (.value "could not convert to float")

def requireFinite (x : F) (error : SchedulerError) : Checked (Time F) :=
  if finite : NumberText.isFinite x = true then .ok ⟨x, finite⟩ else .error error

def Time.json (time : Time F) : Json F := .float time.value

/-- Work as its producer describes it. -/
structure WorkItem (F : Type) [Numbers F] where
  workId : Identifier
  kind : WorkKind
  eligibleGpus : Option GpuSet
  preemptible : Bool
  preferredGpu : Option Identifier
  payload : Payload F
  eligible_ne_nil : ∀ gpus ∈ eligibleGpus, gpus.gpus ≠ []
  preferred_eligible : ∀ gpus ∈ eligibleGpus, ∀ gpu ∈ preferredGpu, gpu ∈ gpus.gpus

/-- An item whose fields have not been checked. -/
structure RawItem (F : Type) where
  workId : Json F
  kind : Json F
  eligibleGpus : Option (List (Json F))
  preemptible : Json F
  preferredGpu : Json F
  payload : Json F

/-- The GPUs that an item names, sorted; no GPUs are as good as no restriction. -/
def readEligible (raw : Option (List (Json F))) : Checked (Option {set : GpuSet // set.gpus ≠ []}) :=
  match raw with
  | none => .ok none
  | some values => do
      let gpus ← values.mapM fun value => requireIdentifier value "eligible_gpus entry"
      if distinct : gpus.Nodup then
        if nonempty : (GpuSet.sort gpus distinct).gpus ≠ [] then return some ⟨GpuSet.sort gpus distinct, nonempty⟩
        else return none
      else .error (.value "eligible_gpus must not contain duplicates")

def RawItem.make (raw : RawItem F) : Checked (WorkItem F) := do
  let workId ← requireIdentifier raw.workId "work_id"
  let kind ← normalizeWorkKind raw.kind
  let preemptible ← requireBool raw.preemptible (.value "preemptible must be boolean")
  let eligible ← readEligible raw.eligibleGpus
  let preferredGpu ← optionalIdentifier raw.preferredGpu "preferred_gpu"
  if preferred : ∀ gpus ∈ eligible, ∀ gpu ∈ preferredGpu, gpu ∈ gpus.1.gpus then
    let payload ← jsonObject raw.payload "payload"
    return {
      workId := workId
      kind := kind
      eligibleGpus := eligible.map Subtype.val
      preemptible := preemptible
      preferredGpu := preferredGpu
      payload := payload
      eligible_ne_nil := by
        intro gpus member
        obtain ⟨set, -, rfl⟩ := Option.map_eq_some_iff.mp member
        exact set.2
      preferred_eligible := by
        intro gpus member
        obtain ⟨set, found, rfl⟩ := Option.map_eq_some_iff.mp member
        exact preferred set found }
  else .error (.value "preferred_gpu must be included in eligible_gpus")

namespace WorkItem

def isEligible (item : WorkItem F) (gpuId : Identifier) : Bool :=
  match item.eligibleGpus with
  | none => true
  | some gpus => gpuId ∈ gpus.gpus

def eligibleJson (eligible : Option GpuSet) : Json F :=
  match eligible with
  | none => .null
  | some gpus => .arr (gpus.gpus.map identifierJson)

def toDict (item : WorkItem F) : List (String × Json F) :=
  [("work_id", .str item.workId.1), ("kind", .str item.kind.value), ("eligible_gpus", eligibleJson item.eligibleGpus),
    ("preemptible", .bool item.preemptible), ("preferred_gpu", optionalJson item.preferredGpu),
    ("payload", .obj item.payload.fields)]

def readGpuList (value : Json F) : Checked (Option (List (Json F))) :=
  match value with
  | .null => .ok none
  | .arr items => .ok (some items)
  | _ => .error (.state "eligible_gpus must be null or an array")

def fromDict (value : Json F) : Checked (WorkItem F) := do
  let fields ← fieldsOf ["work_id", "kind", "eligible_gpus", "preemptible", "preferred_gpu", "payload"]
    (.state "work item fields differ from schema") value
  let eligible ← readGpuList (Json.get fields "eligible_gpus")
  labelled "invalid work item" (RawItem.make {
    workId := Json.get fields "work_id"
    kind := Json.get fields "kind"
    eligibleGpus := eligible
    preemptible := Json.get fields "preemptible"
    preferredGpu := Json.get fields "preferred_gpu"
    payload := Json.get fields "payload" })

end WorkItem

structure Claim (F : Type) [Numbers F] where
  claimId : Identifier
  workId : Identifier
  gpuId : Identifier
  ownerId : Identifier
  claimedAt : Time F
  sequence : Nat
  stolen : Bool

namespace Claim

def toDict (claim : Claim F) : List (String × Json F) :=
  [("claim_id", .str claim.claimId.1), ("work_id", .str claim.workId.1), ("gpu_id", .str claim.gpuId.1),
    ("owner_id", .str claim.ownerId.1), ("claimed_at", claim.claimedAt.json), ("sequence", .int claim.sequence),
    ("stolen", .bool claim.stolen)]

def fromDict (value : Json F) : Checked (Claim F) := do
  let fields ← fieldsOf ["claim_id", "work_id", "gpu_id", "owner_id", "claimed_at", "sequence", "stolen"]
    (.state "claim fields differ from schema") value
  let (claimId, workId, gpuId, ownerId, claimedAt, sequence) ← labelled "invalid claim" do
    let claimId ← requireIdentifier (Json.get fields "claim_id") "claim_id"
    let workId ← requireIdentifier (Json.get fields "work_id") "work_id"
    let gpuId ← requireIdentifier (Json.get fields "gpu_id") "gpu_id"
    let ownerId ← requireIdentifier (Json.get fields "owner_id") "owner_id"
    let claimedAt ← readFloat (Json.get fields "claimed_at")
    let sequence ← requirePositiveInt (Json.get fields "sequence") "claim sequence"
    return (claimId, workId, gpuId, ownerId, claimedAt, sequence)
  let claimedAt ← requireFinite claimedAt (.state "claim time must be finite")
  let stolen ← requireBool (Json.get fields "stolen") (.state "claim stolen flag must be boolean")
  return ⟨claimId, workId, gpuId, ownerId, claimedAt, sequence, stolen⟩

end Claim

structure ReleaseRecord (F : Type) [Numbers F] where
  releaseId : Identifier
  claimId : Identifier
  workId : Identifier
  gpuId : Identifier
  ownerId : Identifier
  outcome : ReleaseOutcome
  releasedAt : Time F
  sequence : Nat

namespace ReleaseRecord

def toDict (release : ReleaseRecord F) : List (String × Json F) :=
  [("release_id", .str release.releaseId.1), ("claim_id", .str release.claimId.1), ("work_id", .str release.workId.1),
    ("gpu_id", .str release.gpuId.1), ("owner_id", .str release.ownerId.1), ("outcome", .str release.outcome.value),
    ("released_at", release.releasedAt.json), ("sequence", .int release.sequence)]

def fromDict (value : Json F) : Checked (ReleaseRecord F) := do
  let fields ← fieldsOf
    ["release_id", "claim_id", "work_id", "gpu_id", "owner_id", "outcome", "released_at", "sequence"]
    (.state "release fields differ from schema") value
  let (releaseId, claimId, workId, gpuId, ownerId, outcome, releasedAt, sequence) ← labelled "invalid release" do
    let releaseId ← requireIdentifier (Json.get fields "release_id") "release_id"
    let claimId ← requireIdentifier (Json.get fields "claim_id") "claim_id"
    let workId ← requireIdentifier (Json.get fields "work_id") "work_id"
    let gpuId ← requireIdentifier (Json.get fields "gpu_id") "gpu_id"
    let ownerId ← requireIdentifier (Json.get fields "owner_id") "owner_id"
    let outcome ← normalizeReleaseOutcome (Json.get fields "outcome")
    let releasedAt ← readFloat (Json.get fields "released_at")
    let sequence ← requirePositiveInt (Json.get fields "sequence") "release sequence"
    return (releaseId, claimId, workId, gpuId, ownerId, outcome, releasedAt, sequence)
  let releasedAt ← requireFinite releasedAt (.state "release time must be finite")
  return ⟨releaseId, claimId, workId, gpuId, ownerId, outcome, releasedAt, sequence⟩

end ReleaseRecord

structure WorkRecord (F : Type) [Numbers F] where
  item : WorkItem F
  state : WorkState
  enqueueSequence : Nat
  attempts : Nat
  activeClaimId : Option Identifier
  lastRelease : Option (ReleaseRecord F)

namespace WorkRecord

def releaseJson : Option (ReleaseRecord F) → Json F
  | none => .null
  | some release => .obj release.toDict

def toDict (record : WorkRecord F) : List (String × Json F) :=
  [("item", .obj record.item.toDict), ("state", .str record.state.value),
    ("enqueue_sequence", .int record.enqueueSequence), ("attempts", .int record.attempts),
    ("active_claim_id", optionalJson record.activeClaimId), ("last_release", releaseJson record.lastRelease)]

def checkRelease (value : Json F) : Checked Unit :=
  match value with
  | .null => .ok ()
  | .obj _ => .ok ()
  | _ => .error (.value "last_release must be null or an object")

def readRelease (value : Json F) : Checked (Option (ReleaseRecord F)) :=
  if value.isNull then .ok none else do return some (← ReleaseRecord.fromDict value)

/-- Errors of the state are raised as they are. -/
def asRecordError {α : Type} (check : Checked α) : Checked α :=
  check.mapError fun error =>
    if error.kind = .stateError then error else .state s!"invalid work record: {error.text}"

def fromDict (value : Json F) : Checked (WorkRecord F) := do
  let fields ← fieldsOf ["item", "state", "enqueue_sequence", "attempts", "active_claim_id", "last_release"]
    (.state "work record fields differ from schema") value
  asRecordError do
    let state ← workStateOf (Json.get fields "state")
    let sequence ← requirePositiveInt (Json.get fields "enqueue_sequence") "enqueue_sequence"
    let attempts ← requireNonnegativeInt (Json.get fields "attempts") "attempts"
    let activeClaimId ← optionalIdentifier (Json.get fields "active_claim_id") "active_claim_id"
    checkRelease (Json.get fields "last_release")
    let item ← WorkItem.fromDict (Json.get fields "item")
    let lastRelease ← readRelease (Json.get fields "last_release")
    return ⟨item, state, sequence, attempts, activeClaimId, lastRelease⟩

end WorkRecord

structure PreemptionRequest (F : Type) [Numbers F] where
  requestId : Identifier
  gpuId : Identifier
  claimId : Identifier
  runningWorkId : Identifier
  requestedForWorkId : Identifier
  requestedBy : Identifier
  reason : Identifier
  requestedAt : Time F
  sequence : Nat
  /-- The time of the boundary, once it is reached. -/
  boundaryAt : Option (Time F)

namespace PreemptionRequest

def status (request : PreemptionRequest F) : PreemptionStatus :=
  match request.boundaryAt with
  | none => .pending
  | some _ => .boundaryReached

def boundaryJson : Option (Time F) → Json F
  | none => .null
  | some time => time.json

def toDict (request : PreemptionRequest F) : List (String × Json F) :=
  [("request_id", .str request.requestId.1), ("gpu_id", .str request.gpuId.1), ("claim_id", .str request.claimId.1),
    ("running_work_id", .str request.runningWorkId.1), ("requested_for_work_id", .str request.requestedForWorkId.1),
    ("requested_by", .str request.requestedBy.1), ("reason", .str request.reason.1),
    ("requested_at", request.requestedAt.json), ("sequence", .int request.sequence),
    ("status", .str request.status.value), ("boundary_at", boundaryJson request.boundaryAt)]

def readBoundary (value : Json F) : Checked (Option F) :=
  if value.isNull then .ok none else do return some (← readFloat value)

def finiteBoundary (boundary : Option F) : Checked (Option (Time F)) :=
  match boundary with
  | none => .ok none
  | some x => do return some (← requireFinite x (.state "preemption times must be finite"))

def fromDict (value : Json F) : Checked (PreemptionRequest F) := do
  let fields ← fieldsOf
    ["request_id", "gpu_id", "claim_id", "running_work_id", "requested_for_work_id", "requested_by", "reason",
      "requested_at", "sequence", "status", "boundary_at"]
    (.state "preemption request fields differ from schema") value
  let (requestId, gpuId, claimId, runningWorkId, requestedForWorkId, requestedBy, reason, requestedAt, sequence, status,
      boundaryAt) ← labelled "invalid preemption request" do
    let requestId ← requireIdentifier (Json.get fields "request_id") "request_id"
    let gpuId ← requireIdentifier (Json.get fields "gpu_id") "gpu_id"
    let claimId ← requireIdentifier (Json.get fields "claim_id") "claim_id"
    let runningWorkId ← requireIdentifier (Json.get fields "running_work_id") "running_work_id"
    let requestedForWorkId ← requireIdentifier (Json.get fields "requested_for_work_id") "requested_for_work_id"
    let requestedBy ← requireIdentifier (Json.get fields "requested_by") "requested_by"
    let reason ← requireIdentifier (Json.get fields "reason") "reason"
    let requestedAt ← readFloat (Json.get fields "requested_at")
    let sequence ← requirePositiveInt (Json.get fields "sequence") "preemption sequence"
    let status ← preemptionStatusOf (Json.get fields "status")
    let boundaryAt ← readBoundary (Json.get fields "boundary_at")
    return (requestId, gpuId, claimId, runningWorkId, requestedForWorkId, requestedBy, reason, requestedAt, sequence,
      status, boundaryAt)
  let requestedAt ← requireFinite requestedAt (.state "preemption times must be finite")
  let boundaryAt ← finiteBoundary boundaryAt
  let request : PreemptionRequest F := ⟨requestId, gpuId, claimId, runningWorkId, requestedForWorkId, requestedBy,
    reason, requestedAt, sequence, boundaryAt⟩
  require (status = request.status) (.state "preemption status contradicts boundary timestamp")
  return request

end PreemptionRequest

structure IdleEvent (F : Type) [Numbers F] where
  eventId : Identifier
  gpuId : Identifier
  reason : IdleReason
  recordedAt : Time F
  sequence : Nat
  ownerId : Option Identifier
  workId : Option Identifier
  details : Payload F

namespace IdleEvent

def toDict (event : IdleEvent F) : List (String × Json F) :=
  [("event_id", .str event.eventId.1), ("gpu_id", .str event.gpuId.1), ("reason", .str event.reason.value),
    ("recorded_at", event.recordedAt.json), ("sequence", .int event.sequence),
    ("owner_id", optionalJson event.ownerId), ("work_id", optionalJson event.workId),
    ("details", .obj event.details.fields)]

def fromDict (value : Json F) : Checked (IdleEvent F) := do
  let fields ← fieldsOf
    ["event_id", "gpu_id", "reason", "recorded_at", "sequence", "owner_id", "work_id", "details"]
    (.state "idle event fields differ from schema") value
  let (ownerId, workId, eventId, gpuId, reason, recordedAt, sequence, details) ← labelled "invalid idle event" do
    let ownerId ← optionalIdentifier (Json.get fields "owner_id") "idle owner_id"
    let workId ← optionalIdentifier (Json.get fields "work_id") "idle work_id"
    let eventId ← requireIdentifier (Json.get fields "event_id") "event_id"
    let gpuId ← requireIdentifier (Json.get fields "gpu_id") "gpu_id"
    let reason ← normalizeIdleReason (Json.get fields "reason")
    let recordedAt ← readFloat (Json.get fields "recorded_at")
    let sequence ← requirePositiveInt (Json.get fields "sequence") "idle event sequence"
    let details ← jsonObject (Json.get fields "details") "idle details"
    return (ownerId, workId, eventId, gpuId, reason, recordedAt, sequence, details)
  let recordedAt ← requireFinite recordedAt (.state "idle event time must be finite")
  return ⟨eventId, gpuId, reason, recordedAt, sequence, ownerId, workId, details⟩

end IdleEvent

structure Halt (F : Type) [Numbers F] where
  reason : Identifier
  setAt : Time F

namespace Halt

def toDict (halt : Halt F) : List (String × Json F) := [("reason", .str halt.reason.1), ("set_at", halt.setAt.json)]

def optionJson : Option (Halt F) → Json F
  | none => .null
  | some halt => .obj halt.toDict

def validateHalt (value : Json F) (field : String) : Checked (Option (Halt F)) :=
  if value.isNull then .ok none else do
    let fields ← fieldsOf ["reason", "set_at"] (.state s!"{field} must be null or a halt object") value
    let (reason, setAt) ← labelled s!"invalid {field}" do
      let reason ← requireIdentifier (Json.get fields "reason") s!"{field}.reason"
      let setAt ← readFloat (Json.get fields "set_at")
      return (reason, setAt)
    let setAt ← requireFinite setAt (.state s!"{field}.set_at must be finite")
    return some ⟨reason, setAt⟩

end Halt

end Records
end KataGo.Scheduler
