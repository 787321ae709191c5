import KataGo.Scheduler.State

/-! The operations of the scheduler on a state that was loaded: each answers, and hands over the
state to commit if there is something to commit. -/

namespace KataGo.Scheduler
open KataGo.Lib

/-- The digits of a number, at least twenty of them. -/
def padded (n : Nat) : List Char := List.replicate (20 - (Json.decimal n).length) '0' ++ Json.decimal n

/-- A label with a number. -/
def idText (label : String) (n : Nat) : String := String.ofList (label.toList ++ '-' :: padded n)

theorem isDigit_padded {n : Nat} {c : Char} (member : c ∈ padded n) : NumberToken.isDigit c = true := by
  rcases List.mem_append.mp member with zero | digit
  · rw [List.eq_of_mem_replicate zero]
    rfl
  · exact Json.decimal_isDigit n c digit

theorem isSpace_digit {c : Char} (digit : NumberToken.isDigit c = true) : isSpace c = false ∧ c ≠ Char.ofNat 0 := by
  have table : ∀ m < 58, 48 ≤ m → isSpace (Char.ofNat m) = false ∧ Char.ofNat m ≠ Char.ofNat 0 := by decide
  have bounds : 48 ≤ c.toNat ∧ c.toNat ≤ 57 := by
    simpa [NumberToken.isDigit, Char.le_def, UInt32.le_iff_toNat_le] using digit
  have same := table c.toNat (by omega) bounds.1
  rwa [Char.ofNat_toNat] at same

theorem padded_ne_nil (n : Nat) : padded n ≠ [] := by
  have digits : Json.decimal n ≠ [] := by
    rcases Json.decimal_cases n with ⟨-, zero⟩ | ⟨c, rest, whole, -⟩
    · rw [zero]
      exact List.cons_ne_nil _ _
    · rw [whole]
      exact List.cons_ne_nil _ _
  simp [padded, digits]

theorem isIdentifier_idText {label : String} {c : Char} {cs : List Char} (text : label.toList = c :: cs)
    (first : isSpace c = false) (plain : Char.ofNat 0 ∉ label.toList) (n : Nat) :
    isIdentifier (idText label n) = true := by
  have chars : (idText label n).toList = c :: (cs ++ '-' :: padded n) := by
    rw [idText, String.toList_ofList, text, List.cons_append]
  have last : ∀ d ∈ (idText label n).toList.getLast?, isSpace d = false := by
    intro d final
    have member : d ∈ padded n := by
      rw [idText, String.toList_ofList, List.getLast?_append_of_ne_nil _ (List.cons_ne_nil _ _),
        List.getLast?_cons_of_ne_nil (padded_ne_nil n)] at final
      exact List.mem_of_getLast? final
    exact (isSpace_digit (isDigit_padded member)).1
  have stripped : strip (idText label n).toList = (idText label n).toList :=
    strip_eq_self (by rw [chars]; simpa using first) last
  have visible : Char.ofNat 0 ∉ (idText label n).toList := by
    rw [idText, String.toList_ofList, List.mem_append, List.mem_cons]
    rintro (early | dash | late)
    · exact plain early
    · exact absurd dash (by decide)
    · exact (isSpace_digit (isDigit_padded late)).2 rfl
  simp only [isIdentifier, decide_eq_true_eq]
  refine ⟨?_, stripped, visible⟩
  rw [stripped, chars]
  exact List.cons_ne_nil _ _

def claimIdentifier (n : Nat) : Identifier :=
  ⟨idText "claim" n, isIdentifier_idText rfl (by decide) (by decide) n⟩

def releaseIdentifier (n : Nat) : Identifier :=
  ⟨idText "release" n, isIdentifier_idText rfl (by decide) (by decide) n⟩

def preemptionIdentifier (n : Nat) : Identifier :=
  ⟨idText "preempt" n, isIdentifier_idText rfl (by decide) (by decide) n⟩

def idleIdentifier (n : Nat) : Identifier :=
  ⟨idText "idle" n, isIdentifier_idText rfl (by decide) (by decide) n⟩

/-- What an operation returns. -/
inductive Answer (F : Type) [Numbers F] where
  | work (record : WorkRecord F)
  | claim (claim : Option (Claim F))
  | release (release : ReleaseRecord F)
  | preemption (request : Option (PreemptionRequest F))
  | idle (event : IdleEvent F)
  | done

section Selection

variable {α : Type}

/-- The first of the elements that no other goes before. -/
def least (before : α → α → Bool) : List α → Option α
  | [] => none
  | a :: rest => some (rest.foldl (fun best x => if before x best then x else best) a)

theorem least_mem {before : α → α → Bool} {xs : List α} {a : α} (found : least before xs = some a) : a ∈ xs := by
  cases xs with
  | nil => cases found
  | cons x rest =>
    cases found
    induction rest generalizing x with
    | nil => simp
    | cons y rest ih =>
      rw [List.foldl_cons]
      split
      · exact List.mem_cons_of_mem x (ih y)
      · rcases List.mem_cons.mp (ih x) with same | later
        · rw [same]
          exact List.mem_cons_self
        · exact List.mem_cons_of_mem x (List.mem_cons_of_mem y later)

end Selection

variable {F : Type} [Numbers F]

/-- The order in which work is taken: by class, then by age, then by its name. -/
def workBefore (record other : WorkRecord F) : Bool :=
  classBefore record.item.kind other.item.kind ∨
    ¬classBefore other.item.kind record.item.kind ∧ (record.enqueueSequence < other.enqueueSequence ∨
      record.enqueueSequence = other.enqueueSequence ∧ record.item.workId < other.item.workId)

def now (reading : F) : Checked (Time F) :=
  requireFinite reading ⟨.schedulerError, "clock returned a non-finite value"⟩

namespace State

def validateOrRegisterGpu (s : State F) (gpuId : Identifier) : Checked (Bool × State F) :=
  if gpuId ∈ s.gpuIds.gpus then .ok (false, s)
  else if s.dynamicGpus then .ok (true, { s with gpuIds := s.gpuIds.add gpuId })
  else .error ⟨.unknownGpu, reprText gpuId.1⟩

def validateKnownGpu (s : State F) (gpuId : String) : Checked Identifier :=
  match registered s.gpuIds gpuId with
  | some gpu => .ok gpu
  | none => .error ⟨.unknownGpu, reprText gpuId⟩

/-- The GPUs that an item names, in order. -/
def namedGpus (item : WorkItem F) : List Identifier :=
  (((item.eligibleGpus.map GpuSet.gpus).getD []) ++ item.preferredGpu.toList).dedup.insertionSort (· ≤ ·)

def validateOrRegisterItemGpus (s : State F) (item : WorkItem F) : Checked (State F) :=
  (namedGpus item).foldlM (fun s gpuId => do return (← s.validateOrRegisterGpu gpuId).2) s

def haltReason (s : State F) (gpuId : Identifier) : Option Identifier :=
  match s.safetyHalt with
  | some halt => some halt.reason
  | none => (s.gpuSafetyHalts.get gpuId).join.map (·.reason)

/-- Whom an idle event is put down to: an active claim fills in what was not given. -/
def idleActor (s : State F) (gpuId : Identifier) (ownerId workId : Option Identifier) :
    Checked (Option Identifier × Option Identifier) :=
  match s.claims.get gpuId with
  | none => .ok (ownerId, workId)
  | some active => do
      let actor := (ownerId.map Subtype.val).getD ""
      require (∀ owner ∈ ownerId, owner = active.ownerId)
        ⟨.gpuBusy, s!"GPU {reprText gpuId.1} is owned by {reprText active.ownerId.1}, not telemetry actor {reprText actor}"⟩
      return (some (ownerId.getD active.ownerId), some (workId.getD active.workId))

def currentIdle (s : State F) (gpuId : Identifier) : Checked (Option (IdleEvent F)) :=
  match s.idle.get gpuId with
  | none => .ok none
  | some eventId =>
      match s.idleEvents.reverse.find? fun event => event.eventId = eventId with
      | none => .error (.state "current idle event is missing")
      | some event => .ok (some event)

/-- A new event, which is now the current one of its GPU. -/
def appendIdle (s : State F) (gpuId : Identifier) (reason : IdleReason) (ownerId workId : Option Identifier)
    (details : Payload F) (reading : F) : Checked (IdleEvent F × Bool × State F) := do
  let recordedAt ← now reading
  let event : IdleEvent F :=
    ⟨idleIdentifier s.nextSequence, gpuId, reason, recordedAt, s.nextSequence, ownerId, workId, details⟩
  return (event, true, { s with
    nextSequence := s.nextSequence + 1
    idleEvents := s.idleEvents ++ [event]
    idle := s.idle.set gpuId event.eventId })

def IdleEvent.same (event : IdleEvent F) (reason : IdleReason) (ownerId workId : Option Identifier)
    (details : Payload F) : Bool :=
  event.reason = reason ∧ event.ownerId = ownerId ∧ event.workId = workId ∧
    sameJson (.obj event.details.fields) (.obj details.fields) = true

/-- The event that a GPU is idle, and whether it is a new one. -/
def recordIdle (s : State F) (gpuId : Identifier) (reason : IdleReason) (ownerId workId : Option Identifier)
    (details : Json F) (reading : F) : Checked (IdleEvent F × Bool × State F) := do
  let details ← jsonObject details "idle details"
  let actor ← s.idleActor gpuId ownerId workId
  match ← s.currentIdle gpuId with
  | none => s.appendIdle gpuId reason actor.1 actor.2 details reading
  | some current =>
      if IdleEvent.same current reason actor.1 actor.2 details then return (current, false, s)
      else s.appendIdle gpuId reason actor.1 actor.2 details reading

/-- What is committed: the state, unless nothing has changed. -/
def ifChanged (changed : Bool) (s : State F) : Option (State F) := if changed then some s else none

def enqueue (s : State F) (desired : WorkItem F) : Checked (Answer F × Option (State F)) :=
  match s.work.get desired.workId with
  | some existing => do
      require (sameJson (.obj existing.item.toDict) (.obj desired.toDict) = true)
        (.conflict s!"work_id {reprText desired.workId.1} was enqueued with different metadata")
      return (.work existing, none)
  | none => do
      let s ← s.validateOrRegisterItemGpus desired
      let record : WorkRecord F := ⟨desired, .queued, s.nextSequence, 0, none, none⟩
      return (.work record, some { s with
        nextSequence := s.nextSequence + 1
        work := s.work.set desired.workId record })

def isRunnable (gpuId : Identifier) (record : WorkRecord F) : Bool :=
  record.state = .queued ∧ record.item.isEligible gpuId = true

/-- The claim of a record, and the state with it. -/
def grant (s : State F) (gpuId ownerId : Identifier) (selected : WorkRecord F) (claimedAt : Time F) :
    Claim F × State F :=
  let claim : Claim F := {
    claimId := claimIdentifier s.nextSequence
    workId := selected.item.workId
    gpuId := gpuId
    ownerId := ownerId
    claimedAt := claimedAt
    sequence := s.nextSequence
    stolen := selected.item.preferredGpu.any fun preferred => preferred ≠ gpuId }
  (claim, { s with
    nextSequence := s.nextSequence + 1
    claims := s.claims.set gpuId claim
    work := s.work.set selected.item.workId { selected with
      state := .claimed
      attempts := selected.attempts + 1
      activeClaimId := some claim.claimId }
    idle := s.idle.erase gpuId })

/-- A GPU without a claim takes the first of the work it may run, or is idle. -/
def claimFree (s : State F) (isNew : Bool) (gpuId ownerId : Identifier) (clock : Nat → F) :
    Checked (Answer F × Option (State F)) :=
  match s.haltReason gpuId with
  | some reason => do
      let (_, changed, s) ← s.recordIdle gpuId .safetyHalt none none (.obj [("reason", .str reason.1)]) (clock 0)
      return (.claim none, ifChanged (isNew || changed) s)
  | none =>
      match least workBefore (s.work.values.filter (isRunnable gpuId)) with
      | none => do
          let queued := (s.work.values.filter fun record => record.state = .queued).length
          let (_, changed, s) ← s.recordIdle gpuId .noRunnableWork none none
            (.obj [("queued_work", .int queued)]) (clock 0)
          return (.claim none, ifChanged (isNew || changed) s)
      | some selected => do
          let claimedAt ← now (clock 0)
          let granted := s.grant gpuId ownerId selected claimedAt
          return (.claim (some granted.1), some granted.2)

def claim (s : State F) (gpuId ownerId : Identifier) (clock : Nat → F) : Checked (Answer F × Option (State F)) := do
  let (isNew, s) ← s.validateOrRegisterGpu gpuId
  match s.claims.get gpuId with
  | some active =>
      let shown := reprText active.ownerId.1
      require (active.ownerId = ownerId)
        ⟨.gpuBusy, s!"GPU {reprText gpuId.1} is owned by {shown} under claim {active.claimId.1}"⟩
      return (.claim (some active), none)
  | none => s.claimFree isNew gpuId ownerId clock

end State

/-- A release with its arguments checked. -/
structure ReleaseRequest (F : Type) [Numbers F] where
  gpuId : String
  ownerId : Identifier
  workId : Option Identifier
  expectedClaimId : Option String
  outcome : ReleaseOutcome
  idleReason : Option IdleReason
  idleDetails : Payload F

def ReleaseOutcome.nextState : ReleaseOutcome → WorkState
  | completed => .completed
  | requeue => .queued
  | failed => .failed
  | cancelled => .cancelled

namespace State

/-- The last release of a record, if it is the one that is asked for. -/
def retryOf (gpuId : Identifier) (request : ReleaseRequest F) (record : WorkRecord F) : Option (ReleaseRecord F) :=
  record.lastRelease.filter fun release =>
    (∀ workId ∈ request.workId, record.item.workId = workId) ∧ release.gpuId = gpuId ∧
      release.ownerId = request.ownerId ∧ release.outcome = request.outcome ∧
      ∀ claimId ∈ request.expectedClaimId, release.claimId.1 = claimId

def matchingReleaseRetry (s : State F) (gpuId : Identifier) (request : ReleaseRequest F) : Option (ReleaseRecord F) :=
  least (fun release other => other.sequence < release.sequence) (s.work.values.filterMap (retryOf gpuId request))

/-- A request against the claim has reached its boundary. -/
def reachBoundary (claimId : Identifier) (releasedAt : Time F) (request : PreemptionRequest F) : PreemptionRequest F :=
  if request.claimId = claimId ∧ request.status = .pending then { request with boundaryAt := some releasedAt }
  else request

def hasPending (s : State F) (claimId : Identifier) : Bool :=
  s.preemptionRequests.values.any fun request => request.claimId = claimId ∧ request.status = .pending

/-- The release of an active claim, and the state without the claim. -/
def drop (s : State F) (gpuId : Identifier) (active : Claim F) (record : WorkRecord F) (request : ReleaseRequest F)
    (releasedAt : Time F) : ReleaseRecord F × State F :=
  let release : ReleaseRecord F := {
    releaseId := releaseIdentifier s.nextSequence
    claimId := active.claimId
    workId := active.workId
    gpuId := gpuId
    ownerId := request.ownerId
    outcome := request.outcome
    releasedAt := releasedAt
    sequence := s.nextSequence }
  (release, { s with
    nextSequence := s.nextSequence + 1
    work := s.work.set active.workId { record with
      state := request.outcome.nextState
      activeClaimId := none
      lastRelease := some release }
    claims := s.claims.erase gpuId
    preemptionRequests := s.preemptionRequests.mapValues (reachBoundary active.claimId releasedAt) })

/-- Why the GPU is idle after a release: as the caller says, or because a preemption was waiting. -/
def idleAfter (s : State F) (active : Claim F) (request : ReleaseRequest F) : Option (IdleReason × Json F) :=
  match request.idleReason with
  | some reason => some (reason, .obj request.idleDetails.fields)
  | none =>
      if s.hasPending active.claimId ∧ request.outcome = .requeue then
        some (.checkpointBoundary, .obj [("claim_id", .str active.claimId.1), ("work_id", .str active.workId.1)])
      else none

def releaseActive (s : State F) (gpuId : Identifier) (active : Claim F) (request : ReleaseRequest F) (clock : Nat → F) :
    Checked (Answer F × Option (State F)) := do
  require (active.ownerId = request.ownerId)
    ⟨.gpuBusy, s!"GPU {reprText gpuId.1} is owned by {reprText active.ownerId.1}, not {reprText request.ownerId.1}"⟩
  let wanted := reprText ((request.workId.map Subtype.val).getD "")
  require (∀ workId ∈ request.workId, active.workId = workId)
    (.conflict s!"active work is {reprText active.workId.1}, not {wanted}")
  let expected := reprText (request.expectedClaimId.getD "")
  require (∀ claimId ∈ request.expectedClaimId, active.claimId.1 = claimId)
    (.conflict s!"claim {expected} is stale; active claim is {reprText active.claimId.1}")
  match s.work.get active.workId with
  | none => .error ⟨.keyError, reprText active.workId.1⟩
  | some record => do
      let releasedAt ← now (clock 0)
      let dropped := s.drop gpuId active record request releasedAt
      match s.idleAfter active request with
      | none => return (.release dropped.1, some dropped.2)
      | some (reason, details) => do
          let (_, _, s) ← dropped.2.recordIdle gpuId reason (some request.ownerId) (some active.workId) details (clock 1)
          return (.release dropped.1, some s)

def release (s : State F) (request : ReleaseRequest F) (clock : Nat → F) : Checked (Answer F × Option (State F)) := do
  let gpuId ← s.validateKnownGpu request.gpuId
  match s.claims.get gpuId with
  | some active => s.releaseActive gpuId active request clock
  | none =>
      match s.matchingReleaseRetry gpuId request with
      | some release => return (.release release, none)
      | none => .error ⟨.noActiveClaim, s!"GPU {reprText gpuId.1} has no active claim"⟩

/-- Work that a running item would have to make room for. -/
def outranks (gpuId : Identifier) (running record : WorkRecord F) : Bool :=
  isRunnable gpuId record ∧ classBefore record.item.kind running.item.kind = true

/-- The work that a preemption is for: the first of all that would do, or the one that is named. -/
def requestedWork (s : State F) (gpuId : Identifier) (running : WorkRecord F) (forWorkId : Option Identifier) :
    Checked (Option (WorkRecord F)) :=
  match forWorkId with
  | none => .ok (least workBefore (s.work.values.filter (outranks gpuId running)))
  | some workId =>
      match s.work.get workId with
      | none => .error ⟨.keyError, reprText workId.1⟩
      | some record => .ok (if outranks gpuId running record then some record else none)

def requestPreemption (s : State F) (name : Identifier) (requestedBy : Identifier) (forWorkId : Option Identifier)
    (reason : Identifier) (clock : Nat → F) : Checked (Answer F × Option (State F)) := do
  let gpuId ← s.validateKnownGpu name.1
  match s.claims.get gpuId with
  | none => return (.preemption none, none)
  | some claim =>
      match s.work.get claim.workId with
      | none => .error ⟨.keyError, reprText claim.workId.1⟩
      | some running =>
          if running.item.preemptible then
            match ← s.requestedWork gpuId running forWorkId with
            | none => return (.preemption none, none)
            | some requestedFor =>
                match s.preemptionRequests.values.find? fun existing => existing.status = .pending ∧
                    existing.claimId = claim.claimId ∧ existing.requestedForWorkId = requestedFor.item.workId with
                | some existing => return (.preemption (some existing), none)
                | none => do
                    let requestedAt ← now (clock 0)
                    let request : PreemptionRequest F := {
                      requestId := preemptionIdentifier s.nextSequence
                      gpuId := gpuId
                      claimId := claim.claimId
                      runningWorkId := running.item.workId
                      requestedForWorkId := requestedFor.item.workId
                      requestedBy := requestedBy
                      reason := reason
                      requestedAt := requestedAt
                      sequence := s.nextSequence
                      boundaryAt := none }
                    return (.preemption (some request), some { s with
                      nextSequence := s.nextSequence + 1
                      preemptionRequests := s.preemptionRequests.set request.requestId request })
          else return (.preemption none, none)

def recordIdleCall (s : State F) (gpuId : Identifier) (reason : IdleReason) (ownerId workId : Option Identifier)
    (details : Payload F) (clock : Nat → F) : Checked (Answer F × Option (State F)) := do
  let (isNew, s) ← s.validateOrRegisterGpu gpuId
  let (event, changed, s) ← s.recordIdle gpuId reason ownerId workId (.obj details.fields) (clock 0)
  return (.idle event, ifChanged (isNew || changed) s)

/-- The GPUs that are free are idle because of a halt. -/
def idleTargets (reason : Identifier) (clock : Nat → F) (step : Bool × State F) (target : Identifier × Nat) :
    Checked (Bool × State F) :=
  if (step.2.claims.get target.1).isSome then .ok step
  else do
    let (_, changed, s) ← step.2.recordIdle target.1 .safetyHalt none none (.obj [("reason", .str reason.1)])
      (clock (target.2 + 1))
    return (step.1 || changed, s)

/-- The halt is put down, if it is not there for the same reason already. -/
def placeHalt (s : State F) (reason : Identifier) (gpuId : Option Identifier) (reading : F) : Checked (Bool × State F) :=
  match gpuId with
  | none => do
      let setAt ← now reading
      if s.safetyHalt.any fun halt => halt.reason = reason then return (false, s)
      else return (true, { s with safetyHalt := some ⟨reason, setAt⟩ })
  | some gpuId => do
      let (isNew, s) ← s.validateOrRegisterGpu gpuId
      if (s.gpuSafetyHalts.get gpuId).join.any fun halt => halt.reason = reason then return (isNew, s)
      else
        let setAt ← now reading
        return (true, { s with gpuSafetyHalts := s.gpuSafetyHalts.set gpuId (some ⟨reason, setAt⟩) })

def setSafetyHalt (s : State F) (reason : Identifier) (gpuId : Option Identifier) (clock : Nat → F) :
    Checked (Answer F × Option (State F)) := do
  let placed ← s.placeHalt reason gpuId (clock 0)
  let targets := (gpuId.map fun gpu => [gpu]).getD placed.2.gpuIds.gpus
  let (changed, s) ← targets.zipIdx.foldlM (idleTargets reason clock) placed
  return (.done, ifChanged changed s)

def clearSafetyHalt (s : State F) (gpuId : Option Identifier) : Checked (Answer F × Option (State F)) :=
  match gpuId with
  | none => .ok (.done, ifChanged s.safetyHalt.isSome { s with safetyHalt := none })
  | some name => do
      let gpuId ← s.validateKnownGpu name.1
      return (.done, ifChanged (s.gpuSafetyHalts.get gpuId).join.isSome { s with
        gpuSafetyHalts := s.gpuSafetyHalts.erase gpuId })

end State
end KataGo.Scheduler
