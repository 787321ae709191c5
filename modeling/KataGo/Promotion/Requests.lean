import KataGo.Lib.JsonEq
import KataGo.Promotion.Append

/-! The requests that the registry takes: each of them answers with an event that it finds in
the log, or appends one. -/

namespace KataGo.Promotion
open KataGo.Lib

section Objects

variable {F : Type}

/-- A key that is present keeps its place. -/
def setField (fields : List (String × Json F)) (key : String) (value : Json F) : List (String × Json F) :=
  if key ∈ fields.map Prod.fst then Dict.replaced fields key value else fields ++ [(key, value)]

theorem setField_keys_nodup {fields : List (String × Json F)} {key : String} {value : Json F}
    (distinct : (fields.map Prod.fst).Nodup) : ((setField fields key value).map Prod.fst).Nodup := by
  unfold setField
  split
  next => rw [Dict.replaced_keys]; exact distinct
  next absent =>
    rw [List.map_append]
    apply List.Nodup.append distinct (by simp)
    simpa using absent

theorem setField_keyed {fields : List (String × Json F)} {key : String} {value : Json F}
    (distinct : (Json.obj fields).keyed = true) (keyed : value.keyed = true) :
    (Json.obj (setField fields key value)).keyed = true := by
  rw [Json.keyed, Bool.and_eq_true, decide_eq_true_iff, Json.keyedFields_iff] at distinct ⊢
  refine ⟨setField_keys_nodup distinct.1, ?_⟩
  intro field member
  unfold setField at member
  split at member
  next =>
    obtain ⟨old, present, rfl⟩ := List.mem_map.mp member
    by_cases same : old.1 = key
    · rw [if_pos same]
      exact keyed
    · rw [if_neg same]
      exact distinct.2 old present
  next =>
    rcases List.mem_append.mp member with old | new
    · exact distinct.2 field old
    · rw [List.mem_singleton.mp new]
      exact keyed

/-- A JSON object whose keys are different, at every depth. -/
structure JsonObject (F : Type) where
  fields : List (String × Json F)
  keyed : (Json.obj fields).keyed = true

def JsonObject.setStr (object : JsonObject F) (key value : String) : JsonObject F :=
  ⟨setField object.fields key (.str value), setField_keyed object.keyed rfl⟩

variable [Runtime F]

def JsonObject.copy (value : Json F) (keyed : value.keyed = true) : Checked (JsonObject F) :=
  match copied : copyJsonObject value with
  | .error e => .error e
  | .ok fields => .ok ⟨fields, (copied_of_copy keyed copied).distinct⟩

end Objects

def CandidateState.transition : CandidateState → Transition
  | discovered => .candidateDiscovered
  | claimed => .candidateClaimed
  | superseded => .candidateSuperseded
  | evaluatingIntegrity => .evaluationIntegrityStarted
  | evaluatingScreen => .evaluationScreenStarted
  | evaluatingFinalist => .evaluationFinalistStarted
  | evaluatingConfirmation => .evaluationConfirmationStarted
  | rejected => .candidateRejected
  | quarantined => .candidateQuarantined
  | confirmed => .candidateConfirmed

def GenerationState.transition : GenerationState → Transition
  | promotionIntent => .generationPromotionIntent
  | canary => .generationCanaryStarted
  | rollout => .generationRolloutStarted
  | active => .generationActivated
  | rollbackPending => .generationRollbackStarted
  | rolledBack => .generationRolledBack
  | quarantined => .generationQuarantined

@[simp] theorem candidateTarget_transition (state : CandidateState) :
    state.transition.candidateTarget = some state := by
  cases state <;> rfl

@[simp] theorem generationTarget_transition (state : GenerationState) :
    state.transition.generationTarget = some state := by
  cases state <;> rfl

/-- What every request carries. -/
structure RequestBase where
  provenance : EventProvenance
  championHash : String
  reason : String
  actor : String
  timestampUtc : Option String

structure BootstrapRequest extends RequestBase where
  generationId : String

structure CandidateRequest (F : Type) extends RequestBase where
  candidateHash : String
  candidatePath : String
  target : CandidateState
  evaluationKey : Option String
  payload : Json F
  keyed : payload.keyed = true

/-- The champion of the request is the one that was tested. -/
structure GenerationRequest (F : Type) extends RequestBase where
  generationId : String
  candidateHash : String
  candidatePath : String
  target : GenerationState
  evaluationKey : Option String
  restoreChampionHash : Option String
  payload : Json F
  keyed : payload.keyed = true

structure PinRequest extends RequestBase where
  pinId : String
  referenceHash : String
  kind : String
  owner : String

structure UnpinRequest extends RequestBase where
  pinId : String

variable {F : Type}

/-- The answer to a request: an event of the log, nothing to do, or an event to append. -/
inductive Answer (F : Type) where
  | recorded (event : PromotionEvent F)
  | nothing
  | append (transition : Transition) (args : EventArgs F)

def RequestBase.args (base : RequestBase) (candidate : Option (String × String)) (evaluationKey : Option String)
    (payload : JsonObject F) : EventArgs F where
  provenance := base.provenance
  championHash := base.championHash
  reason := base.reason
  actor := base.actor
  candidateHash := candidate.map Prod.fst
  candidatePath := candidate.map Prod.snd
  evaluationKey := evaluationKey
  payload := .obj payload.fields
  keyed := payload.keyed

def sameProvenance (event : PromotionEvent F) (provenance : EventProvenance) : Prop :=
  event.controllerHash = provenance.controllerHash ∧ event.sourceHash = provenance.sourceHash ∧
    event.originalHash = provenance.originalHash ∧ event.configHash = provenance.configHash ∧
    event.scheduleHash = provenance.scheduleHash ∧ event.policyHash = provenance.policyHash

instance (event : PromotionEvent F) (provenance : EventProvenance) : Decidable (sameProvenance event provenance) :=
  inferInstanceAs (Decidable (_ ∧ _))

/-- The path that a candidate comes from, when a request gives it another one. -/
def mergePreviousPath (recorded path : String) (merged : JsonObject F) : Checked (JsonObject F) :=
  if recorded ≠ path then do
    let supplied := Json.get merged.fields "previous_candidate_path"
    require (supplied.isNull = true ∨ supplied.isStr recorded = true)
      (.illegal "payload previous_candidate_path conflicts with registry state")
    return merged.setStr "previous_candidate_path" recorded
  else .ok merged

/-- A retry does not have to repeat the path that the candidate came from. -/
def inheritPreviousPath (event : PromotionEvent F) (merged : JsonObject F) : List (String × Json F) :=
  if "previous_candidate_path" ∉ merged.fields.map Prod.fst ∧
      "previous_candidate_path" ∈ event.payload.map Prod.fst then
    setField merged.fields "previous_candidate_path" (Json.get event.payload "previous_candidate_path")
  else merged.fields

/-- The last event of the log that is as described. -/
def RegistryState.lastEvent (state : RegistryState F) (described : PromotionEvent F → Bool) :
    Option (PromotionEvent F) :=
  state.events.reverse.find? described

section Answers

variable [Runtime F]

/-- The payload of a request that no caller chose. -/
def BootstrapRequest.payload (request : BootstrapRequest) : JsonObject F :=
  ⟨[("generation_id", .str request.generationId)], by simp [Json.keyed, Json.keyedFields]⟩

def BootstrapRequest.answer (request : BootstrapRequest) (registry : EventRegistry) : Checked (Answer F) := do
  let state : RegistryState F ← registry.reconstruct
  if state.currentChampionHash ≠ none then
    match state.events.head? with
    | some first =>
        if first.transition = .championBootstrapped ∧ first.championHash = request.championHash ∧
            (Json.get first.payload "generation_id").isStr request.generationId = true ∧
            sameProvenance first request.provenance then
          return .recorded first
        else .error ⟨.championConflict, "registry champion is already bootstrapped"⟩
    | none => .error ⟨.championConflict, "registry champion is already bootstrapped"⟩
  else
    return .append .championBootstrapped (request.args none none request.payload)

/-- Whether a candidate that is being confirmed enters confirmation again, under another key. -/
def CandidateRequest.confirmationReentry (request : CandidateRequest F) (existing : CandidateRecord) : Prop :=
  existing.state = request.target ∧ request.target = .evaluatingConfirmation ∧ request.evaluationKey ≠ none ∧
    request.evaluationKey ≠ existing.evaluationKey

instance (request : CandidateRequest F) (existing : CandidateRecord) :
    Decidable (request.confirmationReentry existing) :=
  inferInstanceAs (Decidable (_ ∧ _))

variable [NumberEq F]

/-- A request that was carried out before is answered with its event. -/
def CandidateRequest.retry (request : CandidateRequest F) (state : RegistryState F) (existing : CandidateRecord)
    (merged : JsonObject F) : Checked (Answer F) := do
  require (existing.candidatePath = request.candidatePath)
    (.illegal "idempotent candidate retry changed the destination path")
  match state.lastEvent fun event => event.transition = request.target.transition ∧
      event.candidateHash = some request.candidateHash with
  | none => .error (.corrupt "candidate state has no originating event")
  | some event => do
      require (event.candidatePath = some request.candidatePath ∧ event.championHash = request.championHash ∧
        event.evaluationKey = request.evaluationKey ∧ sameProvenance event request.provenance ∧
        sameJson (.obj event.payload) (.obj (inheritPreviousPath event merged)) = true)
        (.illegal "idempotent candidate retry changed immutable metadata")
      return .recorded event

def CandidateRequest.append (request : CandidateRequest F) (merged : JsonObject F) : Answer F :=
  .append request.target.transition
    (request.args (some (request.candidateHash, request.candidatePath)) request.evaluationKey merged)

def CandidateRequest.answer (request : CandidateRequest F) (registry : EventRegistry) : Checked (Answer F) := do
  let state : RegistryState F ← registry.reconstruct
  let merged ← JsonObject.copy request.payload request.keyed
  match state.candidates.get request.candidateHash with
  | none => return request.append merged
  | some existing =>
      if existing.state = request.target ∧ ¬request.confirmationReentry existing then
        request.retry state existing merged
      else do
        return request.append (← mergePreviousPath existing.candidatePath request.candidatePath merged)

/-- The payload with the generation, and with the champion to restore where there is one; the
caller may have put them there already. -/
def GenerationRequest.merge (request : GenerationRequest F) : Checked (JsonObject F) := do
  let merged ← JsonObject.copy request.payload request.keyed
  let supplied := Json.get merged.fields "generation_id"
  require (supplied.isNull = true ∨ supplied.isStr request.generationId = true)
    (.illegal "payload generation_id conflicts with argument")
  let merged := merged.setStr "generation_id" request.generationId
  if request.target = .rollbackPending ∨ request.target = .rolledBack then
    match request.restoreChampionHash with
    | none => .error (.illegal s!"{request.target.value} requires restore_champion_hash")
    | some restore => do
        let supplied := Json.get merged.fields "restore_champion_hash"
        require (supplied.isNull = true ∨ supplied.isStr restore = true)
          (.illegal "payload restore_champion_hash conflicts with argument")
        return merged.setStr "restore_champion_hash" restore
  else return merged

def GenerationRequest.retry (request : GenerationRequest F) (state : RegistryState F) (existing : GenerationRecord)
    (merged : JsonObject F) : Checked (Answer F) := do
  require (existing.candidateHash = request.candidateHash ∧ existing.candidatePath = some request.candidatePath ∧
    existing.previousChampionHash = some request.championHash)
    (.illegal "idempotent generation retry changed immutable identity")
  match state.lastEvent fun event => event.transition = request.target.transition ∧
      (Json.get event.payload "generation_id").isStr request.generationId = true with
  | none => .error (.corrupt "generation state has no originating event")
  | some event => do
      require (event.evaluationKey = request.evaluationKey ∧ sameProvenance event request.provenance ∧
        sameJson (.obj event.payload) (.obj (inheritPreviousPath event merged)) = true)
        (.illegal "idempotent generation retry changed immutable metadata")
      return .recorded event

def GenerationRequest.append (request : GenerationRequest F) (merged : JsonObject F) : Answer F :=
  .append request.target.transition
    (request.args (some (request.candidateHash, request.candidatePath)) request.evaluationKey merged)

def GenerationRequest.answer (request : GenerationRequest F) (registry : EventRegistry) : Checked (Answer F) := do
  let merged ← request.merge
  let state : RegistryState F ← registry.reconstruct
  match state.generations.get request.generationId with
  | none =>
      match state.candidates.get request.candidateHash with
      | none => return request.append merged
      | some candidate =>
          return request.append (← mergePreviousPath candidate.candidatePath request.candidatePath merged)
  | some existing =>
      if existing.state = request.target then request.retry state existing merged
      else return request.append merged

omit [NumberEq F]

def PinRequest.payload (request : PinRequest) : JsonObject F :=
  ⟨[("pin_id", .str request.pinId), ("reference_hash", .str request.referenceHash), ("kind", .str request.kind),
    ("owner", .str request.owner)], by simp [Json.keyed, Json.keyedFields]⟩

/-- The event that pinned a reference under this identifier last. -/
def RegistryState.lastPin (state : RegistryState F) (pinId : String) : Option (PromotionEvent F) :=
  state.lastEvent fun event => event.transition = .referencePinned ∧
    (Json.get event.payload "pin_id").isStr pinId = true

/-- A pin that is active is answered with its event, or it is an error. -/
def PinRequest.retry (request : PinRequest) (state : RegistryState F) (existing : ReferencePin) :
    Checked (Answer F) := do
  let conflict : PromotionError := .illegal s!"active pin {reprText request.pinId} conflicts with retry"
  require (existing.referenceHash = request.referenceHash ∧ existing.kind = request.kind ∧
    existing.owner = request.owner ∧ existing.reason = request.reason) conflict
  match state.lastPin request.pinId with
  | none => .error conflict
  | some event => do
      require (event.championHash = request.championHash ∧ sameProvenance event request.provenance)
        (.illegal s!"active pin {reprText request.pinId} changed provenance")
      return .recorded event

/-- Pin identifiers are used once: a delayed retry after an unpin does not pin again. -/
def PinRequest.answer (request : PinRequest) (registry : EventRegistry) : Checked (Answer F) := do
  let state : RegistryState F ← registry.reconstruct
  match state.pins.get request.pinId with
  | some existing => request.retry state existing
  | none =>
      match state.lastPin request.pinId with
      | some event => do
          require ((Json.get event.payload "reference_hash").isStr request.referenceHash = true ∧
            (Json.get event.payload "kind").isStr request.kind = true ∧
            (Json.get event.payload "owner").isStr request.owner = true ∧ event.reason = request.reason ∧
            event.championHash = request.championHash ∧ sameProvenance event request.provenance)
            (.illegal s!"historical pin {reprText request.pinId} conflicts with retry")
          return .recorded event
      | none => return .append .referencePinned (request.args none none request.payload)

def UnpinRequest.answer (request : UnpinRequest) (registry : EventRegistry) : Checked (Answer F) := do
  let state : RegistryState F ← registry.reconstruct
  match state.pins.get request.pinId with
  | none => return .nothing
  | some existing =>
      return .append .referenceUnpinned (request.args none none
        ⟨[("pin_id", .str request.pinId), ("reference_hash", .str existing.referenceHash)],
          by simp [Json.keyed, Json.keyedFields]⟩)

end Answers

/-- The requests; an event may also be appended directly. -/
inductive Request (F : Type) where
  | bootstrap (request : BootstrapRequest)
  | candidate (request : CandidateRequest F)
  | generation (request : GenerationRequest F)
  | pin (request : PinRequest)
  | unpin (request : UnpinRequest)
  | direct (transition : Transition) (args : EventArgs F) (timestampUtc : Option String)

namespace Request

variable [Runtime F] [NumberEq F]

def answer (request : Request F) (registry : EventRegistry) : Checked (Answer F) :=
  match request with
  | .bootstrap request => request.answer registry
  | .candidate request => request.answer registry
  | .generation request => request.answer registry
  | .pin request => request.answer registry
  | .unpin request => request.answer registry
  | .direct transition args _ => .ok (.append transition args)

def timestampUtc : Request F → Option String
  | .bootstrap request => request.timestampUtc
  | .candidate request => request.timestampUtc
  | .generation request => request.timestampUtc
  | .pin request => request.timestampUtc
  | .unpin request => request.timestampUtc
  | .direct _ _ timestampUtc => timestampUtc

/-- What a request returns, and the registry after it. -/
def issue (request : Request F) (registry : EventRegistry) (now : String) :
    Checked (Option (PromotionEvent F)) × EventRegistry :=
  match request.answer registry with
  | .error e => (.error e, registry)
  | .ok (.recorded event) => (.ok (some event), registry)
  | .ok .nothing => (.ok none, registry)
  | .ok (.append transition args) =>
      let appended := registry.appendEvent transition.value args request.timestampUtc now
      (appended.1.map some, appended.2)

/-- The registry after requests, each with the time at which it is issued. -/
def issueAll (registry : EventRegistry) (requests : List (Request F × String)) : EventRegistry :=
  requests.foldl (fun registry request => (request.1.issue registry request.2).2) registry

end Request
end KataGo.Promotion
