import KataGo.Suite.Registry

/-! The calls of `SuiteRotationRegistry`. All of them hold the lock of the registry, so that they
come one after another. -/

namespace KataGo.Suite
open KataGo.Lib

/-- What a call does to the directory of the registry. Files under temporary names are never
read, and neither is the status. -/
inductive Effect where
  | temporary
  | status
  | active (r : ActiveRecord)
  | event (sequence : Nat) (e : RegistryEvent)
  | suite (v : ValidatedSuite)
  | version (v : SuiteVersion)
  | bundle (requestId : String) (b : RequestBundle)
  | snapshot (path sha256 : String) (receipt : ContinuityReceipt)
  deriving DecidableEq

def Effect.act (s : Store) : Effect → Store
  | temporary => s
  | status => s
  | active r => { s with active := some r }
  | event sequence e => { s with events := s.events ++ [(sequence, e)] }
  | suite v => { s with suites := s.suites.set v.suiteId v }
  | version v => { s with versions := s.versions.set v.suiteId v }
  | bundle requestId b => { s with requests := s.requests.set requestId b }
  | snapshot path sha256 receipt => { s with continuity := s.continuity.set path (sha256, receipt) }

instance : Acts Effect Store := ⟨fun e s => e.act s⟩

abbrev Os := Program Effect Store Error

/-- What surrounds a call: the clock when the call reads it, and when an event is appended, and
whether the projections can be replaced. -/
structure World where
  now : Except Error Int
  later : Except Error Int
  projection : Except Error Unit

inductive Answer where
  | event (e : RegistryEvent)
  | pin (p : Recorded Pin)
  | nothing
  | status
  deriving DecidableEq

/-- An answer that is there already, or an event to append. -/
inductive Decision where
  | existing (answer : Answer)
  | append (payload : Payload)
  deriving DecidableEq

namespace Registry

variable (c : Registry) (w : World)

def finalize (e : RegistryEvent) : RegistryEvent := { e with eventSha256 := c.canonicalSha256 (e.bodyJson c) }

/-- `_publish_canonical` of a file that must not be there. -/
def create (absent : Bool) (message : String) (e : Effect) : Os Unit := do
  Program.perform .temporary
  if absent then
    Program.perform e
    Program.perform .temporary
  else
    Program.perform .temporary
    Program.raise (.conflict s!"immutable file already exists: {message}")

def appendEvent (payload : Payload) (timestamp : Option Int) : Os RegistryEvent := do
  let store ← Program.read
  let state ← Program.lift (c.reconstruct store)
  let now ← Program.lift (match timestamp with
    | some t => .ok t
    | none => w.later)
  Program.lift (require (∀ last ∈ state.events.getLast?, last.timestamp ≤ now) (.conflict "event timestamp would regress"))
  let e := c.finalize ⟨state.lastSequence + 1, state.lastEventSha256, now, payload, ""⟩
  create (store.events.all fun file => file.1 ≠ e.sequence) "event" (.event e.sequence e)
  return e

def conclude (decision : Decision) (timestamp : Option Int) : Os Answer :=
  match decision with
  | .existing answer => return answer
  | .append payload => do return .event (← c.appendEvent w payload timestamp)

/-- The champion that the payload of an activation names. -/
def activationChampion : Payload → Option String
  | .activated p => some p.expectedChampionSha256
  | .bootstrapped p => some p.champion.sha256
  | .accepted p => some p.champion.sha256
  | _ => none

def activationGeneration : Payload → Option String
  | .bootstrapped p => some p.generationId
  | .accepted p => some p.generationId
  | .pinned p => some p.generationId
  | .unpinned p => some p.generationId
  | .requested p => some p.generationId
  | .boundary p => some p.generationId
  | .activated p => some p.generationId
  | _ => none

/-- The record of the active suite, if there is one. -/
def activeProjection (state : RegistryState) : Except Error (Option ActiveRecord) :=
  match state.activeSuiteId, state.currentChampion with
  | some active, some _ =>
      match state.versions.get active, state.events.reverse.find? fun e => e.sequence = state.activeActivationSequence with
      | some version, some activation =>
          let value : ActiveRecord := ⟨c.spec.identity, version.suiteId, version.versionSha256, version.manifestPath,
            version.manifestSha256, version.manifestIdentity, state.activeSuiteActivatedAt, activationChampion activation.payload,
            activationGeneration activation.payload, activation.sequence, activation.eventSha256, ""⟩
          .ok (some { value with recordSha256 := c.canonicalSha256 (value.payloadJson c.formatUtc) })
      | none, _ => .error (.value active)
      | _, none => .error (.value "no activation event")
  | _, _ => .ok none

/-- Write `active-suite.json` unless it agrees with the log. -/
def repairActiveProjection (state : RegistryState) : Os Unit := do
  let expected ← Program.lift (c.activeProjection state)
  match expected with
  | none => pure ()
  | some value => do
      let store ← Program.read
      if store.active = some value then pure ()
      else do
        Program.lift w.projection
        Program.perform .temporary
        Program.perform (.active value)

/-- The first event of the log that satisfies a condition. -/
def findEvent (state : RegistryState) (found : RegistryEvent → Bool) (error : Error) : Except Error Decision :=
  match state.events.find? found with
  | some e => .ok (.existing (.event e))
  | none => .error error

/-- The record that `_publish_suite` writes for a suite. -/
def versionOf (v : ValidatedSuite) : SuiteVersion :=
  let version : SuiteVersion := ⟨v.suiteId, c.manifestPath v.suiteId, v.manifestSha256, v.manifestIdentity, v.originalSha256,
    v.championSha256, c.semanticSummary v, v.artifacts, ""⟩
  { version with versionSha256 := c.canonicalSha256 (version.payloadJson c.spec) }

def publishSuite (v : ValidatedSuite) : Os SuiteVersion := do
  let store ← Program.read
  if (store.suites.get v.suiteId).isNone then
    Program.perform .temporary
    Program.perform (.suite v)
  let store ← Program.read
  match store.suites.get v.suiteId with
  | none => Program.raise (.value "suite manifest must be a regular non-symlink file")
  | some copied => do
      Program.lift do
        let copied ← expectChampion copied v.championSha256
        require (copied.suiteId = v.suiteId ∧ copied.artifacts = v.artifacts)
          (.corruption "published suite snapshot is contradictory")
      match store.versions.get v.suiteId with
      | some existing =>
          Program.lift (require (existing = c.versionOf v) (.corruption "suite version record is contradictory"))
      | none => create true "version" (.version (c.versionOf v))
      let store ← Program.read
      Program.lift (c.loadVersion store v.suiteId)

def bootstrapRetry (state : RegistryState) (active : String) (previous : Option String) : Except Error RegistryEvent :=
  match state.events, (state.versions.get active).map SuiteVersion.championSha256 with
  | first :: _, some champion =>
      match first.payload with
      | .bootstrapped p =>
          if champion = c.spec.curationChampion.sha256 ∧ p.previousChampionSha256 = previous then .ok first
          else .error (.conflict "suite registry is already bootstrapped")
      | _ => .error (.conflict "suite registry is already bootstrapped")
  | _, _ => .error (.conflict "suite registry is already bootstrapped")

def bootstrap (suiteManifestPath : String) (previous : Option String) : Os Answer := do
  let store ← Program.read
  let state ← Program.lift (c.reconstruct store)
  match state.activeSuiteId with
  | some active => do
      let first ← Program.lift (c.bootstrapRetry state active previous)
      c.repairActiveProjection w state
      return .event first
  | none => do
      let validated ← Program.lift (c.suiteAt suiteManifestPath)
      let validated ← Program.lift (expectChampion validated c.spec.curationChampion.sha256)
      let version ← c.publishSuite validated
      Program.lift (match previous with
        | none => .ok ()
        | some hash => do
            let _ ← requireSha256 hash "previous champion hash"
            require (hash ≠ c.spec.initialChampion.sha256) (.conflict "previous champion must differ from initial champion"))
      let now ← Program.lift w.now
      let e ← c.appendEvent w (.bootstrapped ⟨version.suiteId, version.versionSha256, version.manifestSha256,
        version.manifestIdentity, c.spec.initialChampion.toModelBinding, previous, c.spec.initialChampion.generationId, now⟩) (some now)
      let store ← Program.read
      let state ← Program.lift (c.reconstruct store)
      c.repairActiveProjection w state
      return .event e

/-- What `record_accepted_champion` finds out before it appends. -/
def acceptance (state : RegistryState) (championPath generationId expectedPrevious : String) : Except Error Decision :=
  match state.currentChampion with
  | none => .error (.conflict "registry is not bootstrapped")
  | some current => do
      let generation ← requireId generationId "generation ID"
      let previous ← requireSha256 expectedPrevious "expected previous champion"
      let path ← c.absoluteFile championPath
      let championHash ← c.fileSha256 path
      let ofGeneration (e : RegistryEvent) : Option Acceptance :=
        match e.payload with
        | .accepted p => if p.generationId = generation then some p else none
        | _ => none
      match state.events.find? fun e => (ofGeneration e).isSome with
      | some e =>
          if ofGeneration e = some ⟨⟨"frozen_champion", path, championHash⟩, generation, previous⟩ then
            .ok (.existing (.event e))
          else .error (.conflict "champion generation conflicts with retry")
      | none => do
          require (current.sha256 = previous) (.staleChampion s!"expected champion {previous}, current is {current.sha256}")
          require (championHash ≠ previous) (.conflict "accepted champion must change content")
          return .append (.accepted ⟨⟨"frozen_champion", path, championHash⟩, generation, previous⟩)

def recordAcceptedChampion (championPath generationId expectedPrevious : String) (timestamp : Option Int) : Os Answer := do
  let store ← Program.read
  let state ← Program.lift (c.reconstruct store)
  let decision ← Program.lift (c.acceptance state championPath generationId expectedPrevious)
  c.conclude w decision timestamp

def pinning (state : RegistryState) (evaluationId : String) (expectedSuite expectedChampion : Option String) :
    Except Error Decision :=
  match state.activeSuiteId, state.currentChampion with
  | some active, some current => do
      let identifier ← requireId evaluationId "evaluation ID"
      match state.pins.get identifier with
      | some pin =>
          if (∀ suite ∈ expectedSuite, suite = pin.payload.suiteId) ∧
              (∀ champion ∈ expectedChampion, champion = pin.payload.championSha256) then
            return .existing (.pin pin)
          else .error (.pinConflict s!"evaluation {identifier} is already pinned")
      | none => do
          require (∀ suite ∈ expectedSuite, suite = active) (.staleActiveSuite "active suite changed before evaluation pin")
          require (∀ champion ∈ expectedChampion, champion = current.sha256)
            (.staleChampion "champion changed before evaluation pin")
          return .append (.pinned ⟨identifier, active, current.sha256, current.generationId⟩)
  | _, _ => .error (.conflict "registry is not bootstrapped")

def pinEvaluation (evaluationId : String) (expectedSuite expectedChampion : Option String) : Os Answer := do
  let store ← Program.read
  let state ← Program.lift (c.reconstruct store)
  let decision ← Program.lift (pinning state evaluationId expectedSuite expectedChampion)
  let answer ← c.conclude w decision none
  match answer with
  | .event _ => do
      let store ← Program.read
      let state ← Program.lift (c.reconstruct store)
      match state.pins.get evaluationId with
      | some pin => return .pin pin
      | none => Program.raise (.value evaluationId)
  | answer => return answer

def unpinning (state : RegistryState) (evaluationId : String) : Except Error Decision := do
  let identifier ← requireId evaluationId "evaluation ID"
  match state.pins.get identifier with
  | none => return .existing .nothing
  | some pin =>
      return .append (.unpinned pin.payload)

def unpinEvaluation (evaluationId : String) : Os Answer := do
  let store ← Program.read
  let state ← Program.lift (c.reconstruct store)
  let decision ← Program.lift (unpinning state evaluationId)
  c.conclude w decision none

/-- `_request_identity` -/
def requestIdentity (active : String) (current : Champion) (eligibility : RotationEligibility) : String :=
  "rotation-" ++ c.canonicalSha256 (.obj [("contract", .str "risk-score-evaluation-suite-rotation-request-v1"),
    ("base_suite_id", .str active), ("champion_sha256", .str current.sha256), ("generation_id", .str current.generationId),
    ("trigger_at_utc", optionalTime c.formatUtc eligibility.triggerAt)])

def childRequest (requestId : String) (champion : ModelBinding) (supplement : Option FileBinding) : ChildRequest :=
  let child : ChildRequest := ⟨requestId, champion, supplement, ""⟩
  { child with requestSha256 := c.canonicalSha256 (child.payloadJson c.spec (c.requestDirectory requestId)) }

def childBinding (path : String) (child : ChildRequest) : FileBinding :=
  ⟨path, c.canonicalFileSha256 (child.fileJson c.spec (c.requestDirectory child.requestId)), child.requestSha256⟩

/-- The bundle that `_publish_request_bundle` builds. -/
def requestBundle (active versionSha256 : String) (current : Champion) (eligibility : RotationEligibility) : RequestBundle :=
  let requestId := c.requestIdentity active current eligibility
  let supplement := c.childRequest requestId current.toModelBinding none
  let supplementBinding := c.childBinding (c.requestDirectory requestId ++ "/curation-supplement.json") supplement
  let pipeline := c.childRequest requestId current.toModelBinding (some supplementBinding)
  let pipelineBinding := c.childBinding (c.requestDirectory requestId ++ "/curation-pipeline.json") pipeline
  let request : RequestManifest :=
    ⟨requestId, active, versionSha256, current.toModelBinding, eligibility, supplementBinding, pipelineBinding, ""⟩
  ⟨supplement, pipeline, { request with requestSha256 := c.canonicalSha256 (request.payloadJson c.spec c.formatUtc) }⟩

/-- The binding of a manifest that is on the disk. -/
def manifestBinding (requestId : String) (onDisk request : RequestManifest) : FileBinding :=
  ⟨c.requestPath requestId, c.canonicalFileSha256 (onDisk.fileJson c.spec c.formatUtc), request.requestSha256⟩

def publishRequestBundle (bundle : RequestBundle) : Os Unit := do
  let store ← Program.read
  let requestId := bundle.manifest.requestId
  match store.requests.get requestId with
  | some existing =>
      Program.lift do
        let request ← c.validateRequestBinding store (c.manifestBinding requestId existing.manifest bundle.manifest) requestId
        require (request = bundle.manifest) (.corruption "rotation request bundle is contradictory")
  | none => do
      Program.perform .temporary
      Program.perform (.bundle requestId bundle)

def requestRotationLocked (state : RegistryState) (now : Int) : Os Answer := do
  let eligibility := rotationEligibility state.activeSuiteActivatedAt state.acceptedChampionTimestamps now
  match eligibility.eligible, state.activeSuiteId, state.currentChampion with
  | true, some active, some current => do
      let requestId := c.requestIdentity active current eligibility
      match state.requests.get requestId with
      | some _ => do
          let decision ← Program.lift (findEvent state (fun e => match e.payload with
            | .requested p => p.requestId = requestId
            | _ => false) (.corruption "request state has no event"))
          c.conclude w decision none
      | none =>
          match (state.versions.get active).map SuiteVersion.versionSha256 with
          | none => Program.raise (.value active)
          | some versionSha256 => do
              let bundle := c.requestBundle active versionSha256 current eligibility
              c.publishRequestBundle bundle
              let store ← Program.read
              match store.requests.get requestId with
              | none => Program.raise (.os "rotation request manifest")
              | some onDisk =>
                  c.conclude w (.append (.requested ⟨requestId, c.manifestBinding requestId onDisk.manifest bundle.manifest,
                    active, current.sha256, current.generationId, eligibility.triggerAt⟩)) (some now)
  | _, _, _ => return .nothing

def requestRotation : Os Answer := do
  let store ← Program.read
  let state ← Program.lift (c.reconstruct store)
  if state.activeSuiteId.isNone then
    Program.raise (.conflict "registry is not bootstrapped")
  else do
    let now ← Program.lift w.now
    c.requestRotationLocked w state now

/-- A registration that is there already. -/
def registration (state : RegistryState) (requestId : String) (v : ValidatedSuite) : Except Error (Option RegistryEvent) :=
  match state.registrations.get v.suiteId with
  | none => .ok none
  | some existing =>
      let found := state.events.find? fun e => match e.payload with
        | .registered p => p.suiteId = v.suiteId
        | _ => false
      match found with
      | some e =>
          if existing.payload.requestId = requestId then .ok (some e)
          else .error (.conflict "suite is already registered to another request")
      | none => .error (.conflict "suite is already registered to another request")

def registerSuite (requestId suiteManifestPath : String) : Os Answer := do
  let store ← Program.read
  let state ← Program.lift (c.reconstruct store)
  let identifier ← Program.lift (requireId requestId "request ID")
  match state.requests.get identifier with
  | none => Program.raise (.conflict s!"unknown rotation request: {identifier}")
  | some request => do
      let validated ← Program.lift (c.suiteAt suiteManifestPath)
      let validated ← Program.lift (expectChampion validated request.payload.championSha256)
      let existing ← Program.lift (registration state identifier validated)
      match existing with
      | some e => return .event e
      | none => do
          let version ← c.publishSuite validated
          c.conclude w (.append (.registered ⟨identifier, version.suiteId, version.versionSha256, version.manifestSha256,
            version.manifestIdentity, version.championSha256⟩)) none

def recordContinuity (requestId suiteId manifestPath : String) : Os Answer := do
  let store ← Program.read
  let state ← Program.lift (c.reconstruct store)
  let requestId ← Program.lift (requireId requestId "request ID")
  let suiteId ← Program.lift (requireSha256 suiteId "suite ID")
  match (state.registrations.get suiteId).map (fun r => r.payload.requestId), state.requests.get requestId, state.currentChampion with
  | some registered, some request, some current =>
      if registered ≠ requestId then Program.raise (.conflict "suite is not registered to this request")
      else do
        let source ← Program.lift (c.absoluteFile manifestPath)
        let (sha256, content) ← Program.lift (c.readContinuity store source)
        let receipt ← Program.lift (c.validateContinuityBinding store ⟨source, sha256, content.manifestSha256⟩ requestId suiteId
          request.payload.baseSuiteId current.sha256 state.previousChampionSha256)
        match state.continuity.get suiteId with
        | some existing =>
            if existing.payload.manifest.identity = receipt.manifestSha256 then do
              let decision ← Program.lift (findEvent state (fun e => match e.payload with
                | .continuity p => p.suiteId = suiteId
                | _ => false) (.conflict "suite continuity receipt conflicts"))
              c.conclude w decision none
            else Program.raise (.conflict "suite continuity receipt conflicts")
        | none => do
            let destination := c.continuityPath sha256
            match store.continuity.get destination with
            | some existing =>
                Program.lift (require (existing = (sha256, content)) (.corruption "continuity snapshot is contradictory"))
            | none => create true "continuity" (.snapshot destination sha256 content)
            c.conclude w (.append (.continuity ⟨requestId, suiteId, ⟨destination, sha256, receipt.manifestSha256⟩, current.sha256,
              state.previousChampionSha256⟩)) none
  | _, _, _ => Program.raise (.conflict "suite is not registered to this request")

def boundaryDecision (state : RegistryState) (boundaryId generationId championSha256 : String) : Except Error Decision := do
  let boundaryId ← requireId boundaryId "boundary ID"
  let generationId ← requireId generationId "generation ID"
  let championSha256 ← requireSha256 championSha256 "champion hash"
  match state.boundaries.get boundaryId with
  | some existing =>
      if existing.payload.generationId = generationId ∧ existing.payload.championSha256 = championSha256 then
        findEvent state (fun e => match e.payload with
          | .boundary p => p.boundaryId = boundaryId
          | _ => false) (.conflict "generation boundary conflicts with retry")
      else .error (.conflict "generation boundary conflicts with retry")
  | none => do
      require (state.currentChampion.map (fun current => (current.sha256, current.generationId)) = some (championSha256, generationId))
        (.staleChampion "generation boundary names a stale champion")
      return .append (.boundary ⟨boundaryId, championSha256, generationId, true⟩)

def recordBoundaryLocked (state : RegistryState) (boundaryId generationId championSha256 : String) : Os Answer := do
  let decision ← Program.lift (boundaryDecision state boundaryId generationId championSha256)
  c.conclude w decision none

def recordGenerationBoundary (boundaryId generationId championSha256 : String) : Os Answer := do
  let store ← Program.read
  let state ← Program.lift (c.reconstruct store)
  c.recordBoundaryLocked w state boundaryId generationId championSha256

/-- The activation that has made a suite the active one, if it is the one that is asked for. -/
def activationRetry (state : RegistryState) (requestId suiteId expectedActive expectedChampion boundaryId : String) :
    Except Error (Option RegistryEvent) :=
  if state.activeSuiteId ≠ some suiteId then .ok none
  else
    let activations := state.events.reverse.filterMap fun e => match e.payload with
      | .activated p => if p.suiteId = suiteId then some (e, p) else none
      | _ => none
    match activations with
    | [] => .error (.corruption "active suite has no activation event")
    | (e, p) :: _ =>
        if p.requestId = requestId ∧ p.previousSuiteId = expectedActive ∧ p.expectedChampionSha256 = expectedChampion ∧
            p.boundaryId = boundaryId then .ok (some e)
        else .error (.conflict "suite is active with different activation metadata")

def activation (state : RegistryState) (requestId suiteId expectedActive expectedChampion boundaryId : String) :
    Except Error Payload := do
  require (state.activeSuiteId = some expectedActive) (.staleActiveSuite s!"expected active suite {expectedActive}")
  match state.currentChampion with
  | none => .error (.staleChampion "champion changed before suite activation")
  | some current => do
      require (current.sha256 = expectedChampion) (.staleChampion "champion changed before suite activation")
      match state.requests.get requestId, state.registrations.get suiteId, state.continuity.get suiteId with
      | some request, some registration, some receipt => do
          require (registration.payload.requestId = requestId ∧ receipt.payload.requestId = requestId)
            (.blocked "suite registration and continuity replay are incomplete")
          require (request.payload.baseSuiteId = expectedActive) (.staleActiveSuite "rotation request names a stale base suite")
          require (request.payload.championSha256 = expectedChampion) (.staleChampion "rotation request names a stale champion")
          match state.boundaries.get boundaryId with
          | none => .error (.blocked "clean generation boundary was not observed")
          | some boundary => do
              require (boundary.payload.championSha256 = expectedChampion ∧ boundary.payload.generationId = current.generationId ∧
                  receipt.sequence < boundary.sequence)
                (.blocked "generation boundary is stale or predates continuity replay")
              require (state.pins.isEmpty = true) (.blocked "conflicting in-flight evaluations remain pinned")
              return .activated ⟨requestId, suiteId, expectedActive, expectedChampion, current.generationId, boundaryId,
                receipt.payload.manifest.sha256⟩
      | _, _, _ => .error (.blocked "suite registration and continuity replay are incomplete")

def activateSuite (requestId suiteId expectedActive expectedChampion boundaryId : String) : Os Answer := do
  let store ← Program.read
  let state ← Program.lift (c.reconstruct store)
  let requestId ← Program.lift (requireId requestId "request ID")
  let suiteId ← Program.lift (requireSha256 suiteId "suite ID")
  let expectedActive ← Program.lift (requireSha256 expectedActive "expected active suite ID")
  let expectedChampion ← Program.lift (requireSha256 expectedChampion "expected champion hash")
  let boundaryId ← Program.lift (requireId boundaryId "boundary ID")
  let retry ← Program.lift (activationRetry state requestId suiteId expectedActive expectedChampion boundaryId)
  match retry with
  | some e => do
      c.repairActiveProjection w state
      return .event e
  | none => do
      let payload ← Program.lift (activation state requestId suiteId expectedActive expectedChampion boundaryId)
      let e ← c.appendEvent w payload none
      let store ← Program.read
      let state ← Program.lift (c.reconstruct store)
      c.repairActiveProjection w state
      return .event e

/-- Run one deterministic request/reconcile/activation pass. -/
def once (boundaryId generationId championSha256 : Option String) : Os Answer := do
  Program.lift (require ((boundaryId.isSome = generationId.isSome) ∧ (generationId.isSome = championSha256.isSome))
    (.value "boundary_id, generation_id, and champion_sha256 are all required together"))
  let now ← Program.lift w.now
  let store ← Program.read
  let state ← Program.lift (c.reconstruct store)
  c.repairActiveProjection w state
  match boundaryId, generationId, championSha256 with
  | some boundaryId, some generationId, some championSha256 => do
      let _ ← c.recordBoundaryLocked w state boundaryId generationId championSha256
  | _, _, _ => pure ()
  let store ← Program.read
  let state ← Program.lift (c.reconstruct store)
  if state.activeSuiteId.isSome then
    let _ ← c.requestRotationLocked w state now
  let store ← Program.read
  let state ← Program.lift (c.reconstruct store)
  c.repairActiveProjection w state
  Program.lift w.projection
  Program.perform .status
  return .status

end Registry
end KataGo.Suite
