import KataGo.Suite.Types

/-! `SuiteRotationRegistry.reconstruct`: the state of the registry is read from its event files. -/

namespace KataGo.Suite
open KataGo.Lib

structure Pin where
  evaluationId : String
  suiteId : String
  championSha256 : String
  generationId : String
  deriving DecidableEq

structure Bootstrap where
  suiteId : String
  versionSha256 : String
  manifestSha256 : String
  manifestIdentity : String
  champion : ModelBinding
  previousChampionSha256 : Option String
  generationId : String
  activatedAt : Int
  deriving DecidableEq

structure Acceptance where
  champion : ModelBinding
  generationId : String
  previousChampionSha256 : String
  deriving DecidableEq

structure Request where
  requestId : String
  requestManifest : FileBinding
  baseSuiteId : String
  championSha256 : String
  generationId : String
  triggerAt : Option Int
  deriving DecidableEq

structure Registration where
  requestId : String
  suiteId : String
  versionSha256 : String
  manifestSha256 : String
  manifestIdentity : String
  curationChampionSha256 : String
  deriving DecidableEq

structure Continuity where
  requestId : String
  suiteId : String
  manifest : FileBinding
  currentChampionSha256 : String
  previousChampionSha256 : Option String
  deriving DecidableEq

structure Boundary where
  boundaryId : String
  championSha256 : String
  generationId : String
  clean : Bool
  deriving DecidableEq

structure Activation where
  requestId : String
  suiteId : String
  previousSuiteId : String
  expectedChampionSha256 : String
  generationId : String
  boundaryId : String
  continuityManifestSha256 : String
  deriving DecidableEq

inductive Payload where
  | bootstrapped (p : Bootstrap)
  | accepted (p : Acceptance)
  | pinned (p : Pin)
  | unpinned (p : Pin)
  | requested (p : Request)
  | registered (p : Registration)
  | continuity (p : Continuity)
  | boundary (p : Boundary)
  | activated (p : Activation)
  deriving DecidableEq

def Pin.toJson (p : Pin) : Json Empty :=
  .obj [("evaluation_id", .str p.evaluationId), ("suite_id", .str p.suiteId), ("champion_sha256", .str p.championSha256),
    ("generation_id", .str p.generationId)]

namespace Payload

def eventType : Payload → String
  | bootstrapped _ => "registry.bootstrapped"
  | accepted _ => "champion.accepted"
  | pinned _ => "evaluation.pinned"
  | unpinned _ => "evaluation.unpinned"
  | requested _ => "rotation.requested"
  | registered _ => "suite.registered"
  | continuity _ => "continuity.recorded"
  | boundary _ => "generation.boundary"
  | activated _ => "suite.activated"

def toJson (formatUtc : Int → String) : Payload → Json Empty
  | bootstrapped p =>
      .obj [("suite_id", .str p.suiteId), ("version_sha256", .str p.versionSha256), ("manifest_sha256", .str p.manifestSha256),
        ("manifest_identity", .str p.manifestIdentity), ("champion", p.champion.toJson),
        ("previous_champion_sha256", optional p.previousChampionSha256), ("generation_id", .str p.generationId),
        ("activated_at_utc", .str (formatUtc p.activatedAt))]
  | accepted p =>
      .obj [("champion", p.champion.toJson), ("generation_id", .str p.generationId),
        ("previous_champion_sha256", .str p.previousChampionSha256)]
  | pinned p => p.toJson
  | unpinned p => p.toJson
  | requested p =>
      .obj [("request_id", .str p.requestId), ("request_manifest", p.requestManifest.toJson), ("base_suite_id", .str p.baseSuiteId),
        ("champion_sha256", .str p.championSha256), ("generation_id", .str p.generationId),
        ("trigger_at_utc", optionalTime formatUtc p.triggerAt)]
  | registered p =>
      .obj [("request_id", .str p.requestId), ("suite_id", .str p.suiteId), ("version_sha256", .str p.versionSha256),
        ("manifest_sha256", .str p.manifestSha256), ("manifest_identity", .str p.manifestIdentity),
        ("curation_champion_sha256", .str p.curationChampionSha256)]
  | continuity p =>
      .obj [("request_id", .str p.requestId), ("suite_id", .str p.suiteId), ("manifest", p.manifest.toJson),
        ("current_champion_sha256", .str p.currentChampionSha256),
        ("previous_champion_sha256", optional p.previousChampionSha256)]
  | boundary p =>
      .obj [("boundary_id", .str p.boundaryId), ("champion_sha256", .str p.championSha256),
        ("generation_id", .str p.generationId), ("clean", .bool p.clean)]
  | activated p =>
      .obj [("request_id", .str p.requestId), ("suite_id", .str p.suiteId), ("previous_suite_id", .str p.previousSuiteId),
        ("expected_champion_sha256", .str p.expectedChampionSha256), ("generation_id", .str p.generationId),
        ("boundary_id", .str p.boundaryId), ("continuity_manifest_sha256", .str p.continuityManifestSha256)]

end Payload

structure RegistryEvent where
  sequence : Nat
  previousEventSha256 : String
  timestamp : Int
  payload : Payload
  eventSha256 : String
  deriving DecidableEq

/-- A registry with its specification, and what it finds outside its own directory: the files
that are referred to, `canonical_sha256`, the hash of a canonical file, and `_format_utc`. -/
structure Registry where
  spec : Spec
  absoluteFile : String → Except Error String
  fileSha256 : String → Except Error String
  suiteAt : String → Except Error ValidatedSuite
  continuityAt : String → Except Error ContinuityReceipt
  canonicalSha256 : Json Empty → String
  canonicalFileSha256 : Json Empty → String
  formatUtc : Int → String

/-- The files of the registry, with what `active-suite.json` holds if it can be read. -/
structure Store where
  events : List (Nat × RegistryEvent)
  suites : Dict String ValidatedSuite
  versions : Dict String SuiteVersion
  requests : Dict String RequestBundle
  continuity : Dict String (String × ContinuityReceipt)
  active : Option ActiveRecord

def Store.empty : Store := ⟨[], .empty, .empty, .empty, .empty, none⟩

def genesisHash : String := String.ofList (List.replicate 64 '0')

def RegistryEvent.bodyJson (c : Registry) (e : RegistryEvent) : Json Empty :=
  .obj [("schema_version", .int 1), ("contract", .str "risk-score-evaluation-suite-registry-event-v1"),
    ("sequence", .int e.sequence), ("previous_event_sha256", .str e.previousEventSha256),
    ("timestamp_utc", .str (c.formatUtc e.timestamp)), ("spec_sha256", .str c.spec.identity),
    ("event_type", .str e.payload.eventType), ("payload", e.payload.toJson c.formatUtc)]

/-- A fact that an event has left, with the sequence of the event. -/
structure Recorded (α : Type) where
  payload : α
  sequence : Nat
  deriving DecidableEq

structure RegistryState where
  events : List RegistryEvent
  versions : Dict String SuiteVersion
  requests : Dict String (Recorded Request)
  registrations : Dict String (Recorded Registration)
  continuity : Dict String (Recorded Continuity)
  boundaries : Dict String (Recorded Boundary)
  pins : Dict String (Recorded Pin)
  championHistory : Dict String Champion
  activeSuiteId : Option String
  activeSuiteActivatedAt : Option Int
  activeActivationSequence : Nat
  currentChampion : Option Champion
  previousChampionSha256 : Option String
  acceptedChampionTimestamps : List Int
  lastSequence : Nat
  lastEventSha256 : String

/-- Return frozen cadence eligibility; candidate results are not an input. -/
def rotationEligibility (activatedAt : Option Int) (accepted : List Int) (now : Int) : RotationEligibility :=
  match activatedAt with
  | none => ⟨false, [], accepted.length, acceptedChampionInterval - accepted.length, none, none⟩
  | some activated =>
      let deadline := activated + maximumAge
      let interval := ((accepted[acceptedChampionInterval - 1]?).filter fun fifth => fifth ≤ now)
      let aged := if deadline ≤ now then some deadline else none
      let reasons := (interval.map fun _ => Reason.acceptedChampionInterval).toList ++ (aged.map fun _ => Reason.maximumAge).toList
      ⟨!reasons.isEmpty, reasons, accepted.length, acceptedChampionInterval - accepted.length, some deadline,
        (interval.toList ++ aged.toList).min?⟩

namespace Registry

variable (c : Registry)

def versionPath (suiteId : String) : String := c.spec.root ++ "/versions/" ++ suiteId ++ ".json"
def manifestPath (suiteId : String) : String := c.spec.root ++ "/suites/" ++ suiteId ++ "/manifest.json"
def requestDirectory (requestId : String) : String := c.spec.root ++ "/requests/" ++ requestId
def requestPath (requestId : String) : String := c.requestDirectory requestId ++ "/manifest.json"
def continuityPath (sha256 : String) : String := c.spec.root ++ "/continuity/" ++ sha256 ++ ".json"

/-- `_absolute_file` with the hash that the file must have. -/
def absoluteFileWith (path sha256 role : String) : Except Error String := do
  let resolved ← c.absoluteFile path
  let actual ← c.fileSha256 resolved
  require (actual = sha256) (.value s!"{role} does not match its frozen SHA-256")
  return resolved

def frozen : List (String × String × String) :=
  [(c.spec.path, c.spec.fileSha256, "registry specification"), (c.spec.policyPath, c.spec.policyFileSha256, "promotion policy"),
    (c.spec.original.path, c.spec.original.sha256, "immutable original"),
    (c.spec.initialChampion.path, c.spec.initialChampion.sha256, "initial champion"),
    (c.spec.curationChampion.path, c.spec.curationChampion.sha256, "curation champion")]

def assertFrozenInputs : Except Error Unit :=
  c.frozen.forM fun (path, expected, role) =>
    require (c.fileSha256 path = .ok expected) (.corruption s!"frozen {role} changed")

def semanticSummary (v : ValidatedSuite) : List (String × Nat × String) :=
  v.semanticHoldouts.map fun holdout =>
    (holdout.1, holdout.2.length, c.canonicalSha256 (.arr ((holdout.2.insertionSort (· ≤ ·)).map .str)))

/-- `validate_suite_manifest` with the champion that the suite must be curated against. -/
def expectChampion (v : ValidatedSuite) (expected : String) : Except Error ValidatedSuite := do
  require (v.championSha256 = expected) (.staleChampion "suite champion does not match the expected champion")
  return v

/-- A published suite with its record; both are checked again. -/
def loadVersion (store : Store) (suiteId : String) : Except Error SuiteVersion := do
  let _ ← requireSha256 suiteId "suite ID"
  match store.versions.get suiteId, store.suites.get suiteId with
  | some version, some v => do
      require (version.suiteId = suiteId ∧ version.versionSha256 = c.canonicalSha256 (version.payloadJson c.spec))
        (.corruption "suite version identity is invalid")
      require (isSha256 version.originalSha256 = true ∧ isSha256 version.championSha256 = true)
        (.corruption "suite original hash must be a lowercase 64-character SHA-256")
      require (version.manifestPath = c.manifestPath suiteId ∧ version.manifestSha256 = v.manifestSha256)
        (.corruption "suite version manifest path is not registry-owned")
      let validated ← expectChampion v version.championSha256
      require (validated.suiteId = suiteId ∧ validated.manifestIdentity = version.manifestIdentity ∧
          validated.originalSha256 = version.originalSha256 ∧ validated.artifacts = version.artifacts)
        (.corruption "suite version does not match its immutable bundle")
      require (version.semanticHoldouts = c.semanticSummary validated) (.corruption "suite semantic inventory changed")
      return version
  | _, _ => .error (.corruption s!"suite version {suiteId} does not exist")

/-- A model of an event: its file must be there, unchanged. -/
def validateModelEvent (m : ModelBinding) : Except Error ModelBinding := do
  require (m.role = "frozen_champion") (.value "event champion has the wrong role")
  let _ ← requireSha256 m.sha256 "event champion.sha256"
  let path ← c.absoluteFileWith m.path m.sha256 "event champion"
  return ⟨m.role, path, m.sha256⟩

def checkChild (name : String) (binding : FileBinding) (child : ChildRequest) (expectedPath : String) (manifest : RequestManifest) :
    Except Error Unit := do
  require (binding.path = expectedPath) (.value s!"{name} request must be a regular non-symlink file")
  let _ ← requireSha256 binding.sha256 s!"{name} file hash"
  require (c.canonicalFileSha256 (child.fileJson c.spec (c.requestDirectory manifest.requestId)) = binding.sha256)
    (.value s!"{name} request does not match its frozen SHA-256")
  require (child.requestId = manifest.requestId ∧
      child.requestSha256 = c.canonicalSha256 (child.payloadJson c.spec (c.requestDirectory manifest.requestId)) ∧
      child.requestSha256 = binding.identity ∧ child.champion = manifest.champion)
    (.corruption s!"{name} request identity is invalid")

def validateRequestBinding (store : Store) (binding : FileBinding) (requestId : String) : Except Error RequestManifest := do
  let _ ← requireSha256 binding.sha256 "rotation request file hash"
  require (binding.path = c.requestPath requestId) (.corruption "rotation request is not registry-owned")
  match store.requests.get requestId with
  | none => .error (.value "rotation request manifest must be a regular non-symlink file")
  | some bundle => do
      let request := bundle.manifest
      require (c.canonicalFileSha256 (request.fileJson c.spec c.formatUtc) = binding.sha256)
        (.value "rotation request manifest does not match its frozen SHA-256")
      require (request.requestId = requestId ∧ request.requestSha256 = c.canonicalSha256 (request.payloadJson c.spec c.formatUtc) ∧
          request.requestSha256 = binding.identity)
        (.corruption "rotation request identity is invalid")
      c.checkChild "curation_supplement" request.curationSupplement bundle.supplement
        (c.requestDirectory requestId ++ "/curation-supplement.json") request
      c.checkChild "curation_pipeline" request.curationPipeline bundle.pipeline
        (c.requestDirectory requestId ++ "/curation-pipeline.json") request
      return request

/-- A continuity receipt with the hash of its file: a snapshot of the registry, or a file outside
it. -/
def readContinuity (store : Store) (path : String) : Except Error (String × ContinuityReceipt) :=
  match store.continuity.get path with
  | some snapshot => .ok snapshot
  | none => do
      let resolved ← c.absoluteFile path
      return (← c.fileSha256 resolved, ← c.continuityAt resolved)

def checkReplay (role expectedHash suiteId : String) (replay : ShadowReplay) : Except Error Unit := do
  let _ ← requireSha256 replay.evidenceSha256 s!"{role} evidence hash"
  let evidencePath ← c.absoluteFileWith replay.evidencePath replay.evidenceSha256 s!"{role} continuity evidence"
  require (replay.role = role ∧ replay.modelSha256 = expectedHash ∧ replay.suiteId = suiteId ∧ replay.decision = "PASS" ∧
      isSafeId replay.evaluationId = true ∧ evidencePath = replay.evidencePath)
    (.corruption s!"{role} continuity shadow replay did not PASS")

def validateContinuityBinding (store : Store) (binding : FileBinding)
    (requestId suiteId baseSuiteId currentChampionSha256 : String) (previousChampionSha256 : Option String) :
    Except Error ContinuityReceipt :=
  match previousChampionSha256 with
  | none => .error (.corruption "continuity replay requires a previous champion")
  | some previous => do
      let _ ← requireSha256 binding.sha256 "continuity file hash"
      let (actual, receipt) ← c.readContinuity store binding.path
      require (actual = binding.sha256) (.value "continuity manifest does not match its frozen SHA-256")
      require (receipt.requestId = requestId ∧ receipt.candidateSuiteId = suiteId ∧ receipt.baseSuiteId = baseSuiteId ∧
          receipt.policyHash = c.spec.policyIdentity ∧
          receipt.manifestSha256 = c.canonicalSha256 (receipt.payloadJson c.formatUtc) ∧
          receipt.manifestSha256 = binding.identity)
        (.corruption "continuity manifest identity is invalid")
      c.checkReplay "current_champion" currentChampionSha256 suiteId receipt.currentChampion
      c.checkReplay "previous_champion" previous suiteId receipt.previousChampion
      return receipt

/-- The state before the first event. -/
def initialState : RegistryState where
  events := []
  versions := .empty
  requests := .empty
  registrations := .empty
  continuity := .empty
  boundaries := .empty
  pins := .empty
  championHistory := Dict.empty.set c.spec.initialChampion.sha256 c.spec.initialChampion
  activeSuiteId := none
  activeSuiteActivatedAt := none
  activeActivationSequence := 0
  currentChampion := none
  previousChampionSha256 := none
  acceptedChampionTimestamps := []
  lastSequence := 0
  lastEventSha256 := genesisHash

section Apply

variable (store : Store) (s : RegistryState) (current : Champion) (active : String) (e : RegistryEvent)

def applyBootstrap (p : Bootstrap) : Except Error RegistryState := do
  require (s.events = [] ∧ s.activeSuiteId = none) (.corruption "registry may bootstrap only once")
  let version ← c.loadVersion store p.suiteId
  let champion ← c.validateModelEvent p.champion
  let generation ← requireId p.generationId "bootstrap generation"
  match p.previousChampionSha256 with
  | none => pure ()
  | some previous => do
      let _ ← requireSha256 previous "bootstrap previous champion hash"
      require (previous ≠ champion.sha256) (.corruption "bootstrap previous champion equals current champion")
  require (p.versionSha256 = version.versionSha256 ∧ p.manifestSha256 = version.manifestSha256 ∧
      p.manifestIdentity = version.manifestIdentity ∧ champion.sha256 = c.spec.initialChampion.sha256 ∧
      champion.path = c.spec.initialChampion.path ∧ generation = c.spec.initialChampion.generationId ∧
      version.championSha256 = c.spec.curationChampion.sha256 ∧ p.activatedAt = e.timestamp)
    (.corruption "bootstrap binding is contradictory")
  return { s with
    versions := s.versions.set p.suiteId version
    currentChampion := some ⟨champion, generation⟩
    championHistory := s.championHistory.set champion.sha256 ⟨champion, generation⟩
    previousChampionSha256 := p.previousChampionSha256
    activeSuiteId := some p.suiteId
    activeSuiteActivatedAt := some e.timestamp
    activeActivationSequence := e.sequence
    acceptedChampionTimestamps := [] }

def applyAcceptance (p : Acceptance) : Except Error RegistryState := do
  let champion ← c.validateModelEvent p.champion
  let generation ← requireId p.generationId "accepted champion generation"
  let prior ← requireSha256 p.previousChampionSha256 "previous champion hash"
  require (prior = current.sha256 ∧ champion.sha256 ≠ prior) (.corruption "accepted champion compare-and-swap is stale")
  require (∀ item ∈ s.championHistory.values, item.generationId ≠ generation) (.corruption "champion generation was reused")
  return { s with
    previousChampionSha256 := some prior
    currentChampion := some ⟨champion, generation⟩
    championHistory := s.championHistory.set champion.sha256 ⟨champion, generation⟩
    acceptedChampionTimestamps := s.acceptedChampionTimestamps ++ [e.timestamp] }

def applyPin (p : Pin) : Except Error RegistryState := do
  let evaluationId ← requireId p.evaluationId "evaluation ID"
  require (s.pins.get evaluationId = none ∧ p.suiteId = active ∧ p.championSha256 = current.sha256 ∧
      p.generationId = current.generationId)
    (.corruption "evaluation pin is contradictory")
  return { s with pins := s.pins.set evaluationId ⟨p, e.sequence⟩ }

def applyUnpin (p : Pin) : Except Error RegistryState := do
  let evaluationId ← requireId p.evaluationId "evaluation ID"
  match s.pins.get evaluationId with
  | none => .error (.corruption "evaluation unpin is contradictory")
  | some pin => do
      require (p.suiteId = pin.payload.suiteId ∧ p.championSha256 = pin.payload.championSha256 ∧
          p.generationId = pin.payload.generationId)
        (.corruption "evaluation unpin is contradictory")
      return { s with pins := s.pins.erase evaluationId }

def applyRequest (p : Request) : Except Error RegistryState := do
  let requestId ← requireId p.requestId "request ID"
  require (s.requests.get requestId = none) (.corruption "rotation request was duplicated")
  require (p.baseSuiteId = active ∧ p.championSha256 = current.sha256 ∧ p.generationId = current.generationId)
    (.corruption "rotation request is stale")
  let request ← c.validateRequestBinding store p.requestManifest requestId
  let eligibility := rotationEligibility s.activeSuiteActivatedAt s.acceptedChampionTimestamps e.timestamp
  require (eligibility.eligible = true ∧ p.triggerAt = eligibility.triggerAt ∧ request.baseSuiteId = active ∧
      request.champion.sha256 = current.sha256)
    (.corruption "rotation request was not cadence-eligible")
  return { s with requests := s.requests.set requestId ⟨p, e.sequence⟩ }

def applyRegistration (p : Registration) : Except Error RegistryState := do
  let suiteId ← requireSha256 p.suiteId "registered suite ID"
  let requestId ← requireId p.requestId "request ID"
  match s.requests.get requestId with
  | none => .error (.corruption "suite registration is contradictory")
  | some request => do
      require (s.registrations.get suiteId = none) (.corruption "suite registration is contradictory")
      let version ← c.loadVersion store suiteId
      require (p.versionSha256 = version.versionSha256 ∧ p.manifestSha256 = version.manifestSha256 ∧
          p.manifestIdentity = version.manifestIdentity ∧ p.curationChampionSha256 = request.payload.championSha256 ∧
          version.championSha256 = request.payload.championSha256)
        (.corruption "registered suite binding changed")
      return { s with
        versions := s.versions.set suiteId version
        registrations := s.registrations.set suiteId ⟨p, e.sequence⟩ }

def applyContinuity (p : Continuity) : Except Error RegistryState := do
  let suiteId ← requireSha256 p.suiteId "continuity suite ID"
  let requestId ← requireId p.requestId "request ID"
  require ((s.registrations.get suiteId).map (fun r => r.payload.requestId) = some requestId ∧ s.continuity.get suiteId = none ∧
      p.currentChampionSha256 = current.sha256 ∧ p.previousChampionSha256 = s.previousChampionSha256)
    (.corruption "continuity receipt is contradictory")
  match s.requests.get requestId with
  | none => .error (.value "unknown request")
  | some request => do
      let _ ← c.validateContinuityBinding store p.manifest requestId suiteId request.payload.baseSuiteId current.sha256
        s.previousChampionSha256
      return { s with continuity := s.continuity.set suiteId ⟨p, e.sequence⟩ }

def applyBoundary (p : Boundary) : Except Error RegistryState := do
  let boundaryId ← requireId p.boundaryId "boundary ID"
  require (s.boundaries.get boundaryId = none ∧ p.championSha256 = current.sha256 ∧ p.generationId = current.generationId ∧
      p.clean = true)
    (.corruption "generation boundary is contradictory")
  return { s with boundaries := s.boundaries.set boundaryId ⟨p, e.sequence⟩ }

def applyActivation (p : Activation) : Except Error RegistryState := do
  let suiteId ← requireSha256 p.suiteId "activated suite ID"
  let requestId ← requireId p.requestId "request ID"
  match s.registrations.get suiteId, s.continuity.get suiteId, s.requests.get requestId, s.boundaries.get p.boundaryId with
  | some registration, some receipt, some request, some boundary => do
      require (registration.payload.requestId = requestId ∧ receipt.payload.requestId = requestId ∧ p.previousSuiteId = active ∧
          request.payload.baseSuiteId = active ∧ p.expectedChampionSha256 = current.sha256 ∧
          p.generationId = current.generationId ∧ boundary.payload.championSha256 = current.sha256 ∧
          boundary.payload.generationId = current.generationId ∧ receipt.sequence < boundary.sequence ∧
          s.pins.isEmpty = true ∧ p.continuityManifestSha256 = receipt.payload.manifest.sha256)
        (.corruption "suite activation is contradictory")
      return { s with
        activeSuiteId := some suiteId
        activeSuiteActivatedAt := some e.timestamp
        activeActivationSequence := e.sequence
        acceptedChampionTimestamps := [] }
  | _, _, _, _ => .error (.corruption "suite activation is contradictory")

/-- What an event changes besides the log. -/
def applyPayload : Payload → Except Error RegistryState
  | .bootstrapped p => c.applyBootstrap store s e p
  | payload =>
      match s.currentChampion, s.activeSuiteId with
      | some current, some active =>
          match payload with
          | .bootstrapped p => c.applyBootstrap store s e p
          | .accepted p => c.applyAcceptance s current e p
          | .pinned p => applyPin s current active e p
          | .unpinned p => applyUnpin s p
          | .requested p => c.applyRequest store s current active e p
          | .registered p => c.applyRegistration store s e p
          | .continuity p => c.applyContinuity store s current e p
          | .boundary p => applyBoundary s current e p
          | .activated p => applyActivation s current active e p
      | _, _ => .error (.corruption "registry bootstrap must be first")

end Apply

/-- `_parse_event` -/
def parseEvent (e : RegistryEvent) (filenameSequence : Nat) : Except Error Unit := do
  require (e.sequence = filenameSequence ∧ isSha256 e.eventSha256 = true ∧ e.eventSha256 = c.canonicalSha256 (e.bodyJson c))
    (.corruption "registry event identity is invalid")
  let _ ← requireSha256 e.previousEventSha256 "previous event hash"

/-- One event file. -/
def applyEvent (store : Store) (s : RegistryState) (file : Nat × RegistryEvent) : Except Error RegistryState := do
  require (file.1 = s.lastSequence + 1) (.corruption s!"event sequence gap: expected {s.lastSequence + 1}, found {file.1}")
  c.parseEvent file.2 file.1
  require (file.2.previousEventSha256 = s.lastEventSha256) (.corruption "registry event hash chain is broken")
  require (∀ last ∈ s.events.getLast?, last.timestamp ≤ file.2.timestamp) (.corruption "registry event timestamps regress")
  let s ← c.applyPayload store s file.2 file.2.payload
  return { s with events := s.events ++ [file.2], lastSequence := s.lastSequence + 1, lastEventSha256 := file.2.eventSha256 }

def reconstruct (store : Store) : Except Error RegistryState := do
  c.assertFrozenInputs
  replay (c.applyEvent store) c.initialState store.events

end Registry
end KataGo.Suite
