import KataGo.Lib.Dict
import KataGo.Lib.Effects
import KataGo.Lib.Json

/-! The data of `python/risk_score/suite_rotation.py`: suites, requests, receipts and the events
of the registry, with their JSON forms. -/

namespace KataGo.Suite
open KataGo.Lib

/-- `SuiteRegistryCorruption`, `SuiteConflictError` and its kinds, and what `ValueError` and the
operating system raise. -/
inductive Error where
  | corruption (message : String)
  | conflict (message : String)
  | staleActiveSuite (message : String)
  | staleChampion (message : String)
  | pinConflict (message : String)
  | blocked (message : String)
  | value (message : String)
  | os (message : String)
  deriving DecidableEq, Repr

/-- `^[0-9a-f]{64}$` -/
def isSha256 (s : String) : Bool :=
  s.toList.length = 64 && s.toList.all fun c => ('0' ≤ c && c ≤ '9') || ('a' ≤ c && c ≤ 'f')

def isAlphanumeric (c : Char) : Bool := ('A' ≤ c && c ≤ 'Z') || ('a' ≤ c && c ≤ 'z') || ('0' ≤ c && c ≤ '9')

/-- `^[A-Za-z0-9](?:[A-Za-z0-9._:@+-]{0,254})$` -/
def isSafeId (s : String) : Bool :=
  match s.toList with
  | [] => false
  | first :: rest => isAlphanumeric first && rest.length ≤ 254 && rest.all fun c => isAlphanumeric c || c ∈ "._:@+-".toList

def requireSha256 (s role : String) : Except Error String := do
  require (isSha256 s = true) (.value s!"{role} must be a lowercase 64-character SHA-256")
  return s

def requireId (s role : String) : Except Error String := do
  require (isSafeId s = true) (.value s!"{role} is not a safe nonempty identifier")
  return s

structure ModelBinding where
  role : String
  path : String
  sha256 : String
  deriving DecidableEq

def ModelBinding.toJson (m : ModelBinding) : Json Empty :=
  .obj [("role", .str m.role), ("path", .str m.path), ("sha256", .str m.sha256)]

/-- A model with its generation. -/
structure Champion extends ModelBinding where
  generationId : String
  deriving DecidableEq

/-- What the registry uses of its specification. -/
structure Spec where
  path : String
  fileSha256 : String
  identity : String
  root : String
  policyPath : String
  policyFileSha256 : String
  policyIdentity : String
  original : ModelBinding
  initialChampion : Champion
  curationChampion : ModelBinding
  holdoutQuotas : List (String × List (String × Int))
  sourceQuotas : List (String × Int)

def policyVersion : String := "risk-seeking-checkpoint-promotion-v3"

namespace Spec

def registryJson (s : Spec) : Json Empty :=
  .obj [("path", .str s.path), ("sha256", .str s.fileSha256), ("identity", .str s.identity)]

def policyJson (s : Spec) : Json Empty :=
  .obj [("path", .str s.policyPath), ("sha256", .str s.policyFileSha256), ("identity", .str s.policyIdentity),
    ("version", .str policyVersion)]

def holdoutQuotasJson (s : Spec) : Json Empty :=
  .obj (s.holdoutQuotas.map fun label => (label.1, .obj (label.2.map fun entry => (entry.1, .int entry.2))))

end Spec

/-- A suite that `validate_suite_manifest` has accepted. Its identifier is the hash of its
manifest. -/
structure ValidatedSuite where
  manifestSha256 : String
  manifestIdentity : String
  originalSha256 : String
  championSha256 : String
  artifacts : List (String × String)
  semanticHoldouts : List (String × List String)
  hash : isSha256 manifestSha256 = true
  deriving DecidableEq

def ValidatedSuite.suiteId (v : ValidatedSuite) : String := v.manifestSha256

/-- The record of a published suite. -/
structure SuiteVersion where
  suiteId : String
  manifestPath : String
  manifestSha256 : String
  manifestIdentity : String
  originalSha256 : String
  championSha256 : String
  semanticHoldouts : List (String × Nat × String)
  artifacts : List (String × String)
  versionSha256 : String
  deriving DecidableEq

def SuiteVersion.payloadJson (s : Spec) (v : SuiteVersion) : Json Empty :=
  .obj [("schema_version", .int 1), ("contract", .str "risk-score-evaluation-suite-version-v1"), ("suite_id", .str v.suiteId),
    ("manifest", .obj [("path", .str v.manifestPath), ("sha256", .str v.manifestSha256), ("identity", .str v.manifestIdentity)]),
    ("policy", .obj [("sha256", .str s.policyFileSha256), ("identity", .str s.policyIdentity), ("version", .str policyVersion)]),
    ("models", .obj [("original_sha256", .str v.originalSha256), ("champion_sha256", .str v.championSha256)]),
    ("holdout_quotas", s.holdoutQuotasJson),
    ("semantic_holdouts", .obj (v.semanticHoldouts.map fun entry =>
      (entry.1, .obj [("count", .int entry.2.1), ("sha256", .str entry.2.2)]))),
    ("artifacts", .obj (v.artifacts.map fun entry => (entry.1, .str entry.2)))]

/-- A file with its hash and the hash of its payload. -/
structure FileBinding where
  path : String
  sha256 : String
  identity : String
  deriving DecidableEq

def FileBinding.toJson (b : FileBinding) : Json Empty :=
  .obj [("path", .str b.path), ("sha256", .str b.sha256), ("identity", .str b.identity)]

inductive Reason where
  | acceptedChampionInterval
  | maximumAge
  deriving DecidableEq, Repr

def Reason.value : Reason → String
  | acceptedChampionInterval => "accepted-champion-interval"
  | maximumAge => "maximum-age"

def acceptedChampionInterval : Nat := 5
def maximumAgeDays : Int := 90

/-- Times are in microseconds. -/
def maximumAge : Int := maximumAgeDays * 24 * 3600 * 1000000

structure RotationEligibility where
  eligible : Bool
  reasons : List Reason
  acceptedChampionsSinceActivation : Nat
  acceptedChampionsRemaining : Nat
  ageDeadline : Option Int
  triggerAt : Option Int
  deriving DecidableEq

def optionalTime (formatUtc : Int → String) : Option Int → Json Empty
  | none => .null
  | some t => .str (formatUtc t)

def optional : Option String → Json Empty
  | none => .null
  | some s => .str s

def RotationEligibility.toJson (formatUtc : Int → String) (e : RotationEligibility) : Json Empty :=
  .obj [("eligible", .bool e.eligible), ("reasons", .arr (e.reasons.map fun reason => .str reason.value)),
    ("accepted_champions_since_activation", .int e.acceptedChampionsSinceActivation),
    ("accepted_champions_remaining", .int e.acceptedChampionsRemaining),
    ("accepted_champion_interval", .int acceptedChampionInterval), ("maximum_age_days", .int maximumAgeDays),
    ("age_deadline_utc", optionalTime formatUtc e.ageDeadline), ("trigger_at_utc", optionalTime formatUtc e.triggerAt),
    ("source", .str "accepted-champion-events-and-utc-only-v1"), ("candidate_results_used", .bool false)]

def modelsJson (s : Spec) (champion : ModelBinding) : Json Empty :=
  .obj [("original", s.original.toJson), ("champion", champion.toJson)]

/-- A curation request of a bundle: the supplement, and the pipeline, which refers to it. -/
structure ChildRequest where
  requestId : String
  champion : ModelBinding
  supplement : Option FileBinding
  requestSha256 : String
  deriving DecidableEq

namespace ChildRequest

def fields (s : Spec) (directory : String) (q : ChildRequest) : List (String × Json Empty) :=
  match q.supplement with
  | none =>
      [("schema_version", .int 1), ("contract", .str "risk-score-suite-rotation-curation-supplement-request-v1"),
        ("requested_spec_contract", .str "risk-score-curation-supplement-spec-v1"), ("request_id", .str q.requestId),
        ("models", modelsJson s q.champion), ("policy", s.policyJson),
        ("target_counts", .obj ((s.sourceQuotas.filter fun entry => entry.1 = "lead-40" ∨ entry.1 = "lead-80").map fun entry =>
          (entry.1, .int entry.2))),
        ("quarantined_source_generation", .bool true), ("output_root", .str (directory ++ "/supplement"))]
  | some binding =>
      [("schema_version", .int 1), ("contract", .str "risk-score-suite-rotation-curation-pipeline-request-v1"),
        ("requested_spec_contract", .str "risk-score-curation-pipeline-spec-v1"), ("request_id", .str q.requestId),
        ("models", modelsJson s q.champion), ("policy", s.policyJson),
        ("source_quotas", .obj (s.sourceQuotas.map fun entry => (entry.1, .int entry.2))),
        ("holdout_quotas", s.holdoutQuotasJson), ("supplement_request", binding.toJson),
        ("suite_seed", .str ("suite-rotation-" ++ String.ofList (q.requestId.toList.drop 9))),
        ("output_suite_contract", .str "risk-score-authoritative-evaluation-manifest-v3"), ("output_root", .str (directory ++ "/pipeline"))]

def payloadJson (s : Spec) (directory : String) (q : ChildRequest) : Json Empty := .obj (q.fields s directory)

def fileJson (s : Spec) (directory : String) (q : ChildRequest) : Json Empty :=
  .obj (q.fields s directory ++ [("request_sha256", .str q.requestSha256)])

end ChildRequest

structure RequestManifest where
  requestId : String
  baseSuiteId : String
  baseVersionSha256 : String
  champion : ModelBinding
  trigger : RotationEligibility
  curationSupplement : FileBinding
  curationPipeline : FileBinding
  requestSha256 : String
  deriving DecidableEq

namespace RequestManifest

def fields (s : Spec) (formatUtc : Int → String) (r : RequestManifest) : List (String × Json Empty) :=
  [("schema_version", .int 1), ("contract", .str "risk-score-evaluation-suite-rotation-request-v1"),
    ("request_id", .str r.requestId), ("registry_spec", s.registryJson),
    ("base_active_suite", .obj [("suite_id", .str r.baseSuiteId), ("version_sha256", .str r.baseVersionSha256)]),
    ("models", modelsJson s r.champion), ("policy", s.policyJson), ("trigger", r.trigger.toJson formatUtc),
    ("requests", .obj [("curation_supplement", r.curationSupplement.toJson), ("curation_pipeline", r.curationPipeline.toJson)])]

def payloadJson (s : Spec) (formatUtc : Int → String) (r : RequestManifest) : Json Empty := .obj (r.fields s formatUtc)

def fileJson (s : Spec) (formatUtc : Int → String) (r : RequestManifest) : Json Empty :=
  .obj (r.fields s formatUtc ++ [("request_sha256", .str r.requestSha256)])

end RequestManifest

/-- The directory of a rotation request. -/
structure RequestBundle where
  supplement : ChildRequest
  pipeline : ChildRequest
  manifest : RequestManifest
  deriving DecidableEq

/-- The replay of one model in a continuity receipt. -/
structure ShadowReplay where
  role : String
  modelSha256 : String
  suiteId : String
  decision : String
  evaluationId : String
  evidencePath : String
  evidenceSha256 : String
  deriving DecidableEq

def ShadowReplay.toJson (r : ShadowReplay) : Json Empty :=
  .obj [("role", .str r.role), ("model_sha256", .str r.modelSha256), ("suite_id", .str r.suiteId), ("decision", .str r.decision),
    ("evaluation_id", .str r.evaluationId),
    ("evidence", .obj [("path", .str r.evidencePath), ("sha256", .str r.evidenceSha256)])]

structure ContinuityReceipt where
  requestId : String
  candidateSuiteId : String
  baseSuiteId : String
  policyHash : String
  currentChampion : ShadowReplay
  previousChampion : ShadowReplay
  completedAt : Int
  manifestSha256 : String
  deriving DecidableEq

def ContinuityReceipt.payloadJson (formatUtc : Int → String) (r : ContinuityReceipt) : Json Empty :=
  .obj [("schema_version", .int 1), ("contract", .str "risk-score-suite-continuity-shadow-replay-v1"),
    ("request_id", .str r.requestId), ("candidate_suite_id", .str r.candidateSuiteId), ("base_suite_id", .str r.baseSuiteId),
    ("policy_hash", .str r.policyHash),
    ("shadow_replays", .obj [("current_champion", r.currentChampion.toJson), ("previous_champion", r.previousChampion.toJson)]),
    ("completed_at_utc", .str (formatUtc r.completedAt))]

/-- What `active-suite.json` tells of the active suite and of the event that has made it active. -/
structure ActiveRecord where
  specSha256 : String
  suiteId : String
  versionSha256 : String
  manifestPath : String
  manifestSha256 : String
  manifestIdentity : String
  activatedAt : Option Int
  activationChampionSha256 : Option String
  activationGenerationId : Option String
  eventSequence : Nat
  eventSha256 : String
  recordSha256 : String
  deriving DecidableEq

def ActiveRecord.payloadJson (formatUtc : Int → String) (r : ActiveRecord) : Json Empty :=
  .obj [("schema_version", .int 1), ("contract", .str "risk-score-active-evaluation-suite-v1"),
    ("spec_sha256", .str r.specSha256), ("suite_id", .str r.suiteId), ("version_sha256", .str r.versionSha256),
    ("manifest_path", .str r.manifestPath), ("manifest_sha256", .str r.manifestSha256),
    ("manifest_identity", .str r.manifestIdentity), ("activated_at_utc", optionalTime formatUtc r.activatedAt),
    ("activation_champion_sha256", optional r.activationChampionSha256),
    ("activation_generation_id", optional r.activationGenerationId), ("event_sequence", .int r.eventSequence),
    ("event_sha256", .str r.eventSha256)]

end KataGo.Suite
