import KataGo.Promotion.Registry

/-! The champion file: how it is read, bootstrapped, and replaced by a candidate that a
finalized report passes. -/

namespace KataGo.Promotion
open KataGo.Lib

def championSchemaVersion : Int := 1

/-- The contents of `champion.json`. -/
structure ChampionRecord where
  schemaVersion : Int
  championHash : String
  generationId : String
  previousChampionHash : Option String
  originalHash : String
  activatedAtUtc : String
  controllerHash : String
  sourceHash : String
  configHash : String
  scheduleHash : String
  policyHash : String
  evaluationKey : Option String
  passReportPath : Option String
  passReportHash : Option String
  actor : String
  bootstrap : Bool
  recordHash : String
  deriving DecidableEq

/-- A champion record whose fields have not been checked. -/
structure RawChampion (F : Type) where
  schemaVersion : Json F
  championHash : Json F
  generationId : Json F
  previousChampionHash : Json F
  originalHash : Json F
  activatedAtUtc : Json F
  controllerHash : Json F
  sourceHash : Json F
  configHash : Json F
  scheduleHash : Json F
  policyHash : Json F
  evaluationKey : Json F
  passReportPath : Json F
  passReportHash : Json F
  actor : Json F
  bootstrap : Json F
  recordHash : Json F

variable {F : Type}

def ChampionRecord.bodyDict (r : ChampionRecord) : List (String × Json F) :=
  [("schema_version", .int r.schemaVersion), ("champion_hash", .str r.championHash),
    ("generation_id", .str r.generationId), ("previous_champion_hash", optional r.previousChampionHash),
    ("original_hash", .str r.originalHash), ("activated_at_utc", .str r.activatedAtUtc),
    ("controller_hash", .str r.controllerHash), ("source_hash", .str r.sourceHash), ("config_hash", .str r.configHash),
    ("schedule_hash", .str r.scheduleHash), ("policy_hash", .str r.policyHash),
    ("evaluation_key", optional r.evaluationKey), ("pass_report_path", optional r.passReportPath),
    ("pass_report_hash", optional r.passReportHash), ("actor", .str r.actor), ("bootstrap", .bool r.bootstrap)]

def ChampionRecord.toDict (r : ChampionRecord) : List (String × Json F) :=
  r.bodyDict ++ [("record_hash", .str r.recordHash)]

variable [Runtime F]

def checkChampionVersion (version : Json F) : Checked Int :=
  match version with
  | .int n => if n = championSchemaVersion then .ok n else
      .error (.corrupt s!"unsupported champion schema version: {showJson version}")
  | _ => .error (.corrupt s!"unsupported champion schema version: {showJson version}")

def checkBool (value : Json F) : Checked Bool :=
  match value with
  | .bool b => .ok b
  | _ => .error (.value "bootstrap must be boolean")

/-- The fields that say where a champion comes from: none for a bootstrap, all of them otherwise. -/
def checkEvidence (raw : RawChampion F) (bootstrap : Bool) :
    Checked (Option String × Option String × Option String × Option String) :=
  if bootstrap then do
    require (raw.previousChampionHash.isNull = true ∧ raw.evaluationKey.isNull = true ∧
      raw.passReportPath.isNull = true ∧ raw.passReportHash.isNull = true)
      (.value "bootstrap champion may not contain evaluation/report metadata")
    return (none, none, none, none)
  else do
    let previousChampionHash ← requireSha256 raw.previousChampionHash "previous_champion_hash"
    let evaluationKey ← requireNonempty raw.evaluationKey "evaluation_key"
    let passReportPath ← requireNonempty raw.passReportPath "pass_report_path"
    let passReportHash ← requireSha256 raw.passReportHash "pass_report_hash"
    return (some previousChampionHash, some evaluationKey, some passReportPath, some passReportHash)

/-- The checks of the fields, in their order; all of them raise a `ValueError`. -/
def checkChampionFields (raw : RawChampion F) (schemaVersion : Int) : Checked ChampionRecord := do
  let championHash ← requireSha256 raw.championHash "champion_hash"
  let generationId ← requireNonempty raw.generationId "generation_id"
  let _ ← optionally (fun value => requireSha256 value "previous_champion_hash") raw.previousChampionHash
  let originalHash ← requireSha256 raw.originalHash "original_hash"
  let activatedAtUtc ← validateUtcTimestamp raw.activatedAtUtc "activated_at_utc"
  let controllerHash ← requireSha256 raw.controllerHash "controller_hash"
  let sourceHash ← requireSha256 raw.sourceHash "source_hash"
  let configHash ← requireSha256 raw.configHash "config_hash"
  let scheduleHash ← requireSha256 raw.scheduleHash "schedule_hash"
  let policyHash ← requireSha256 raw.policyHash "policy_hash"
  let actor ← requireNonempty raw.actor "actor"
  let recordHash ← requireSha256 raw.recordHash "record_hash"
  let bootstrap ← checkBool raw.bootstrap
  let evidence ← checkEvidence raw bootstrap
  return {
    schemaVersion := schemaVersion
    championHash := championHash
    generationId := generationId
    previousChampionHash := evidence.1
    originalHash := originalHash
    activatedAtUtc := activatedAtUtc
    controllerHash := controllerHash
    sourceHash := sourceHash
    configHash := configHash
    scheduleHash := scheduleHash
    policyHash := policyHash
    evaluationKey := evidence.2.1
    passReportPath := evidence.2.2.1
    passReportHash := evidence.2.2.2
    actor := actor
    bootstrap := bootstrap
    recordHash := recordHash }

/-- Check the fields of a champion record and its own hash. -/
def RawChampion.verify (raw : RawChampion F) : Checked ChampionRecord := do
  let schemaVersion ← checkChampionVersion raw.schemaVersion
  let record ← (checkChampionFields raw schemaVersion).reraise .registryCorruption
  let expected ← canonicalSha256 (.obj (record.bodyDict (F := F)))
  require (expected = record.recordHash)
    (.corrupt s!"champion record hash mismatch: stored {record.recordHash}, computed {expected}")
  return record

/-- A record with its fields as they stand in its file. -/
def ChampionRecord.raw (r : ChampionRecord) : RawChampion F where
  schemaVersion := .int r.schemaVersion
  championHash := .str r.championHash
  generationId := .str r.generationId
  previousChampionHash := optional r.previousChampionHash
  originalHash := .str r.originalHash
  activatedAtUtc := .str r.activatedAtUtc
  controllerHash := .str r.controllerHash
  sourceHash := .str r.sourceHash
  configHash := .str r.configHash
  scheduleHash := .str r.scheduleHash
  policyHash := .str r.policyHash
  evaluationKey := optional r.evaluationKey
  passReportPath := optional r.passReportPath
  passReportHash := optional r.passReportHash
  actor := .str r.actor
  bootstrap := .bool r.bootstrap
  recordHash := .str r.recordHash

/-- Give a record its own hash and check it. -/
def ChampionRecord.build (F : Type) [Runtime F] (record : ChampionRecord) : Checked ChampionRecord := do
  let recordHash ← canonicalSha256 (.obj (record.bodyDict (F := F)))
  ({ record with recordHash := recordHash }.raw (F := F)).verify

def championFields : List String :=
  ["schema_version", "champion_hash", "generation_id", "previous_champion_hash", "original_hash", "activated_at_utc",
    "controller_hash", "source_hash", "config_hash", "schedule_hash", "policy_hash", "evaluation_key",
    "pass_report_path", "pass_report_hash", "actor", "bootstrap", "record_hash"]

def rawChampion (fields : List (String × Json F)) : RawChampion F where
  schemaVersion := Json.get fields "schema_version"
  championHash := Json.get fields "champion_hash"
  generationId := Json.get fields "generation_id"
  previousChampionHash := Json.get fields "previous_champion_hash"
  originalHash := Json.get fields "original_hash"
  activatedAtUtc := Json.get fields "activated_at_utc"
  controllerHash := Json.get fields "controller_hash"
  sourceHash := Json.get fields "source_hash"
  configHash := Json.get fields "config_hash"
  scheduleHash := Json.get fields "schedule_hash"
  policyHash := Json.get fields "policy_hash"
  evaluationKey := Json.get fields "evaluation_key"
  passReportPath := Json.get fields "pass_report_path"
  passReportHash := Json.get fields "pass_report_hash"
  actor := Json.get fields "actor"
  bootstrap := Json.get fields "bootstrap"
  recordHash := Json.get fields "record_hash"

def missingChampionFields (fields : List (String × Json F)) : List String :=
  championFields.filter fun name => name ∉ fields.map Prod.fst

def extraChampionFields (fields : List (String × Json F)) : List String :=
  (fields.map Prod.fst).filter fun name => name ∉ championFields

def championFromDict (value : Json F) : Checked ChampionRecord :=
  match value with
  | .obj fields => do
      require (missingChampionFields fields = [] ∧ extraChampionFields fields = [])
        (.corrupt s!"champion fields differ from schema; missing={showNames (missingChampionFields fields)}, extra={showNames (extraChampionFields fields)}")
      (rawChampion fields).verify
  | _ => .error (.corrupt "champion JSON root must be an object")

/-- What stands at a path, if anything does. -/
abbrev FileAt : Type := Option Node

def readFile (path : String) (file : FileAt) : Checked ByteArray :=
  match file with
  | none => .error ⟨.fileNotFound, s!"[Errno 2] No such file or directory: {reprText path}"⟩
  | some node => EventRegistry.readRegularFile path node

def loadChampion (F : Type) [Runtime F] (path : String) (file : FileAt) : Checked ChampionRecord := do
  let data ← readFile path file
  let value : Json F ← EventRegistry.decodeJson data path
  let record ← championFromDict value
  let canonicalFile ← canonicalJsonBytes (.obj (record.toDict (F := F)))
  require (data = canonicalFile ++ Utf8.encode ['\n']) (.corrupt "champion file is not canonical JSON")
  return record

/-- What becomes of a write: it fails before the file is in place, or the directory cannot be
synced after it is. -/
inductive Disk where
  | sound | failsBefore | failsAfter
  deriving DecidableEq

/-- Put the bytes in place, unless the disk fails. -/
def atomicWrite (disk : Disk) (file : FileAt) (data : ByteArray) : Checked Unit × FileAt :=
  match disk with
  | .sound => (.ok (), some (.file data))
  | .failsBefore => (.error ⟨.osError, "write failed"⟩, file)
  | .failsAfter => (.error ⟨.osError, "directory sync failed"⟩, some (.file data))

/-- A record that was decided on is written, then returned. -/
def writeChampion (F : Type) [Runtime F] (disk : Disk) (file : FileAt) (record : ChampionRecord) :
    Checked ChampionRecord × FileAt :=
  match canonicalJsonBytes (.obj (record.toDict (F := F))) with
  | .error e => (.error e, file)
  | .ok data =>
      match atomicWrite disk file (data ++ Utf8.encode ['\n']) with
      | (.ok _, file') => (.ok record, file')
      | (.error e, file') => (.error e, file')

/-- The time that a record is made at: the one that was given, or that of the clock. -/
def activationTime (F : Type) [Runtime F] (timestampUtc : Option String) (now : String) : Checked String :=
  match timestampUtc with
  | none => .ok now
  | some timestamp => validateUtcTimestamp (.str timestamp : Json F) "timestamp_utc"

structure BootstrapCall where
  championHash : String
  generationId : String
  provenance : EventProvenance
  actor : String
  timestampUtc : Option String
  now : String
  disk : Disk

def BootstrapCall.desired (call : BootstrapCall) (timestamp : String) : ChampionRecord where
  schemaVersion := championSchemaVersion
  championHash := call.championHash
  generationId := call.generationId
  previousChampionHash := none
  originalHash := call.provenance.originalHash
  activatedAtUtc := timestamp
  controllerHash := call.provenance.controllerHash
  sourceHash := call.provenance.sourceHash
  configHash := call.provenance.configHash
  scheduleHash := call.provenance.scheduleHash
  policyHash := call.provenance.policyHash
  evaluationKey := none
  passReportPath := none
  passReportHash := none
  actor := call.actor
  bootstrap := true
  recordHash := ""

def validateBootstrapRetry (existing desired : ChampionRecord) : Checked Unit :=
  require (existing.championHash = desired.championHash ∧ existing.generationId = desired.generationId ∧
    existing.originalHash = desired.originalHash ∧ existing.controllerHash = desired.controllerHash ∧
    existing.sourceHash = desired.sourceHash ∧ existing.configHash = desired.configHash ∧
    existing.scheduleHash = desired.scheduleHash ∧ existing.policyHash = desired.policyHash ∧
    existing.actor = desired.actor ∧ existing.bootstrap = desired.bootstrap)
    ⟨.championConflict, "existing champion conflicts with bootstrap request"⟩

/-- What a call decides before it writes: a record that is there already, or one to write. -/
inductive Decision where
  | current (record : ChampionRecord)
  | replace (record : ChampionRecord)

def BootstrapCall.decide (F : Type) [Runtime F] (call : BootstrapCall) (path : String) (file : FileAt) :
    Checked Decision := do
  let timestamp ← activationTime F call.timestampUtc call.now
  let desired ← (call.desired timestamp).build F
  if file.isSome then
    let existing ← loadChampion F path file
    validateBootstrapRetry existing desired
    return .current existing
  else return .replace desired

/-- The metadata of a finalized report that promotion relies on. -/
structure FinalizedPassReport where
  path : String
  reportHash : String
  schemaVersion : Int
  decision : String
  candidateHash : String
  testedChampionHash : String
  originalHash : String
  evaluationKey : String
  configHash : String
  scheduleHash : String
  policyHash : String

def checkReportVersion (version : Json F) : Checked Int :=
  match version with
  | .int n => if n < 1 then .error ⟨.passReport, "report schema_version must be a positive integer"⟩ else .ok n
  | _ => .error ⟨.passReport, "report schema_version must be a positive integer"⟩

def isTrue : Json F → Bool
  | .bool b => b
  | _ => false

def reportFields (value : Json F) : Checked (List (String × Json F)) :=
  match value with
  | .obj fields => .ok fields
  | _ => .error ⟨.passReport, "PASS report JSON root must be an object"⟩

def checkReport (fields : List (String × Json F)) (path reportHash : String) : Checked FinalizedPassReport := do
  let schemaVersion ← checkReportVersion (Json.get fields "schema_version")
  require (isTrue (Json.get fields "finalized") = true) ⟨.passReport, "report is not finalized"⟩
  let shown := reprJson (Json.get fields "decision")
  require ((Json.get fields "decision").isStr "PASS" = true) ⟨.passReport, s!"report decision is not PASS: {shown}"⟩
  let candidateHash ← requireSha256 (Json.get fields "candidate_hash") "report.candidate_hash"
  let testedChampionHash ← requireSha256 (Json.get fields "tested_champion_hash") "report.tested_champion_hash"
  let originalHash ← requireSha256 (Json.get fields "original_hash") "report.original_hash"
  let evaluationKey ← requireNonempty (Json.get fields "evaluation_key") "report.evaluation_key"
  let configHash ← requireSha256 (Json.get fields "config_hash") "report.config_hash"
  let scheduleHash ← requireSha256 (Json.get fields "schedule_hash") "report.schedule_hash"
  let policyHash ← requireSha256 (Json.get fields "policy_hash") "report.policy_hash"
  if "finalized_at_utc" ∈ fields.map Prod.fst then
    let _ ← validateUtcTimestamp (Json.get fields "finalized_at_utc") "report.finalized_at_utc"
  return {
    path := path
    reportHash := reportHash
    schemaVersion := schemaVersion
    decision := "PASS"
    candidateHash := candidateHash
    testedChampionHash := testedChampionHash
    originalHash := originalHash
    evaluationKey := evaluationKey
    configHash := configHash
    scheduleHash := scheduleHash
    policyHash := policyHash }

/-- The parts of a path, without empty ones and those that stand for the directory itself. -/
def stablePath (path : String) : String :=
  let chars := path.toList
  let root := if "//".toList <+: chars ∧ ¬"///".toList <+: chars then "//" else if "/".toList <+: chars then "/" else ""
  let parts := ((chars.splitOn '/').map String.ofList).filter fun part => part ≠ "" ∧ part ≠ "."
  let whole := root ++ "/".intercalate parts
  if whole = "" then "." else whole

/-- Errors of a report are report errors, except that of a missing file. -/
def asReportError {α : Type} (check : Checked α) : Checked α :=
  check.mapError fun error => if error.kind = .fileNotFound then error else ⟨.passReport, error.text⟩

def loadFinalizedPassReport (F : Type) [Runtime F] (path : String) (file : FileAt) (expected : String) :
    Checked FinalizedPassReport :=
  asReportError do
    let _ ← requireSha256 (.str expected : Json F) "expected_report_hash"
    let data ← readFile (stablePath path) file
    require (sha256Bytes data = expected)
      ⟨.passReport, s!"report hash mismatch: expected {expected}, found {sha256Bytes data}"⟩
    let value : Json F ← EventRegistry.decodeJson data (stablePath path)
    checkReport (← reportFields value) (stablePath path) (sha256Bytes data)

/-- A call that promotes a candidate, with the report that stands at its path. -/
structure SwapCall where
  expectedChampionHash : String
  candidateHash : String
  generationId : String
  passReportPath : String
  passReportHash : String
  evaluationKey : String
  provenance : EventProvenance
  actor : String
  timestampUtc : Option String
  report : FileAt
  now : String
  disk : Disk

def SwapCall.checkArguments (F : Type) [Runtime F] (call : SwapCall) : Checked Unit := do
  let _ ← requireSha256 (.str call.expectedChampionHash : Json F) "expected_champion_hash"
  let _ ← requireSha256 (.str call.candidateHash : Json F) "candidate_hash"
  let _ ← requireNonempty (.str call.generationId : Json F) "generation_id"
  let _ ← requireNonempty (.str call.evaluationKey : Json F) "evaluation_key"
  let _ ← requireNonempty (.str call.actor : Json F) "actor"

def requireSame (field expected actual : String) : Checked Unit :=
  require (actual = expected)
    ⟨.passReport, s!"report {field} mismatch: expected {reprText expected}, found {reprText actual}"⟩

/-- The report is about this candidate, the champion it tested and the same evaluation. -/
def SwapCall.checkMetadata (call : SwapCall) (report : FinalizedPassReport) : Checked Unit := do
  requireSame "candidate_hash" call.candidateHash report.candidateHash
  requireSame "tested_champion_hash" call.expectedChampionHash report.testedChampionHash
  requireSame "original_hash" call.provenance.originalHash report.originalHash
  requireSame "evaluation_key" call.evaluationKey report.evaluationKey
  requireSame "config_hash" call.provenance.configHash report.configHash
  requireSame "schedule_hash" call.provenance.scheduleHash report.scheduleHash
  requireSame "policy_hash" call.provenance.policyHash report.policyHash

def SwapCall.replacement (call : SwapCall) (timestamp : String) : ChampionRecord where
  schemaVersion := championSchemaVersion
  championHash := call.candidateHash
  generationId := call.generationId
  previousChampionHash := some call.expectedChampionHash
  originalHash := call.provenance.originalHash
  activatedAtUtc := timestamp
  controllerHash := call.provenance.controllerHash
  sourceHash := call.provenance.sourceHash
  configHash := call.provenance.configHash
  scheduleHash := call.provenance.scheduleHash
  policyHash := call.provenance.policyHash
  evaluationKey := some call.evaluationKey
  passReportPath := some (stablePath call.passReportPath)
  passReportHash := some call.passReportHash
  actor := call.actor
  bootstrap := false
  recordHash := ""

/-- The fields in which a current champion differs from what the call would make of it. -/
def SwapCall.conflicts (call : SwapCall) (current : ChampionRecord) : List String :=
  [("previous_champion_hash", decide (current.previousChampionHash = some call.expectedChampionHash)),
    ("generation_id", decide (current.generationId = call.generationId)),
    ("original_hash", decide (current.originalHash = call.provenance.originalHash)),
    ("controller_hash", decide (current.controllerHash = call.provenance.controllerHash)),
    ("source_hash", decide (current.sourceHash = call.provenance.sourceHash)),
    ("config_hash", decide (current.configHash = call.provenance.configHash)),
    ("schedule_hash", decide (current.scheduleHash = call.provenance.scheduleHash)),
    ("policy_hash", decide (current.policyHash = call.provenance.policyHash)),
    ("evaluation_key", decide (current.evaluationKey = some call.evaluationKey)),
    ("pass_report_path", decide (current.passReportPath = some (stablePath call.passReportPath))),
    ("pass_report_hash", decide (current.passReportHash = some call.passReportHash)),
    ("actor", decide (current.actor = call.actor)),
    ("bootstrap", decide (current.bootstrap = false))].filterMap fun field => if field.2 then none else some field.1

/-- What is decided once the arguments and the report are checked. -/
def SwapCall.decideOn (F : Type) [Runtime F] (call : SwapCall) (current : ChampionRecord) : Checked Decision := do
  require (current.originalHash = call.provenance.originalHash)
    ⟨.championConflict, "champion and report name different originals"⟩
  if current.championHash = call.candidateHash then
    let conflicts := ", ".intercalate (call.conflicts current)
    require (call.conflicts current = [])
      ⟨.championConflict, s!"candidate is already champion with different metadata: {conflicts}"⟩
    return .current current
  else
    require (current.championHash = call.expectedChampionHash)
      ⟨.staleChampion, s!"stale tested champion {call.expectedChampionHash}; current champion is {current.championHash}"⟩
    let timestamp ← activationTime F call.timestampUtc call.now
    return .replace (← (call.replacement timestamp).build F)

/-- What a call relies on: its arguments, and a finalized report about them. -/
def SwapCall.evidence (F : Type) [Runtime F] (call : SwapCall) : Checked FinalizedPassReport := do
  (call.checkArguments F).reraise .championConflict
  require (call.candidateHash ≠ call.expectedChampionHash)
    ⟨.championConflict, "candidate must differ from expected champion"⟩
  let report ← loadFinalizedPassReport F call.passReportPath call.report call.passReportHash
  call.checkMetadata report
  return report

def SwapCall.decide (F : Type) [Runtime F] (call : SwapCall) (path : String) (file : FileAt) : Checked Decision := do
  let _ ← call.evidence F
  let current ← loadChampion F path file
  call.decideOn F current

/-- The calls that may write the champion file. -/
inductive ChampionCall where
  | bootstrapChampion (call : BootstrapCall)
  | compareAndSwap (call : SwapCall)

namespace ChampionCall

def decide (F : Type) [Runtime F] (call : ChampionCall) (path : String) (file : FileAt) : Checked Decision :=
  match call with
  | .bootstrapChampion call => call.decide F path file
  | .compareAndSwap call => call.decide F path file

def disk : ChampionCall → Disk
  | .bootstrapChampion call => call.disk
  | .compareAndSwap call => call.disk

/-- What a call returns, and the file after it. -/
def run (F : Type) [Runtime F] (call : ChampionCall) (path : String) (file : FileAt) : Checked ChampionRecord × FileAt :=
  match call.decide F path file with
  | .error e => (.error e, file)
  | .ok (.current record) => (.ok record, file)
  | .ok (.replace record) => writeChampion F call.disk file record

/-- The file after calls, one after the other. -/
def runAll (F : Type) [Runtime F] (path : String) (file : FileAt) (calls : List ChampionCall) : FileAt :=
  calls.foldl (fun file call => (call.run F path file).2) file

end ChampionCall
end KataGo.Promotion
