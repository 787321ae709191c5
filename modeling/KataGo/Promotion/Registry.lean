import KataGo.Lib.JsonObject
import KataGo.Lib.Sha256
import KataGo.Lib.Utf8
import KataGo.Promotion.Retention

/-! The registry on disk: how an event is built, checked and written, and how a directory of
event files is read back. -/

namespace KataGo.Promotion
open KataGo.Lib

/-- What the registry takes from its runtime besides the text of numbers: how a date is
parsed (with its offset from UTC, if it has one), and what counts as a digit. -/
class Runtime (F : Type) extends NumberText F where
  fromIsoFormat : String → Option (Option Int)
  isDigit : Char → Bool

def eventSchemaVersion : Int := 1
def eventSequenceWidth : Nat := 20
def maxJsonBytes : Nat := 64 * 1024 * 1024

section Text

variable {F : Type} [Runtime F]

mutual
/-- A value as the runtime shows it. -/
def reprJson : Json F → String
  | .null => "None"
  | .bool true => "True"
  | .bool false => "False"
  | .int n => String.ofList (Json.intText n)
  | .float x => String.ofList (NumberText.repr x)
  | .str s => reprText s
  | .arr items => "[" ++ ", ".intercalate (reprItems items) ++ "]"
  | .obj fields => "\x7b" ++ ", ".intercalate (reprFields fields) ++ "\x7d"

def reprItems : List (Json F) → List String
  | [] => []
  | v :: rest => reprJson v :: reprItems rest

def reprFields : List (String × Json F) → List String
  | [] => []
  | (key, v) :: rest => (reprText key ++ ": " ++ reprJson v) :: reprFields rest
end

def showJson : Json F → String
  | .str s => s
  | v => reprJson v

def canonicalJsonBytes (value : Json F) : Checked ByteArray :=
  match Json.canonical value with
  | some text => .ok (Utf8.encode text)
  | none => .error (.value "value is not canonical-JSON compatible")

def sha256Bytes (data : ByteArray) : String := String.ofList (Sha256.hexDigest data.data.toList)

def canonicalSha256 (value : Json F) : Checked String := do
  return sha256Bytes (← canonicalJsonBytes value)

def fieldsOf : Option (Json F) → Checked (List (String × Json F))
  | some (.obj fields) => .ok fields
  | some _ => .error (.value "payload must be a JSON object")
  | none => .error (.value "value is not JSON")

def copyJsonObject (value : Json F) : Checked (List (String × Json F)) := do
  let encoded ← canonicalJsonBytes (if value.isNull then .obj [] else value)
  fieldsOf ((Utf8.decode encoded).bind (Json.loads plainHooks))

def validateUtcTimestamp (value : Json F) (field : String) : Checked String :=
  match value with
  | .str s =>
      if s.toList.getLast? = some 'Z' then
        match Runtime.fromIsoFormat F (String.ofList s.toList.dropLast ++ "+00:00") with
        | none => .error (.value s!"{field} is not a valid ISO-8601 timestamp")
        | some offset => if offset = some 0 then .ok s else .error (.value s!"{field} must be UTC")
      else .error (.value s!"{field} must be an ISO-8601 UTC timestamp ending in Z")
  | _ => .error (.value s!"{field} must be an ISO-8601 UTC timestamp ending in Z")

end Text

def Transition.all : List Transition :=
  [.championBootstrapped, .candidateDiscovered, .candidateClaimed, .candidateSuperseded,
    .evaluationIntegrityStarted, .evaluationScreenStarted, .evaluationFinalistStarted,
    .evaluationConfirmationStarted, .candidateRejected, .candidateQuarantined, .candidateConfirmed,
    .generationPromotionIntent, .generationCanaryStarted, .generationRolloutStarted, .generationActivated,
    .generationRollbackStarted, .generationRolledBack, .generationQuarantined, .referencePinned, .referenceUnpinned]

def Transition.ofValue (value : String) : Option Transition := Transition.all.find? fun t => t.value = value

/-- An event whose fields have not been checked. -/
structure RawEvent (F : Type) where
  schemaVersion : Json F
  sequence : Json F
  previousHash : Json F
  timestampUtc : Json F
  controllerHash : Json F
  sourceHash : Json F
  candidateHash : Json F
  candidatePath : Json F
  championHash : Json F
  originalHash : Json F
  transition : Transition
  evaluationKey : Json F
  configHash : Json F
  scheduleHash : Json F
  policyHash : Json F
  reason : Json F
  actor : Json F
  payload : Json F
  eventHash : Json F

section Events

variable {F : Type}

def optional : Option String → Json F
  | none => .null
  | some s => .str s

/-- The fields of an event without its own hash. -/
def PromotionEvent.bodyFields (e : PromotionEvent F) (payload : List (String × Json F)) : List (String × Json F) :=
  [("schema_version", .int e.schemaVersion), ("sequence", .int e.sequence), ("previous_hash", .str e.previousHash),
    ("timestamp_utc", .str e.timestampUtc), ("controller_hash", .str e.controllerHash),
    ("source_hash", .str e.sourceHash), ("candidate_hash", optional e.candidateHash),
    ("candidate_path", optional e.candidatePath), ("champion_hash", .str e.championHash),
    ("original_hash", .str e.originalHash), ("transition", .str e.transition.value),
    ("evaluation_key", optional e.evaluationKey), ("config_hash", .str e.configHash),
    ("schedule_hash", .str e.scheduleHash), ("policy_hash", .str e.policyHash), ("reason", .str e.reason),
    ("actor", .str e.actor), ("payload", .obj payload)]

variable [Runtime F]

def PromotionEvent.bodyDict (e : PromotionEvent F) : Checked (List (String × Json F)) := do
  return e.bodyFields (← copyJsonObject (.obj e.payload))

def PromotionEvent.toDict (e : PromotionEvent F) : Checked (List (String × Json F)) := do
  return (← e.bodyDict) ++ [("event_hash", .str e.eventHash)]

def checkSchemaVersion (version : Json F) : Checked Int :=
  match version with
  | .int n => if n = eventSchemaVersion then .ok n else
      .error (.corrupt s!"unsupported event schema version: {showJson version}")
  | _ => .error (.corrupt s!"unsupported event schema version: {showJson version}")

def checkSequence (sequence : Json F) : Checked Int :=
  match sequence with
  | .int n =>
      if n < 1 then .error (.corrupt "event sequence must be positive")
      else if n ≥ 10 ^ eventSequenceWidth then
        .error (.corrupt s!"event sequence exceeds {eventSequenceWidth}-digit filename width")
      else .ok n
  | _ => .error (.corrupt "event sequence must be an integer")

/-- A field that may be missing, checked when it is there. -/
def optionally (check : Json F → Checked String) (value : Json F) : Checked (Option String) :=
  if value.isNull then .ok none else do return some (← check value)

/-- The checks of the fields, in their order; all of them raise a `ValueError`. -/
def checkFields (raw : RawEvent F) (schemaVersion sequence : Int) : Checked (PromotionEvent F) := do
  let previousHash ← requireSha256 raw.previousHash "previous_hash"
  let timestampUtc ← validateUtcTimestamp raw.timestampUtc "timestamp_utc"
  let controllerHash ← requireSha256 raw.controllerHash "controller_hash"
  let sourceHash ← requireSha256 raw.sourceHash "source_hash"
  let championHash ← requireSha256 raw.championHash "champion_hash"
  let originalHash ← requireSha256 raw.originalHash "original_hash"
  let configHash ← requireSha256 raw.configHash "config_hash"
  let scheduleHash ← requireSha256 raw.scheduleHash "schedule_hash"
  let policyHash ← requireSha256 raw.policyHash "policy_hash"
  let eventHash ← requireSha256 raw.eventHash "event_hash"
  let reason ← requireNonempty raw.reason "reason"
  let actor ← requireNonempty raw.actor "actor"
  let evaluationKey ← optionally (fun value => requireNonempty value "evaluation_key") raw.evaluationKey
  require (raw.candidateHash.isNull = raw.candidatePath.isNull)
    (.value "candidate_hash and candidate_path must both be set or both be null")
  let candidateHash ← optionally (fun value => requireSha256 value "candidate_hash") raw.candidateHash
  let candidatePath ← optionally (fun value => requireNonempty value "candidate_path") raw.candidatePath
  let payload ← copyJsonObject raw.payload
  return {
    schemaVersion := schemaVersion
    sequence := sequence
    previousHash := previousHash
    timestampUtc := timestampUtc
    controllerHash := controllerHash
    sourceHash := sourceHash
    candidateHash := candidateHash
    candidatePath := candidatePath
    championHash := championHash
    originalHash := originalHash
    transition := raw.transition
    evaluationKey := evaluationKey
    configHash := configHash
    scheduleHash := scheduleHash
    policyHash := policyHash
    reason := reason
    actor := actor
    payload := payload
    eventHash := eventHash }

/-- Check the types of the fields and the hash of an event. -/
def RawEvent.verify (raw : RawEvent F) : Checked (PromotionEvent F) := do
  let schemaVersion ← checkSchemaVersion raw.schemaVersion
  let sequence ← checkSequence raw.sequence
  let event ← (checkFields raw schemaVersion sequence).reraise .registryCorruption
  let expected ← canonicalSha256 (.obj (← event.bodyDict))
  require (event.eventHash = expected)
    (.corrupt s!"event {event.sequence} hash mismatch: stored {event.eventHash}, computed {expected}")
  return event

/-- The arguments of an event, apart from its place in the log. The keys of a dictionary in
the payload are different. -/
structure EventArgs (F : Type) where
  provenance : EventProvenance
  championHash : String
  reason : String
  actor : String
  candidateHash : Option String
  candidatePath : Option String
  evaluationKey : Option String
  payload : Json F
  keyed : payload.keyed = true

/-- An event made from its arguments, with its fields as they were given. -/
def EventArgs.raw (args : EventArgs F) (sequence : Int) (previousHash timestampUtc : String) (transition : Transition)
    (payload : List (String × Json F)) (eventHash : String) : RawEvent F where
  schemaVersion := .int eventSchemaVersion
  sequence := .int sequence
  previousHash := .str previousHash
  timestampUtc := .str timestampUtc
  controllerHash := .str args.provenance.controllerHash
  sourceHash := .str args.provenance.sourceHash
  candidateHash := optional args.candidateHash
  candidatePath := optional args.candidatePath
  championHash := .str args.championHash
  originalHash := .str args.provenance.originalHash
  transition := transition
  evaluationKey := optional args.evaluationKey
  configHash := .str args.provenance.configHash
  scheduleHash := .str args.provenance.scheduleHash
  policyHash := .str args.provenance.policyHash
  reason := .str args.reason
  actor := .str args.actor
  payload := .obj payload
  eventHash := .str eventHash

def EventArgs.bodyFields (args : EventArgs F) (sequence : Int) (previousHash timestampUtc : String)
    (transition : Transition) (payload : List (String × Json F)) : List (String × Json F) :=
  [("schema_version", .int eventSchemaVersion), ("sequence", .int sequence), ("previous_hash", .str previousHash),
    ("timestamp_utc", .str timestampUtc), ("controller_hash", .str args.provenance.controllerHash),
    ("source_hash", .str args.provenance.sourceHash), ("candidate_hash", optional args.candidateHash),
    ("candidate_path", optional args.candidatePath), ("champion_hash", .str args.championHash),
    ("original_hash", .str args.provenance.originalHash), ("transition", .str transition.value),
    ("evaluation_key", optional args.evaluationKey), ("config_hash", .str args.provenance.configHash),
    ("schedule_hash", .str args.provenance.scheduleHash), ("policy_hash", .str args.provenance.policyHash),
    ("reason", .str args.reason), ("actor", .str args.actor), ("payload", .obj payload)]

def build (args : EventArgs F) (sequence : Int) (previousHash timestampUtc : String) (transition : Transition) :
    Checked (PromotionEvent F) := do
  let payload ← copyJsonObject args.payload
  let eventHash ← canonicalSha256 (.obj (args.bodyFields sequence previousHash timestampUtc transition payload))
  (args.raw sequence previousHash timestampUtc transition payload eventHash).verify

def expectedFields : List String :=
  ["schema_version", "sequence", "previous_hash", "timestamp_utc", "controller_hash", "source_hash",
    "candidate_hash", "candidate_path", "champion_hash", "original_hash", "transition", "evaluation_key",
    "config_hash", "schedule_hash", "policy_hash", "reason", "actor", "payload", "event_hash"]

def showNames (names : List String) : String :=
  "[" ++ ", ".intercalate ((names.insertionSort (· ≤ ·)).map reprText) ++ "]"

def namedTransition (fields : List (String × Json F)) : Option Transition :=
  match Json.get fields "transition" with
  | .str s => Transition.ofValue s
  | _ => none

def rawOfFields (fields : List (String × Json F)) (transition : Transition) : RawEvent F where
  schemaVersion := Json.get fields "schema_version"
  sequence := Json.get fields "sequence"
  previousHash := Json.get fields "previous_hash"
  timestampUtc := Json.get fields "timestamp_utc"
  controllerHash := Json.get fields "controller_hash"
  sourceHash := Json.get fields "source_hash"
  candidateHash := Json.get fields "candidate_hash"
  candidatePath := Json.get fields "candidate_path"
  championHash := Json.get fields "champion_hash"
  originalHash := Json.get fields "original_hash"
  transition := transition
  evaluationKey := Json.get fields "evaluation_key"
  configHash := Json.get fields "config_hash"
  scheduleHash := Json.get fields "schedule_hash"
  policyHash := Json.get fields "policy_hash"
  reason := Json.get fields "reason"
  actor := Json.get fields "actor"
  payload := Json.get fields "payload"
  eventHash := Json.get fields "event_hash"

def missingFields (fields : List (String × Json F)) : List String :=
  expectedFields.filter fun name => name ∉ fields.map Prod.fst

def extraFields (fields : List (String × Json F)) : List String :=
  (fields.map Prod.fst).filter fun name => name ∉ expectedFields

def fromDict (value : Json F) : Checked (PromotionEvent F) :=
  match value with
  | .obj fields => do
      require (missingFields fields = [] ∧ extraFields fields = [])
        (.corrupt s!"event fields differ from schema; missing={showNames (missingFields fields)}, extra={showNames (extraFields fields)}")
      let shown := reprJson (Json.get fields "transition")
      match namedTransition fields with
      | none => .error (.corrupt s!"unknown event transition: {shown}")
      | some transition => (rawOfFields fields transition).verify
  | _ => .error (.corrupt "event JSON root must be an object")

end Events

/-- What a name in the events directory stands for. -/
inductive Node where
  | file (data : ByteArray)
  | other

/-- The path of the events directory. -/
inductive EventsPath where
  | missing
  | notADirectory
  | directory (entries : Dict String Node)

/-- The path of the registry. -/
inductive RootPath where
  | missing
  | notADirectory
  | directory (events : EventsPath)

/-- The registry at a path. -/
structure EventRegistry where
  root : String
  path : RootPath

namespace EventRegistry

def eventsDir (registry : EventRegistry) : String := registry.root ++ "/events"

/-- The entries of the events directory, none if it does not exist. -/
def entries (registry : EventRegistry) : Dict String Node :=
  match registry.path with
  | .directory (.directory entries) => entries
  | _ => .empty

/-- The number that the name of an event file stands for. -/
def eventNumber (name : String) : Option Nat :=
  let digits := name.toList.take eventSequenceWidth
  if digits.length = eventSequenceWidth ∧ digits.all NumberToken.isDigit ∧
      name.toList.drop eventSequenceWidth = ".json".toList then
    some (digits.foldl (fun n c => n * 10 + (c.toNat - '0'.toNat)) 0)
  else none

def eventName (sequence : Nat) : String :=
  let digits := Json.decimal sequence
  String.ofList (List.replicate (eventSequenceWidth - digits.length) '0' ++ digits ++ ".json".toList)

/-- A file of the directory with the number of its name. -/
structure NumberedFile where
  number : Nat
  name : String
  node : Node

def numberLe (a b : NumberedFile) : Prop := a.number ≤ b.number

instance : DecidableRel numberLe := fun a b => inferInstanceAs (Decidable (a.number ≤ b.number))

variable {F : Type} [Runtime F]

/-- Temporary files and files with other names are passed over; a name that looks like that
of an event but is not one is an error. -/
def numberedFiles (F : Type) [Runtime F] : List (String × Node) → Checked (List NumberedFile)
  | [] => .ok []
  | (name, node) :: rest =>
      match eventNumber name with
      | some number => do return ⟨number, name, node⟩ :: (← numberedFiles F rest)
      | none =>
          if name.toList.head? = some '.' ∨ ".tmp".toList <:+ name.toList then numberedFiles F rest
          else if ".json".toList <:+ name.toList ∧ (name.toList.head?.map (Runtime.isDigit F)) = some true then
            .error (.corrupt s!"malformed event filename: {name}")
          else numberedFiles F rest

def eventPaths (F : Type) [Runtime F] (registry : EventRegistry) : Checked (List NumberedFile) :=
  match registry.path with
  | .missing => .ok []
  | .notADirectory => .ok []
  | .directory .missing => .ok []
  | .directory .notADirectory => .error (.corrupt s!"events path is not a directory: {registry.eventsDir}")
  | .directory (.directory entries) => do
      return (← numberedFiles F entries.entries).insertionSort numberLe

def readRegularFile (path : String) (node : Node) : Checked ByteArray :=
  match node with
  | .other => .error (.corrupt s!"expected a regular non-symlink file: {path}")
  | .file data =>
      if maxJsonBytes < data.size then .error (.corrupt s!"JSON file exceeds size limit: {path}") else .ok data

def decodeJson (data : ByteArray) (path : String) : Checked (Json F) :=
  match (Utf8.decode data).bind (Json.loads uniqueHooks) with
  | some value => .ok value
  | none => .error (.corrupt s!"invalid JSON in {path}")

/-- One event file, with its place in the sequence and in the chain of hashes. -/
def readEvent (eventsDir : String) (expected : Nat) (previousHash : String) (file : NumberedFile) :
    Checked (PromotionEvent F) := do
  require (file.number = expected)
    (.corrupt s!"event sequence gap: expected {expected}, found {file.number}")
  let path := eventsDir ++ "/" ++ file.name
  let data ← readRegularFile path file.node
  let value ← decodeJson data path
  let event ← fromDict value
  let canonicalFile ← canonicalJsonBytes (.obj (← event.toDict))
  require (data = canonicalFile ++ Utf8.encode ['\n']) (.corrupt s!"event file is not canonical JSON: {file.name}")
  require (event.sequence = file.number)
    (.corrupt s!"event filename sequence {file.number} does not match payload sequence {event.sequence}")
  require (event.previousHash = previousHash)
    (.corrupt s!"event {event.sequence} previous hash does not match chain")
  return event

def readEvents (eventsDir : String) : Nat → String → List NumberedFile → Checked (List (PromotionEvent F))
  | _, _, [] => .ok []
  | expected, previousHash, file :: rest => do
      let event ← readEvent eventsDir expected previousHash file
      return event :: (← readEvents eventsDir (expected + 1) event.eventHash rest)

def reconstruct (registry : EventRegistry) : Checked (RegistryState F) := do
  let files ← registry.eventPaths F
  let events ← readEvents registry.eventsDir 1 genesisHash files
  stateFromEvents events

def ensureDirectories (registry : EventRegistry) : Checked EventRegistry :=
  match registry.path with
  | .missing => .ok { registry with path := .directory (.directory .empty) }
  | .notADirectory => .error ⟨.notADirectory, registry.root⟩
  | .directory .missing => .ok { registry with path := .directory (.directory .empty) }
  | .directory .notADirectory => .error ⟨.notADirectory, registry.eventsDir⟩
  | .directory (.directory _) => .ok registry

/-- The arguments are checked before the registry is read. -/
def checkArguments (transition : String) (args : EventArgs F) (timestampUtc : Option String) (now : String) :
    Checked (Transition × String) := do
  let normalized ← match Transition.ofValue transition with
    | some t => .ok t
    | none => .error (.value s!"{reprText transition} is not a valid Transition")
  let _ ← requireSha256 (.str args.championHash : Json F) "champion_hash"
  let _ ← requireNonempty (.str args.reason : Json F) "reason"
  let _ ← requireNonempty (.str args.actor : Json F) "actor"
  let _ ← optionally (fun value => requireSha256 value "candidate_hash") (optional args.candidateHash : Json F)
  let _ ← optionally (fun value => requireNonempty value "candidate_path") (optional args.candidatePath : Json F)
  match timestampUtc with
  | none => return (normalized, now)
  | some timestamp => return (normalized, ← validateUtcTimestamp (.str timestamp : Json F) "timestamp_utc")

/-- The event that the arguments make, legal after the events of the registry, with the
directories made and the bytes to write. -/
def prepare (registry : EventRegistry) (transition : String) (args : EventArgs F) (timestampUtc : Option String)
    (now : String) : Checked (PromotionEvent F × EventRegistry × ByteArray) := do
  let checked ← (checkArguments transition args timestampUtc now).reraise .illegalTransition
  let state : RegistryState F ← registry.reconstruct
  let event ← build args (state.lastSequence + 1) state.lastEventHash checked.2 checked.1
  let _ ← stateFromEvents (state.events ++ [event])
  let made ← registry.ensureDirectories
  let data ← canonicalJsonBytes (.obj (← event.toDict))
  return (event, made, data ++ Utf8.encode ['\n'])

/-- Append an event: nothing is written unless every check passes, and the file of an event
is never replaced. -/
def appendEvent (registry : EventRegistry) (transition : String) (args : EventArgs F) (timestampUtc : Option String)
    (now : String) : Checked (PromotionEvent F) × EventRegistry :=
  match registry.prepare transition args timestampUtc now with
  | .error e => (.error e, registry)
  | .ok (event, made, data) =>
      let name := eventName event.sequence.toNat
      let path := made.eventsDir ++ "/" ++ name
      match made.entries.get name with
      | some _ => (.error ⟨.eventConflict, s!"immutable file already exists: {path}"⟩, made)
      | none => (.ok event, { made with path := .directory (.directory (made.entries.set name (.file data))) })

end EventRegistry
end KataGo.Promotion
