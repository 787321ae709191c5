import KataGo.Lib.Dict
import KataGo.Lib.Effects
import KataGo.Lib.Json

/-! The directory of the trainer receipts of `python/risk_score/promotion_feedback.py`, and how
its files are written. -/

namespace KataGo.Trainer
open KataGo.Lib

/-- `PromotionFeedbackError`, and the errors of the operating system. -/
inductive Error where
  | feedback (message : String)
  | os (message : String)
  deriving DecidableEq, Repr

/-- What a recorder is set up with, and `canonical_sha256`: the digest of the canonical text of
a value, an error if it has none. -/
structure Setting where
  root : String
  manifestFilename : String
  canonicalSha256 : Json Empty → Except Error String

def schemaVersion : Int := 1
def trainerReceiptContract : String := "katago-generation-trainer-receipt-v1"
def trainerWatermarkContract : String := "katago-generation-trainer-watermark-v1"

/-- A file as `_stable_file_record` lists it. -/
structure FileRecord where
  path : String
  sha256 : String
  size : Int
  mtimeNs : Int
  ctimeNs : Int
  device : Int
  inode : Int
  deriving DecidableEq

def FileRecord.toJson (f : FileRecord) : Json Empty :=
  .obj [("path", .str f.path), ("sha256", .str f.sha256), ("size", .int f.size), ("mtime_ns", .int f.mtimeNs),
    ("ctime_ns", .int f.ctimeNs), ("device", .int f.device), ("inode", .int f.inode)]

def inventoryJson (inventory : List FileRecord) : Json Empty := .arr (inventory.map FileRecord.toJson)

/-- The generations that a shuffle was made from, with the hash of the candidate of each. -/
structure Generations where
  generationIds : List String
  candidateHashes : List (String × String)
  deriving DecidableEq

def Generations.fields (g : Generations) : List (String × Json Empty) :=
  [("generation_ids", .arr (g.generationIds.map .str)),
    ("candidate_hashes", .obj (g.candidateHashes.map fun entry => (entry.1, .str entry.2)))]

structure ShuffleBinding where
  observedAtUtc : String
  shufflePath : String
  shuffleManifestPath : String
  shuffleManifestFileSha256 : String
  shuffleManifestReceiptSha256 : String
  generations : Generations
  deriving DecidableEq

namespace ShuffleBinding

def identityFields (b : ShuffleBinding) : List (String × Json Empty) :=
  [("schema_version", .int schemaVersion), ("contract", .str trainerReceiptContract), ("kind", .str "shuffle-binding"),
    ("shuffle_path", .str b.shufflePath), ("shuffle_manifest_path", .str b.shuffleManifestPath),
    ("shuffle_manifest_file_sha256", .str b.shuffleManifestFileSha256),
    ("shuffle_manifest_receipt_sha256", .str b.shuffleManifestReceiptSha256)] ++ b.generations.fields

def toJson (b : ShuffleBinding) : Json Empty := .obj (("observed_at_utc", .str b.observedAtUtc) :: b.identityFields)

/-- Whether two bindings differ in the time of their observation only. -/
def sameIdentity (b b' : ShuffleBinding) : Bool := { b with observedAtUtc := b'.observedAtUtc } = b'

end ShuffleBinding

structure ConsumptionIdentity where
  shuffleManifestFileSha256 : String
  samplesBefore : Int
  samplesAfter : Int
  selectedFiles : List FileRecord
  deriving DecidableEq

namespace ConsumptionIdentity

def fields (i : ConsumptionIdentity) : List (String × Json Empty) :=
  [("shuffle_manifest_file_sha256", .str i.shuffleManifestFileSha256), ("samples_before", .int i.samplesBefore),
    ("samples_after", .int i.samplesAfter), ("selected_files", inventoryJson i.selectedFiles)]

/-- Whether the sample ranges have a sample in common. -/
def overlaps (i j : ConsumptionIdentity) : Bool := i.samplesBefore < j.samplesAfter && j.samplesBefore < i.samplesAfter

end ConsumptionIdentity

structure Consumption where
  observedAtUtc : String
  shufflePath : String
  shuffleManifestPath : String
  identity : ConsumptionIdentity
  shuffleManifestReceiptSha256 : String
  generations : Generations
  selectedFilesSha256 : String
  deriving DecidableEq

def Consumption.toJson (p : Consumption) : Json Empty :=
  .obj ([("schema_version", .int schemaVersion), ("contract", .str trainerReceiptContract), ("kind", .str "consumption"),
    ("observed_at_utc", .str p.observedAtUtc), ("shuffle_path", .str p.shufflePath),
    ("shuffle_manifest_path", .str p.shuffleManifestPath),
    ("shuffle_manifest_receipt_sha256", .str p.shuffleManifestReceiptSha256),
    ("selected_files_sha256", .str p.selectedFilesSha256)] ++ p.identity.fields ++ p.generations.fields)

inductive Kind where
  | checkpoint
  | longtermCheckpoint
  | exported
  deriving DecidableEq, Repr

namespace Kind

def value : Kind → String
  | checkpoint => "checkpoint"
  | longtermCheckpoint => "longterm-checkpoint"
  | exported => "export"

/-- The kinds that `record_checkpoint` takes. -/
def ofCheckpoint (kind : String) : Option Kind :=
  if kind = "checkpoint" then some checkpoint
  else if kind = "longterm-checkpoint" then some longtermCheckpoint
  else none

end Kind

/-- A checkpoint is a file, an export a directory. -/
inductive Artifact where
  | file (path : String) (size : Int) (sha256 : String)
  | directory (path : String) (inventory : List FileRecord) (inventorySha256 : String)
  deriving DecidableEq

def Artifact.toJson : Artifact → Json Empty
  | .file path size sha256 => .obj [("path", .str path), ("size", .int size), ("sha256", .str sha256)]
  | .directory path inventory inventorySha256 =>
      .obj [("path", .str path), ("inventory", inventoryJson inventory), ("inventory_sha256", .str inventorySha256)]

def optional : Option String → Json Empty
  | none => .null
  | some s => .str s

structure ArtifactIdentity where
  kind : Kind
  sampleCount : Int
  artifact : Artifact
  shuffleManifestFileSha256 : String
  consumptionReceiptSha256 : Option String
  consumptionLineageSha256 : String
  deriving DecidableEq

def ArtifactIdentity.fields (i : ArtifactIdentity) : List (String × Json Empty) :=
  [("kind", .str i.kind.value), ("sample_count", .int i.sampleCount), ("artifact", i.artifact.toJson),
    ("shuffle_manifest_file_sha256", .str i.shuffleManifestFileSha256),
    ("consumption_receipt_sha256", optional i.consumptionReceiptSha256),
    ("consumption_lineage_sha256", .str i.consumptionLineageSha256)]

/-- A consumption that a checkpoint or an export comes after. -/
structure LineageEntry where
  path : String
  receiptSha256 : String
  samplesBefore : Int
  samplesAfter : Int
  shuffleManifestFileSha256 : String
  generations : Generations
  deriving DecidableEq

def LineageEntry.toJson (e : LineageEntry) : Json Empty :=
  .obj ([("path", .str e.path), ("receipt_sha256", .str e.receiptSha256), ("samples_before", .int e.samplesBefore),
    ("samples_after", .int e.samplesAfter), ("shuffle_manifest_file_sha256", .str e.shuffleManifestFileSha256)] ++
    e.generations.fields)

def lineageJson (lineage : List LineageEntry) : Json Empty := .arr (lineage.map LineageEntry.toJson)

structure Lineage where
  observedAtUtc : String
  identity : ArtifactIdentity
  shuffleManifestPath : String
  shuffleManifestReceiptSha256 : String
  generations : Generations
  consumptionReceiptPath : Option String
  consumptionLineage : List LineageEntry
  deriving DecidableEq

def Lineage.toJson (p : Lineage) : Json Empty :=
  .obj ([("schema_version", .int schemaVersion), ("contract", .str trainerReceiptContract),
    ("observed_at_utc", .str p.observedAtUtc)] ++ p.identity.fields ++
    [("shuffle_manifest_path", .str p.shuffleManifestPath),
      ("shuffle_manifest_receipt_sha256", .str p.shuffleManifestReceiptSha256)] ++ p.generations.fields ++
    [("consumption_receipt_path", optional p.consumptionReceiptPath),
      ("consumption_lineage", lineageJson p.consumptionLineage)])

/-- A payload with its own digest. -/
structure Receipt (α : Type) where
  payload : α
  receiptSha256 : String
  deriving DecidableEq

def finalizeReceipt {α : Type} (c : Setting) (toJson : α → Json Empty) (payload : α) : Except Error (Receipt α) := do
  return ⟨payload, ← c.canonicalSha256 (toJson payload)⟩

def Receipt.Valid {α : Type} (c : Setting) (toJson : α → Json Empty) (r : Receipt α) : Prop :=
  c.canonicalSha256 (toJson r.payload) = .ok r.receiptSha256

def validateReceipt {α : Type} (c : Setting) (toJson : α → Json Empty) (role : String) (r : Receipt α) :
    Except Error (Receipt α) := do
  let current ← c.canonicalSha256 (toJson r.payload)
  require (r.receiptSha256 = current) (.feedback s!"{role} self-hash is invalid")
  return r

structure WatermarkRow where
  path : String
  kind : String
  receiptSha256 : String
  sampleCount : Int
  generationIds : List String
  deriving DecidableEq

def WatermarkRow.toJson (row : WatermarkRow) : Json Empty :=
  .obj [("path", .str row.path), ("kind", .str row.kind), ("receipt_sha256", .str row.receiptSha256),
    ("sample_count", .int row.sampleCount), ("generation_ids", .arr (row.generationIds.map .str))]

/-- `trainer-watermark.json` -/
structure Watermark where
  receipts : List WatermarkRow
  watermarkSha256 : String
  deriving DecidableEq

def watermarkPayload (receipts : List WatermarkRow) : Json Empty :=
  .obj [("schema_version", .int schemaVersion), ("contract", .str trainerWatermarkContract),
    ("receipts", .arr (receipts.map WatermarkRow.toJson))]

/-- What a file holds; `unfinished` until all of it is written. -/
inductive Content where
  | unfinished
  | binding (r : Receipt ShuffleBinding)
  | consumption (r : Receipt Consumption)
  | lineage (r : Receipt Lineage)
  | watermark (w : Watermark)
  deriving DecidableEq

inductive Folder where
  | top
  | bindings
  | consumption
  | checkpoints
  | exports
  deriving DecidableEq, Repr

def Folder.name : Folder → String
  | top => ""
  | bindings => "bindings/"
  | consumption => "consumption/"
  | checkpoints => "checkpoints/"
  | exports => "exports/"

def Setting.pathOf (c : Setting) (folder : Folder) (name : String) : String := c.root ++ "/" ++ folder.name ++ name

/-- A folder that does not exist reads like one without files. -/
structure Disk where
  files : Folder → Dict String Content

namespace Disk

def empty : Disk := ⟨fun _ => .empty⟩

def get (d : Disk) (folder : Folder) (name : String) : Option Content := (d.files folder).get name

def update (d : Disk) (folder : Folder) (f : Dict String Content → Dict String Content) : Disk :=
  ⟨fun other => if other = folder then f (d.files other) else d.files other⟩

def isJson (name : String) : Bool := ".json".toList <:+ name.toList

/-- The files that match `*.json`, in the order of their names. -/
def glob (d : Disk) (folder : Folder) : List (String × Content) :=
  (d.files folder).sort.entries.filter fun entry => isJson entry.1

end Disk

inductive Effect where
  | mkstemp (folder : Folder) (name : String)
  | write (folder : Folder) (name : String) (content : Content)
  | link (folder : Folder) (source target : String)
  | replace (folder : Folder) (source target : String)
  | unlink (folder : Folder) (name : String)
  deriving DecidableEq

def Effect.act (d : Disk) : Effect → Disk
  | mkstemp folder name => d.update folder fun files => files.set name .unfinished
  | write folder name content => d.update folder fun files => files.set name content
  | link folder source target =>
      match d.get folder source with
      | some content => d.update folder fun files => files.set target content
      | none => d
  | replace folder source target =>
      match d.get folder source with
      | some content => d.update folder fun files => (files.erase source).set target content
      | none => d
  | unlink folder name => d.update folder fun files => files.erase name

instance : Acts Effect Disk := ⟨fun e d => e.act d⟩

abbrev Os := Program Effect Disk Error

inductive SysCall where
  | mkdir
  | mkstemp
  | write
  | fsync
  | chmod
  | link
  | replace
  | fsyncDirectory
  | unlink
  deriving DecidableEq, Repr

/-- What the operating system does in the writing of one file: the name of the temporary file,
and which calls fail. -/
structure Io where
  token : String
  fails : SysCall → Bool

def Io.check (io : Io) (call : SysCall) : Os Unit :=
  Program.lift (require (io.fails call = false) (.os s!"{repr call}"))

def Io.temporary (io : Io) (name : String) : String := "." ++ name ++ "." ++ io.token ++ ".tmp"

/-- `tempfile.mkstemp` never takes a name that is in use. -/
def Io.mkstemp (io : Io) (folder : Folder) (name : String) : Os String := do
  io.check .mkstemp
  let d ← Program.read
  if (d.get folder (io.temporary name)).isSome then
    Program.raise (.os "No usable temporary file name found")
  else
    Program.perform (.mkstemp folder (io.temporary name))
    return io.temporary name

def Io.discard (io : Io) (folder : Folder) (temporary : String) : Os Unit := do
  io.check .unlink
  Program.perform (.unlink folder temporary)

def atomicReplaceJson (io : Io) (folder : Folder) (name : String) (content : Content) : Os Unit := do
  io.check .mkdir
  let temporary ← io.mkstemp folder name
  Program.finally_
    (do
      io.check .write
      Program.perform (.write folder temporary content)
      io.check .fsync
      io.check .chmod
      io.check .replace
      Program.perform (.replace folder temporary name)
      io.check .fsyncDirectory)
    (io.discard folder temporary)

/-- Whether the file is there already; an error if it is there with another content. -/
def alreadyThere (folder : Folder) (name : String) (content : Content) (message : String) : Os Bool := do
  let d ← Program.read
  match d.get folder name with
  | none => return false
  | some present =>
      if present = content then return true
      else Program.raise (.feedback message)

/-- Create immutable canonical JSON, accepting an exact retry. -/
def atomicCreateJson (io : Io) (folder : Folder) (name : String) (content : Content) : Os Bool := do
  io.check .mkdir
  if ← alreadyThere folder name content s!"immutable receipt conflicts: {name}" then
    return true
  else
    let temporary ← io.mkstemp folder name
    Program.finally_
      (do
        io.check .write
        Program.perform (.write folder temporary content)
        io.check .fsync
        io.check .chmod
        io.check .link
        if ← alreadyThere folder name content s!"concurrent immutable receipt conflicts: {name}" then
          return true
        else
          Program.perform (.link folder temporary name)
          io.check .fsyncDirectory
          return false)
      (io.discard folder temporary)

end KataGo.Trainer
