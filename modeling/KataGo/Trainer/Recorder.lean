import KataGo.Trainer.Disk
import Mathlib.Data.List.MinMax

/-! `TrainerProvenanceRecorder` of `python/risk_score/promotion_feedback.py`: its calls, and the
runs of recorder processes one after another. -/

namespace KataGo.Trainer
open KataGo.Lib

/-- What the recorder uses of a shuffle manifest. -/
structure ShuffleManifest where
  strict : Bool
  receiptSha256 : String
  generations : Generations
  outputInventory : List FileRecord
  deriving DecidableEq

/-- What a call reads outside its own directory, each an error where the reading raises one:
`_absolute_directory`, `file_sha256`, `load_shuffle_manifest`, `_stable_file_record`,
`tree_inventory`, and how paths resolve. -/
structure Readings where
  absoluteDirectory : String → String → Except Error String
  exists_ : String → Bool
  fileSha256 : String → Except Error String
  loadShuffleManifest : String → Except Error ShuffleManifest
  resolve : String → Except Error String
  relativeTo : String → String → Option String
  stableFileRecord : String → String → Except Error FileRecord
  isRegular : String → Bool
  size : String → Except Error Int
  treeInventory : String → Except Error (List FileRecord)

/-- What surrounds one call. -/
structure World where
  readings : Readings
  now : Except Error String
  receiptIo : Io
  projectionIo : Io

/-- `self.binding` -/
structure Binding where
  shufflePath : String
  manifestPath : String
  manifest : ShuffleManifest
  manifestFileSha256 : String
  bindingPath : String
  bindingReceiptSha256 : String
  deriving DecidableEq

structure Recorder where
  strict : Bool
  binding : Option Binding
  deriving DecidableEq

def isAbsolute (path : String) : Bool := path.toList.head? = some '/'

def joinPath (base path : String) : String := if isAbsolute path then path else base ++ "/" ++ path

def fileKey (key : String) : String := String.ofList (key.toList.take 20)

/-- The digits of a number that is not negative, with zeros before them up to twenty. -/
def padded (n : Int) : String :=
  String.ofList (List.replicate (20 - (Nat.toDigits 10 n.toNat).length) '0' ++ Nat.toDigits 10 n.toNat)

/-- The receipt of a binding: the one that is there, or a new one. -/
def bindingReceipt (c : Setting) (w : World) (payload : ShuffleBinding) (name : String) : Os (Receipt ShuffleBinding) := do
  let d ← Program.read
  match d.get .bindings name with
  | some (.binding r) =>
      let receipt ← Program.lift (validateReceipt c ShuffleBinding.toJson "trainer shuffle binding" r)
      Program.lift (require (receipt.payload.sameIdentity payload)
        (.feedback "trainer shuffle binding retry changed immutable identity"))
      return receipt
  | some _ => Program.raise (.feedback "cannot load trainer shuffle binding")
  | none =>
      let receipt ← Program.lift (finalizeReceipt c ShuffleBinding.toJson payload)
      let _ ← atomicCreateJson w.receiptIo .bindings name (.binding receipt)
      return receipt

def bindShuffle (c : Setting) (w : World) (r : Recorder) (shufflePath : String) (required : Option Bool) :
    Os Recorder := do
  let directory ← Program.lift (w.readings.absoluteDirectory shufflePath "trainer shuffle")
  let manifestPath := directory ++ "/" ++ c.manifestFilename
  if w.readings.exists_ manifestPath = false then
    if required.getD r.strict then
      Program.raise (.feedback s!"shuffle has no generation provenance manifest: {directory}")
    else
      return { r with binding := none }
  else
    let manifest ← Program.lift (w.readings.loadShuffleManifest manifestPath)
    Program.lift (require (¬(r.strict = true ∧ manifest.strict = false))
      (.feedback s!"trainer rejects non-strict shuffle provenance: {manifestPath}"))
    let manifestFileHash ← Program.lift (w.readings.fileSha256 manifestPath)
    let observed ← Program.lift w.now
    let payload : ShuffleBinding :=
      ⟨observed, directory, manifestPath, manifestFileHash, manifest.receiptSha256, manifest.generations⟩
    let key ← Program.lift (c.canonicalSha256 (.obj payload.identityFields))
    let receipt ← bindingReceipt c w payload (key ++ ".json")
    return { r with binding := some ⟨directory, manifestPath, manifest, manifestFileHash,
      c.pathOf .bindings (key ++ ".json"), receipt.receiptSha256⟩ }

def requireBinding (w : Readings) (r : Recorder) : Except Error Binding :=
  match r.binding with
  | none => .error (.feedback "trainer provenance operation has no bound shuffle manifest")
  | some b => do
      let current ← w.fileSha256 b.manifestPath
      require (current = b.manifestFileSha256) (.feedback "bound shuffle manifest hash changed")
      let _ ← w.loadShuffleManifest b.manifestPath
      return b

section Reading

variable {α : Type}

/-- The self-checked receipts of a folder with their names, in the order of the names. -/
def consumptionReceipts (c : Setting) (d : Disk) : Except Error (List (String × Receipt Consumption)) :=
  (d.glob .consumption).mapM fun entry =>
    match entry.2 with
    | .consumption r => do
        let receipt ← validateReceipt c Consumption.toJson "trainer consumption receipt" r
        return (entry.1, receipt)
    | .binding _ | .lineage _ =>
        .error (.feedback s!"non-consumption receipt in consumption directory: {c.pathOf .consumption entry.1}")
    | _ => .error (.feedback "cannot load trainer consumption receipt")

/-- The receipts in their order, up to one that is the same; an error at one that clashes. -/
def scan {β : Type} (load : β → Except Error α) (same clash : α → Bool) (message : String) :
    List (String × β) → Except Error (Option String)
  | [] => .ok none
  | (name, item) :: rest => do
      let existing ← load item
      if same existing then return some name
      else if clash existing then .error (.feedback message)
      else scan load same clash message rest

/-- `max` with a key: the first of the largest. -/
def maxBy {α : Type} (key : α → Int) (items : List α) : Option α :=
  @List.argmax α Int Int.instLinearOrder.toPreorder Int.decLt key items

def latestConsumption (c : Setting) (d : Disk) (sampleCount : Int) (manifestHash : String) :
    Except Error (Option (String × Receipt Consumption)) := do
  let receipts ← consumptionReceipts c d
  let found := receipts.filter fun item =>
    item.2.payload.identity.shuffleManifestFileSha256 = manifestHash ∧ item.2.payload.identity.samplesAfter ≤ sampleCount
  return maxBy (fun item => item.2.payload.identity.samplesAfter) found

def LineageEntry.ofReceipt (c : Setting) (item : String × Receipt Consumption) : LineageEntry where
  path := c.pathOf .consumption item.1
  receiptSha256 := item.2.receiptSha256
  samplesBefore := item.2.payload.identity.samplesBefore
  samplesAfter := item.2.payload.identity.samplesAfter
  shuffleManifestFileSha256 := item.2.payload.identity.shuffleManifestFileSha256
  generations := item.2.payload.generations

def LineageEntry.before (e e' : LineageEntry) : Prop :=
  e.samplesBefore < e'.samplesBefore ∨ e.samplesBefore = e'.samplesBefore ∧
    (e.samplesAfter < e'.samplesAfter ∨ e.samplesAfter = e'.samplesAfter ∧ e.path ≤ e'.path)

instance : DecidableRel LineageEntry.before := fun _ _ => inferInstanceAs (Decidable (_ ∨ _ ∧ (_ ∨ _ ∧ _)))

/-- The entries in the order of their samples; an error if two have a sample in common. -/
def orderedLineage (entries : List LineageEntry) : Except Error (List LineageEntry) := do
  let lineage := entries.insertionSort LineageEntry.before
  require ((lineage.zip lineage.tail).all fun pair => pair.1.samplesAfter ≤ pair.2.samplesBefore)
    (.feedback "trainer consumption lineage contains overlapping sample ranges")
  return lineage

def consumptionLineage (c : Setting) (d : Disk) (sampleCount : Int) : Except Error (List LineageEntry) := do
  let receipts ← consumptionReceipts c d
  orderedLineage ((receipts.filter fun item => item.2.payload.identity.samplesAfter ≤ sampleCount).map (LineageEntry.ofReceipt c))

end Reading

/-- A row of the watermark for each receipt of the lineage. -/
def watermarkRow (c : Setting) (folder : Folder) (entry : String × Content) : Except Error WatermarkRow :=
  match entry.2 with
  | .consumption r => do
      let r ← validateReceipt c Consumption.toJson "trainer lineage receipt" r
      return ⟨c.pathOf folder entry.1, "consumption", r.receiptSha256, r.payload.identity.samplesAfter,
        r.payload.generations.generationIds⟩
  | .lineage r => do
      let r ← validateReceipt c Lineage.toJson "trainer lineage receipt" r
      return ⟨c.pathOf folder entry.1, r.payload.identity.kind.value, r.receiptSha256, r.payload.identity.sampleCount,
        r.payload.generations.generationIds⟩
  | _ => .error (.feedback "cannot load trainer lineage receipt")

def watermarkRows (c : Setting) (d : Disk) : Except Error (List WatermarkRow) := do
  let consumption ← (d.glob .consumption).mapM (watermarkRow c .consumption)
  let checkpoints ← (d.glob .checkpoints).mapM (watermarkRow c .checkpoints)
  let exports ← (d.glob .exports).mapM (watermarkRow c .exports)
  return consumption ++ checkpoints ++ exports

def watermarkName : String := "trainer-watermark.json"

def replaceTrainerProjection (c : Setting) (w : World) : Os Unit := do
  let d ← Program.read
  let receipts ← Program.lift (watermarkRows c d)
  let digest ← Program.lift (c.canonicalSha256 (watermarkPayload receipts))
  atomicReplaceJson w.projectionIo .top watermarkName (.watermark ⟨receipts, digest⟩)

/-- The tail of every recording: publish the receipt, then the projection. -/
def publish (c : Setting) (w : World) (folder : Folder) (name : String) (content : Except Error Content) : Os String := do
  let content ← Program.lift content
  let _ ← atomicCreateJson w.receiptIo folder name content
  replaceTrainerProjection c w
  return c.pathOf folder name

/-- One file of a consumption, behind those selected before it. -/
def selectFile (w : Readings) (b : Binding) (selected : List FileRecord × List String) (rawPath : String) :
    Except Error (List FileRecord × List String) := do
  let path := joinPath b.shufflePath rawPath
  match w.relativeTo (← w.resolve path) (← w.resolve b.shufflePath) with
  | none => .error (.feedback s!"trainer selected a file outside the bound shuffle: {path}")
  | some relative =>
      require (relative ∉ selected.2) (.feedback s!"trainer consumption contains duplicate file: {relative}")
      match b.manifest.outputInventory.reverse.find? fun item => item.path = relative with
      | none => .error (.feedback s!"trainer file is absent from shuffle manifest: {relative}")
      | some expected =>
          require (".npz".toList <:+ relative.toList) (.feedback s!"trainer file is absent from shuffle manifest: {relative}")
          let actual ← w.stableFileRecord path b.shufflePath
          require (actual = expected) (.feedback s!"trainer input hash drift: {path}")
          return (selected.1 ++ [actual], selected.2 ++ [relative])

def selectFiles (w : Readings) (b : Binding) (files : List String) : Except Error (List FileRecord) := do
  let (selected, _) ← files.foldlM (selectFile w b) ([], [])
  return selected.insertionSort fun f g => f.path ≤ g.path

/-- What `record_consumption` checks before it looks at the receipts. -/
def consumptionIdentity (w : Readings) (r : Recorder) (files : List String) (samplesBefore samplesAfter : Int) :
    Except Error (Binding × ConsumptionIdentity) := do
  let b ← requireBinding w r
  require (0 ≤ samplesBefore ∧ samplesBefore < samplesAfter)
    (.feedback "trainer consumption sample range must be increasing integers")
  require (files ≠ []) (.feedback "trainer consumption file set is empty")
  let selected ← selectFiles w b files
  return (b, ⟨b.manifestFileSha256, samplesBefore, samplesAfter, selected⟩)

def consumptionContent (c : Setting) (w : World) (b : Binding) (identity : ConsumptionIdentity) : Except Error Content := do
  let payload : Consumption := ⟨← w.now, b.shufflePath, b.manifestPath, identity, b.manifest.receiptSha256,
    b.manifest.generations, ← c.canonicalSha256 (inventoryJson identity.selectedFiles)⟩
  return .consumption (← finalizeReceipt c Consumption.toJson payload)

def recordConsumption (c : Setting) (w : World) (r : Recorder) (files : List String) (samplesBefore samplesAfter : Int) :
    Os String := do
  let (b, identity) ← Program.lift (consumptionIdentity w.readings r files samplesBefore samplesAfter)
  let key ← Program.lift (c.canonicalSha256 (.obj identity.fields))
  let destination := padded samplesBefore ++ "-" ++ padded samplesAfter ++ "-" ++ fileKey key ++ ".json"
  let d ← Program.read
  let receipts ← Program.lift (consumptionReceipts c d)
  let found ← Program.lift (scan Except.ok (fun existing : Receipt Consumption => existing.payload.identity = identity)
    (fun existing => identity.overlaps existing.payload.identity)
    "trainer consumption sample ranges overlap with different lineage" receipts)
  match found with
  | some name => return c.pathOf .consumption name
  | none => publish c w .consumption destination (consumptionContent c w b identity)

def loadLineage (c : Setting) (role : String) : Content → Except Error (Receipt Lineage)
  | .lineage r => validateReceipt c Lineage.toJson role r
  | _ => .error (.feedback s!"cannot load {role}")

/-- What is recorded of a checkpoint or an export. -/
structure ArtifactRequest where
  folder : Folder
  kind : Kind
  sampleCount : Int
  artifact : Except Error Artifact
  role : String
  clash : Lineage → Bool
  clashMessage : String

/-- The identity of an artifact with what stands behind it. -/
structure ArtifactLineage where
  identity : ArtifactIdentity
  consumption : Option (String × Receipt Consumption)
  lineage : List LineageEntry

/-- What the consumption receipts say about an artifact. -/
def artifactLineage (c : Setting) (strict : Bool) (b : Binding) (q : ArtifactRequest) (d : Disk) :
    Except Error ArtifactLineage := do
  let consumption ← latestConsumption c d q.sampleCount b.manifestFileSha256
  require (¬(consumption.isNone = true ∧ strict = true))
    (.feedback s!"strict {q.role} provenance has no prior consumption receipt")
  let lineage ← consumptionLineage c d q.sampleCount
  let artifact ← q.artifact
  let lineageHash ← c.canonicalSha256 (lineageJson lineage)
  return ⟨⟨q.kind, q.sampleCount, artifact, b.manifestFileSha256, consumption.map fun item => item.2.receiptSha256, lineageHash⟩,
    consumption, lineage⟩

def lineageContent (c : Setting) (w : World) (b : Binding) (a : ArtifactLineage) : Except Error Content := do
  let payload : Lineage := ⟨← w.now, a.identity, b.manifestPath, b.manifest.receiptSha256, b.manifest.generations,
    a.consumption.map fun item => c.pathOf .consumption item.1, a.lineage⟩
  return .lineage (← finalizeReceipt c Lineage.toJson payload)

def recordArtifact (c : Setting) (w : World) (strict : Bool) (b : Binding) (q : ArtifactRequest) : Os String := do
  let d ← Program.read
  let a ← Program.lift (artifactLineage c strict b q d)
  let key ← Program.lift (c.canonicalSha256 (.obj a.identity.fields))
  let destination := padded q.sampleCount ++ "-" ++ fileKey key ++ ".json"
  let found ← Program.lift (scan (loadLineage c s!"trainer {q.role} receipt")
    (fun existing => existing.payload.identity = a.identity) (fun existing => q.clash existing.payload) q.clashMessage
    (d.glob q.folder))
  match found with
  | some name => return c.pathOf q.folder name
  | none => publish c w q.folder destination (lineageContent c w b a)

def Readings.absolute (w : Readings) (path : String) : Except Error String := if isAbsolute path then .ok path else w.resolve path

def checkpointRequest (w : Readings) (r : Recorder) (checkpointPath : String) (sampleCount : Int) (kind : String) :
    Except Error (Binding × ArtifactRequest) :=
  match Kind.ofCheckpoint kind with
  | none => .error (.feedback s!"unsupported checkpoint kind: {kind}")
  | some kind => do
      let b ← requireBinding w r
      require (0 ≤ sampleCount) (.feedback "checkpoint sample count must be nonnegative")
      let source ← w.absolute checkpointPath
      require (w.isRegular source) (.feedback s!"trainer checkpoint is not a regular file: {source}")
      return (b, {
        folder := .checkpoints
        kind := kind
        sampleCount := sampleCount
        artifact := do return .file source (← w.size source) (← w.fileSha256 source)
        role := "checkpoint"
        clash := fun existing => existing.identity.kind = kind ∧ existing.identity.sampleCount = sampleCount
        clashMessage := "checkpoint sample already has different immutable lineage" })

def exportRequest (c : Setting) (w : Readings) (r : Recorder) (exportPath : String) (sampleCount : Int) :
    Except Error (Binding × ArtifactRequest) := do
  let b ← requireBinding w r
  require (0 ≤ sampleCount) (.feedback "export sample count must be nonnegative")
  let source ← w.absoluteDirectory exportPath "trainer export"
  let inventory ← w.treeInventory source
  require (inventory ≠ []) (.feedback "trainer export is empty")
  return (b, {
    folder := .exports
    kind := .exported
    sampleCount := sampleCount
    artifact := do return .directory source inventory (← c.canonicalSha256 (inventoryJson inventory))
    role := "export"
    clash := fun existing => existing.identity.sampleCount = sampleCount
    clashMessage := "export sample already has different immutable lineage" })

def recordCheckpoint (c : Setting) (w : World) (r : Recorder) (checkpointPath : String) (sampleCount : Int) (kind : String) :
    Os String := do
  let (b, q) ← Program.lift (checkpointRequest w.readings r checkpointPath sampleCount kind)
  recordArtifact c w r.strict b q

def recordExport (c : Setting) (w : World) (r : Recorder) (exportPath : String) (sampleCount : Int) : Os String := do
  let (b, q) ← Program.lift (exportRequest c w.readings r exportPath sampleCount)
  recordArtifact c w r.strict b q

inductive Call where
  | bindShuffle (shufflePath : String) (required : Option Bool)
  | recordConsumption (files : List String) (samplesBefore samplesAfter : Int)
  | recordCheckpoint (checkpointPath : String) (sampleCount : Int) (kind : String)
  | recordExport (exportPath : String) (sampleCount : Int)
  deriving DecidableEq

/-- A call leaves a recorder and, if it records something, returns the path of a receipt. -/
def Call.run (c : Setting) (w : World) (r : Recorder) : Call → Os (Recorder × Option String)
  | bindShuffle shufflePath required => do return (← Trainer.bindShuffle c w r shufflePath required, none)
  | recordConsumption files samplesBefore samplesAfter => do
      return (r, some (← Trainer.recordConsumption c w r files samplesBefore samplesAfter))
  | recordCheckpoint checkpointPath sampleCount kind => do
      return (r, some (← Trainer.recordCheckpoint c w r checkpointPath sampleCount kind))
  | recordExport exportPath sampleCount => do return (r, some (← Trainer.recordExport c w r exportPath sampleCount))

/-- The disk, the recorder process if there is one, and the effects of the run so far. -/
structure State where
  disk : Disk
  recorder : Option Recorder
  log : List Effect

def State.initial : State := ⟨.empty, none, []⟩

/-- A process is started, makes a call, or stops in a call after some of its effects. -/
inductive Action where
  | start (strict : Bool)
  | call (call : Call) (world : World)
  | crash (call : Call) (world : World) (done : Nat)

namespace State

/-- The effects of a step. -/
def effects (c : Setting) (s : State) : Action → List Effect
  | .start _ => []
  | .call call w => (s.recorder.map fun r => (call.run c w r s.disk).effects).getD []
  | .crash call w done => (s.recorder.map fun r => (call.run c w r s.disk).effects.take done).getD []

def recorderAfter (c : Setting) (s : State) : Action → Option Recorder
  | .start strict => some ⟨strict, none⟩
  | .call call w => s.recorder.map fun r =>
      match (call.run c w r s.disk).result with
      | .ok answer => answer.1
      | .error _ => r
  | .crash .. => none

def step (c : Setting) (s : State) (a : Action) : State :=
  ⟨after s.disk (s.effects c a), s.recorderAfter c a, s.log ++ s.effects c a⟩

def run (c : Setting) (actions : List Action) : State := actions.foldl (step c) initial

end State
end KataGo.Trainer
