import KataGo.Trainer.Runs

/-! Runs of recorder processes one after another: calls that return, that raise, and that are cut
off after any of their effects. -/

namespace KataGo.Trainer
open KataGo.Lib

/-- No sample is in the ranges of two consumption receipts. -/
def Disk.RangesDisjoint (d : Disk) : Prop :=
  ∀ name name' r r', d.Holds .consumption name (.consumption r) → d.Holds .consumption name' (.consumption r') → name ≠ name' →
    ∀ sample, ¬((r.payload.identity.samplesBefore ≤ sample ∧ sample < r.payload.identity.samplesAfter) ∧
      r'.payload.identity.samplesBefore ≤ sample ∧ sample < r'.payload.identity.samplesAfter)

/-- A checkpoint has one receipt for its kind and count. -/
def Disk.OneCheckpoint (d : Disk) : Prop :=
  ∀ name name' r r', d.Holds .checkpoints name (.lineage r) → d.Holds .checkpoints name' (.lineage r') →
    r.payload.identity.kind = r'.payload.identity.kind → r.payload.identity.sampleCount = r'.payload.identity.sampleCount → name = name'

/-- An export has one receipt for its count. -/
def Disk.OneExport (d : Disk) : Prop :=
  ∀ name name' r r', d.Holds .exports name (.lineage r) → d.Holds .exports name' (.lineage r') →
    r.payload.identity.sampleCount = r'.payload.identity.sampleCount → name = name'

section Sound

variable {c : Setting} {d : Disk}

theorem Sound.rangesDisjoint (sound : Sound c d) : d.RangesDisjoint := by
  rintro name name' r r' holds holds' different sample ⟨⟨low, high⟩, low', high'⟩
  apply different
  apply sound.apart .consumption name name' _ _ nofun holds holds'
  show r.payload.identity.overlaps r'.payload.identity = true
  rw [ConsumptionIdentity.overlaps, Bool.and_eq_true, decide_eq_true_eq, decide_eq_true_eq]
  exact ⟨Int.lt_of_le_of_lt low high', Int.lt_of_le_of_lt low' high⟩

theorem Sound.oneCheckpoint (sound : Sound c d) : d.OneCheckpoint := by
  intro name name' r r' holds holds' kind count
  exact sound.apart .checkpoints name name' _ _ nofun holds holds' ⟨kind, count⟩

theorem Sound.oneExport (sound : Sound c d) : d.OneExport := by
  intro name name' r r' holds holds' count
  have exported := (sound.fits .exports name _ nofun holds).2
  have exported' := (sound.fits .exports name' _ nofun holds').2
  exact sound.apart .exports name name' _ _ nofun holds holds' ⟨exported.trans exported'.symm, count⟩

end Sound

section Runs

variable {c : Setting} {s : State} {a : Action} {actions : List Action}

/-- The step ends with a receipt published and the watermark not yet replaced. -/
def State.CutOff (c : Setting) (s : State) (a : Action) : Prop := pending (s.effects c a) = true

/-- No step of the run is cut off there. -/
def Whole (c : Setting) (actions : List Action) : Prop :=
  ∀ before a rest, actions = before ++ a :: rest → ¬(State.run c before).CutOff c a

theorem State.run_concat : run c (actions ++ [a]) = (run c actions).step c a := by
  rw [run, List.foldl_append]
  rfl

theorem State.effects_follow (sound : Sound c s.disk) : Follows (Allowed c) s.disk (s.effects c a) := by
  cases a with
  | start strict => trivial
  | call call w =>
    cases running : s.recorder with
    | none =>
      rw [effects, running]
      trivial
    | some r =>
      rw [effects, running]
      exact (Call.run_meets sound).follows
  | crash call w done =>
    cases running : s.recorder with
    | none =>
      rw [effects, running]
      trivial
    | some r =>
      rw [effects, running]
      exact (Call.run_meets sound).follows.take done

/-- The invariant of every run. -/
theorem State.run_settled (c : Setting) (actions : List Action) : Settled c (run c actions).disk (run c actions).log := by
  induction actions using List.reverseRecOn with
  | nil => exact .initial c
  | append_singleton actions a ih =>
    rw [run_concat]
    exact ih.after (effects_follow ih.sound)

theorem State.run_holds {folder : Folder} {name : String} {content : Content} (inside : folder ≠ .top) (more : List Action)
    (holds : (run c actions).disk.Holds folder name content) : (run c (actions ++ more)).disk.Holds folder name content := by
  induction more using List.reverseRecOn with
  | nil =>
    rw [List.append_nil]
    exact holds
  | append_singleton more a ih =>
    rw [← List.append_assoc, run_concat]
    exact holds_after (effects_follow (run_settled c _).sound) inside ih

theorem Whole.settled (whole : Whole c actions) : pending (State.run c actions).log = false := by
  induction actions using List.reverseRecOn with
  | nil => rfl
  | append_singleton actions a ih =>
    have before : Whole c actions := by
      intro front b rest split
      apply whole front b (rest ++ [a])
      rw [split, List.append_assoc, List.cons_append]
    rw [State.run_concat]
    show pending ((State.run c actions).log ++ (State.run c actions).effects c a) = false
    rw [pending_append (ih before)]
    exact Bool.eq_false_iff.mpr (whole actions a [] rfl)

theorem Completed.published {w : World} {r : Recorder} {d : Disk} {path : String} {es : List Effect} {call : Call}
    (completed : Completed c w.readings r d path es call) :
    ∃ folder content, folder ∈ lineageFolders ∧ Published c d folder path content es := by
  cases completed with
  | consumption identified digest published => exact ⟨.consumption, _, by decide, published⟩
  | artifact requested made identity digest published =>
    refine ⟨_, _, ?_, published⟩
    rcases requested.proper.folder with ⟨folder, -⟩ | ⟨folder, -⟩ <;> simp [folder, lineageFolders]

theorem Published.pending_iff {d : Disk} {folder : Folder} {path : String} {content : Content} {log es : List Effect}
    (published : Published c d folder path content es) : pending (log ++ es) = false ↔ es ≠ [] ∨ pending log = false := by
  rcases published.listed with rfl | ⟨front, io, watermark, rfl⟩
  · simp
  · have replaced : pending (log ++ (front ++ replaceEffects io .top watermarkName watermark)) = false := by
      rw [← List.append_assoc, pending, List.foldl_append]
      rfl
    have published : front ++ replaceEffects io .top watermarkName watermark ≠ [] := by simp [replaceEffects]
    exact ⟨fun _ => .inl published, fun _ => replaced⟩

/-- In every run the receipts stay apart. When a call returns, the watermark lists exactly the
receipts on the disk if the call has published its own, or if none was published since the
watermark was last replaced; so it does in every run in which no step is cut off in between.
Made again, the call publishes nothing, and returns the same receipt unless consumptions at or
below its count have been added. -/
theorem State.run_provenance (c : Setting) (actions : List Action) :
    ((run c actions).disk.RangesDisjoint ∧ (run c actions).disk.OneCheckpoint ∧ (run c actions).disk.OneExport) ∧
      ∀ call w r r' path, (run c actions).recorder = some r →
        (call.run c w r (run c actions).disk).result = .ok (r', some path) →
        (Current c (run c (actions ++ [Action.call call w])).disk ↔
          (call.run c w r (run c actions).disk).effects ≠ [] ∨ pending (run c actions).log = false) ∧
        (Whole c actions → Current c (run c (actions ++ [Action.call call w])).disk) ∧
        ∀ more w', w'.readings = w.readings →
          (call.run c w' r (run c (actions ++ [Action.call call w] ++ more)).disk).effects = [] ∧
            (call.reads (run c (actions ++ [Action.call call w] ++ more)).disk = call.reads (run c (actions ++ [Action.call call w])).disk →
              (call.run c w' r (run c (actions ++ [Action.call call w] ++ more)).disk).result = .ok (r, some path)) := by
  have settled := run_settled c actions
  refine ⟨⟨settled.sound.rangesDisjoint, settled.sound.oneCheckpoint, settled.sound.oneExport⟩, ?_⟩
  intro call w r r' path running returned
  have completed := (Call.run_meets settled.sound).returned _ returned path rfl
  have effects_eq : (run c actions).effects c (.call call w) = (call.run c w r (run c actions).disk).effects := by
    rw [effects, running]
    rfl
  have disk : (run c (actions ++ [Action.call call w])).disk = after (run c actions).disk (call.run c w r (run c actions).disk).effects := by
    rw [run_concat, ← effects_eq]
    rfl
  obtain ⟨folder, content, member, published⟩ := completed.published
  have current : Current c (run c (actions ++ [Action.call call w])).disk ↔
      (call.run c w r (run c actions).disk).effects ≠ [] ∨ pending (run c actions).log = false := by
    have log : (run c (actions ++ [Action.call call w])).log = (run c actions).log ++ (call.run c w r (run c actions).disk).effects := by
      rw [run_concat, ← effects_eq]
      rfl
    have some_ : (run c (actions ++ [Action.call call w])).disk.lineage ≠ [] := by
      obtain ⟨name, -, holds⟩ := published.holds
      rw [disk]
      apply List.ne_nil_of_mem (a := (folder, name, content))
      exact List.mem_flatMap.mpr ⟨folder, member, List.mem_map.mpr ⟨_, Disk.mem_receipts.mpr holds, rfl⟩⟩
    rw [(run_settled c _).current_iff some_, log, published.pending_iff]
  refine ⟨current, fun whole => current.mpr (.inr whole.settled), ?_⟩
  intro more w' same
  have sound := (run_settled c (actions ++ [Action.call call w] ++ more)).sound
  have kept : ∀ folder name content, folder ≠ .top →
      (after (run c actions).disk (call.run c w r (run c actions).disk).effects).Holds folder name content →
      (run c (actions ++ [Action.call call w] ++ more)).disk.Holds folder name content := by
    intro folder name content inside holds
    rw [← disk] at holds
    exact run_holds inside more holds
  constructor
  · exact completed.again_effects sound kept same
  · intro reads
    rw [disk] at reads
    exact completed.again settled.sound sound kept same reads

end Runs

section Sample

def sampleFile : FileRecord :=
  ⟨"data0.npz", "3a6eb0790f39ac87c94f3856b2dd2c5d110e6811602261a9a923d3bb23adc8b7", 4, 1, 1, 1, 1⟩

def sampleManifest : ShuffleManifest where
  strict := true
  receiptSha256 := "6f32860910ca0fb2a20c7fda143666b09dbf8db5238195c90a586fb542ff0cad"
  generations := ⟨["g1"], [("g1", "dda18a0e21ae47c53b4309434cbc02ae8bf764fa83a6defbb719431242722aa7")]⟩
  outputInventory := [sampleFile]

def sampleReadings : Readings where
  absoluteDirectory path _ := .ok path
  exists_ _ := true
  fileSha256 _ := .ok "7021e610a5f62eefd01830fea68e5fa180e8cf017c08ea0890c326b2854ebc96"
  loadShuffleManifest _ := .ok sampleManifest
  resolve path := .ok path
  relativeTo _ _ := some "data0.npz"
  stableFileRecord _ _ := .ok sampleFile
  isRegular _ := true
  size _ := .ok 4
  treeInventory _ := .ok [sampleFile]

def sampleWorld : World where
  readings := sampleReadings
  now := .ok "2026-01-01T00:00:00.000000Z"
  receiptIo := ⟨"k3ab9x0q", fun _ => false⟩
  projectionIo := ⟨"v81mz_2c", fun _ => false⟩

/-- The digests of the values that come up when one consumption is recorded, by their number of
fields. -/
def sampleSetting : Setting where
  root := "/trainer"
  manifestFilename := "generation-provenance.json"
  canonicalSha256
    | .obj fields =>
        match fields.length with
        | 9 => .ok "ab1288862d7d4bd710b597c06e4f1e5057e29622dfa463f1c38c1834e71cff99"
        | 10 => .ok "17f04b841961f9fa87e4e38b380bef8ff8b1c98be7d4d4bf31042852c0e33362"
        | 4 => .ok "46a7e5b0de86e9315db13cc17073bf28fb8c7ab4657b855af34213e26feb1fbf"
        | 14 => .ok "ad12fc8c50bbc011fd8f65f62fa6620b2de656c1e1112b917afff2e5d560ddda"
        | 3 => .ok "e2ac46649516af7af10c7a91216ed46c96be1773550af0d3695f3a91bef88403"
        | _ => .error (.feedback "no digest")
    | .arr _ => .ok "b17fad06ab46aa7c9e29e36a321dfc953182383a34dbaf70e29c7be4535136cf"
    | _ => .error (.feedback "no digest")

def sampleBind : Call := .bindShuffle "/shuffle" none
def sampleRecord : Call := .recordConsumption ["data0.npz"] 0 8

def sampleRecorder : Recorder where
  strict := true
  binding := some {
    shufflePath := "/shuffle"
    manifestPath := "/shuffle/generation-provenance.json"
    manifest := sampleManifest
    manifestFileSha256 := "7021e610a5f62eefd01830fea68e5fa180e8cf017c08ea0890c326b2854ebc96"
    bindingPath := "/trainer/bindings/ab1288862d7d4bd710b597c06e4f1e5057e29622dfa463f1c38c1834e71cff99.json"
    bindingReceiptSha256 := "17f04b841961f9fa87e4e38b380bef8ff8b1c98be7d4d4bf31042852c0e33362" }

def samplePath : String :=
  "/trainer/consumption/00000000000000000000-00000000000000000008-46a7e5b0de86e9315db1.json"

def sampleStart : List Action := [.start true, .call sampleBind sampleWorld]

/-- The recording of one consumption, and its repetition. -/
theorem State.run_provenance_recorded :
    Current sampleSetting (run sampleSetting (sampleStart ++ [Action.call sampleRecord sampleWorld])).disk ∧
      (sampleRecord.run sampleSetting sampleWorld sampleRecorder
        (run sampleSetting (sampleStart ++ [Action.call sampleRecord sampleWorld])).disk).result =
          .ok (sampleRecorder, some samplePath) := by
  have started : (run sampleSetting sampleStart).recorder = some sampleRecorder ∧
      (sampleRecord.run sampleSetting sampleWorld sampleRecorder (run sampleSetting sampleStart).disk).result =
        .ok (sampleRecorder, some samplePath) ∧
      pending (run sampleSetting sampleStart).log = false := by decide +kernel
  obtain ⟨running, returned, settled⟩ := started
  obtain ⟨current, -, again⟩ := (run_provenance sampleSetting sampleStart).2 sampleRecord sampleWorld sampleRecorder sampleRecorder
    samplePath running returned
  constructor
  · exact current.mpr (.inr settled)
  · exact (again [] sampleWorld rfl).2 (by rw [List.append_nil])

/-- A process stops after the publication of its receipt. -/
def sampleCutOff : List Action := sampleStart ++ [Action.crash sampleRecord sampleWorld 3] ++ sampleStart

/-- The next process makes the same call again: it returns the receipt and leaves the disk without
a watermark. -/
theorem State.run_cut_off : (run sampleSetting sampleCutOff).recorder = some sampleRecorder ∧
    (sampleRecord.run sampleSetting sampleWorld sampleRecorder (run sampleSetting sampleCutOff).disk).result =
      .ok (sampleRecorder, some samplePath) ∧
    ¬Current sampleSetting (run sampleSetting (sampleCutOff ++ [Action.call sampleRecord sampleWorld])).disk := by
  have evaluated : (run sampleSetting sampleCutOff).recorder = some sampleRecorder ∧
      (sampleRecord.run sampleSetting sampleWorld sampleRecorder (run sampleSetting sampleCutOff).disk).result =
        .ok (sampleRecorder, some samplePath) ∧
      (run sampleSetting (sampleCutOff ++ [Action.call sampleRecord sampleWorld])).disk.get .top watermarkName = none := by
    decide +kernel
  refine ⟨evaluated.1, evaluated.2.1, ?_⟩
  rintro ⟨w, there, -⟩
  rw [evaluated.2.2] at there
  cases there

end Sample
end KataGo.Trainer
