import KataGo.Trainer.Recordings

/-! Runs of recorder processes: what holds on the disk after any calls, errors and crashes. -/

namespace KataGo.Trainer
open KataGo.Lib

section Calls

variable {c : Setting} {d : Disk} {w : World} {r : Recorder} {call : Call} {path : String} {es : List Effect}

theorem bindingReceipt_meets {payload : ShuffleBinding} {name : String} (json : Disk.isJson name = true) :
    Meets (Allowed c) (bindingReceipt c w payload name) d fun _ es => ∀ e ∈ es, e.folder = .bindings := by
  apply Meets.bind (Meets.read (P := fun found es => d = found ∧ es = []) ⟨rfl, rfl⟩)
  rintro _ _ ⟨rfl, rfl⟩
  split
  next receipt found =>
    apply Meets.bind (Meets.lift (P := fun _ es => es = []) fun _ _ => rfl)
    rintro validated _ rfl
    apply Meets.bind (Meets.lift (P := fun _ es => es = []) fun _ _ => rfl)
    rintro _ _ rfl
    exact Meets.pure fun _ member => (List.not_mem_nil member).elim
  next => exact Meets.raise
  next =>
    apply Meets.bind (Meets.lift (P := fun _ es => es = []) fun _ _ => rfl)
    rintro receipt _ rfl
    have inside : Folder.bindings ≠ .top := nofun
    apply Meets.bind (atomicCreateJson_meets inside json (show Fits c .bindings (.binding receipt) from trivial)
      fun _ _ _ _ clash => clash)
    rintro _ created ⟨shape, -⟩
    apply Meets.pure
    intro e member
    simp only [List.nil_append, List.append_nil] at member
    rcases shape with rfl | rfl
    · cases member
    · exact createEffects_folder member

/-- The effects of a binding. -/
theorem bindShuffle_meets {shufflePath : String} {required : Option Bool} :
    Meets (Allowed c) (bindShuffle c w r shufflePath required) d fun _ es => ∀ e ∈ es, e.folder = .bindings := by
  apply Meets.bind (Meets.lift (P := fun _ es => es = []) fun _ _ => rfl)
  rintro directory _ rfl
  dsimp only
  split
  · split
    · exact Meets.raise
    · exact Meets.pure fun _ member => (List.not_mem_nil member).elim
  · apply Meets.bind (Meets.lift (P := fun _ es => es = []) fun _ _ => rfl)
    rintro manifest _ rfl
    apply Meets.bind (Meets.lift (P := fun _ es => es = []) fun _ _ => rfl)
    rintro _ _ rfl
    apply Meets.bind (Meets.lift (P := fun _ es => es = []) fun _ _ => rfl)
    rintro manifestFileHash _ rfl
    apply Meets.bind (Meets.lift (P := fun _ es => es = []) fun _ _ => rfl)
    rintro observed _ rfl
    apply Meets.bind (Meets.lift (P := fun _ es => es = []) fun _ _ => rfl)
    rintro key _ rfl
    apply Meets.bind (bindingReceipt_meets (isJson_append_json key))
    rintro receipt es folders
    apply Meets.pure
    simpa using folders

/-- The request that a call makes of an artifact. -/
inductive Requests (c : Setting) (w : Readings) (r : Recorder) : Call → Binding → ArtifactRequest → Prop
  | checkpoint {path kind : String} {n : Int} {b : Binding} {q : ArtifactRequest}
      (made : checkpointRequest w r path n kind = .ok (b, q)) : Requests c w r (.recordCheckpoint path n kind) b q
  | exported {path : String} {n : Int} {b : Binding} {q : ArtifactRequest}
      (made : exportRequest c w r path n = .ok (b, q)) : Requests c w r (.recordExport path n) b q

/-- What a completed call has found out and left. -/
inductive Completed (c : Setting) (w : Readings) (r : Recorder) (d : Disk) (path : String) (es : List Effect) : Call → Prop
  | consumption {files : List String} {samplesBefore samplesAfter : Int} {b : Binding} {receipt : Receipt Consumption} {key : String}
      (identified : consumptionIdentity w r files samplesBefore samplesAfter = .ok (b, receipt.payload.identity))
      (digest : c.canonicalSha256 (.obj receipt.payload.identity.fields) = .ok key)
      (published : Published c d .consumption path (.consumption receipt) es) :
      Completed c w r d path es (.recordConsumption files samplesBefore samplesAfter)
  | artifact {call : Call} {b : Binding} {q : ArtifactRequest} {a : ArtifactLineage} {receipt : Receipt Lineage} {key : String}
      (requested : Requests c w r call b q) (made : artifactLineage c r.strict b q d = .ok a)
      (identity : receipt.payload.identity = a.identity) (digest : c.canonicalSha256 (.obj a.identity.fields) = .ok key)
      (published : Published c d q.folder path (.lineage receipt) es) : Completed c w r d path es call

theorem Requests.proper {b : Binding} {q : ArtifactRequest} (requested : Requests c w.readings r call b q) : q.Proper := by
  cases requested with
  | checkpoint made => exact (checkpointRequest_proper made).1
  | exported made => exact (exportRequest_proper made).1

theorem Requests.run_eq {b : Binding} {q : ArtifactRequest} (requested : Requests c w.readings r call b q) :
    call.run c w r d = (recordArtifact c w r.strict b q >>= fun path => pure (r, some path)) d := by
  cases requested with
  | checkpoint made =>
    rw [Call.run, recordCheckpoint, made]
    rfl
  | exported made =>
    rw [Call.run, recordExport, made]
    rfl

theorem recordArtifact_completed (sound : Sound c d) {b : Binding} {q : ArtifactRequest}
    (requested : Requests c w.readings r call b q) :
    Meets (Allowed c) (recordArtifact c w r.strict b q) d fun path es => Completed c w.readings r d path es call := by
  apply (recordArtifact_meets sound requested.proper).weaken
  rintro path es ⟨a, receipt, key, made, identity, digest, published⟩
  exact .artifact requested made identity digest published

theorem answer_meets {x : Os String} (completed : Meets (Allowed c) x d fun path es => Completed c w.readings r d path es call) :
    Meets (Allowed c) (do return (r, some (← x))) d fun answer es =>
      ∀ path, answer.2 = some path → Completed c w.readings r d path es call := by
  apply Meets.bind completed
  intro path es completed
  apply Meets.pure
  rintro _ ⟨⟩
  rw [List.append_nil]
  exact completed

/-- Every call, whatever becomes of it, does to the disk what is allowed. -/
theorem Call.run_meets (sound : Sound c d) : Meets (Allowed c) (call.run c w r) d fun answer es =>
    ∀ path, answer.2 = some path → Completed c w.readings r d path es call := by
  cases call with
  | bindShuffle shufflePath required =>
    apply Meets.bind bindShuffle_meets
    rintro bound es -
    exact Meets.pure nofun
  | recordConsumption files samplesBefore samplesAfter =>
    apply answer_meets
    apply (recordConsumption_meets sound).weaken
    rintro path es ⟨b, receipt, key, identified, digest, published⟩
    exact .consumption identified digest published
  | recordCheckpoint checkpointPath sampleCount kind =>
    apply answer_meets
    apply Meets.bind (Meets.lift (P := fun made es => _ = Except.ok made ∧ es = []) fun made request => ⟨request, rfl⟩)
    rintro ⟨b, q⟩ _ ⟨request, rfl⟩
    exact recordArtifact_completed sound (.checkpoint request)
  | recordExport exportPath sampleCount =>
    apply answer_meets
    apply Meets.bind (Meets.lift (P := fun made es => _ = Except.ok made ∧ es = []) fun made request => ⟨request, rfl⟩)
    rintro ⟨b, q⟩ _ ⟨request, rfl⟩
    exact recordArtifact_completed sound (.exported request)

/-- What a call reads of the consumption receipts for the lineage of its artifact. -/
def Call.reads (d : Disk) : Call → List (String × Receipt Consumption)
  | .recordCheckpoint _ sampleCount _ => d.upTo sampleCount
  | .recordExport _ sampleCount => d.upTo sampleCount
  | _ => []

section Again

variable {d' : Disk} {w' : World}

theorem Requests.reads_eq {b : Binding} {q : ArtifactRequest} (requested : Requests c w.readings r call b q) (d : Disk) :
    call.reads d = d.upTo q.sampleCount := by
  cases requested with
  | checkpoint made => rw [(checkpointRequest_proper made).2, Call.reads]
  | exported made => rw [(exportRequest_proper made).2, Call.reads]

theorem upTo_after {folder : Folder} {content : Content} (published : Published c d folder path content es)
    (elsewhere : folder ≠ .consumption) (n : Int) : (after d es).upTo n = d.upTo n := by
  have files : (after d es).files .consumption = d.files .consumption := by
    apply after_files_ne
    intro e member
    rcases published.local_ e member with same | same <;> simp [same, elsewhere.symm]
  rw [Disk.upTo, Disk.consumptions, Disk.glob, files]
  rfl

/-- A completed call that is made again publishes nothing, on any later disk. -/
theorem Completed.again_effects (completed : Completed c w.readings r d path es call) (sound : Sound c d')
    (kept : ∀ folder name content, folder ≠ .top → (after d es).Holds folder name content → d'.Holds folder name content)
    (same : w'.readings = w.readings) : (call.run c w' r d').effects = [] := by
  cases completed with
  | consumption identified digest published =>
    obtain ⟨name, rfl, holds⟩ := published.holds
    rw [← same] at identified
    rw [Call.run, Program.bind_pure, recordConsumption_again sound identified digest (kept _ _ _ nofun holds)]
  | artifact requested made identity digest published =>
    obtain ⟨name, rfl, holds⟩ := published.holds
    rw [← same] at requested
    obtain ⟨kind, count⟩ := artifactLineage_request made
    rw [← identity] at kind count
    rw [requested.run_eq, Program.bind_pure]
    exact recordArtifact_effects requested.proper sound kind count (kept _ _ _ requested.proper.inside holds)

/-- It returns the same receipt unless consumptions at or below its count were added. -/
theorem Completed.again (completed : Completed c w.readings r d path es call) (before : Sound c d) (sound : Sound c d')
    (kept : ∀ folder name content, folder ≠ .top → (after d es).Holds folder name content → d'.Holds folder name content)
    (same : w'.readings = w.readings) (reads : call.reads d' = call.reads (after d es)) :
    (call.run c w' r d').result = .ok (r, some path) := by
  cases completed with
  | consumption identified digest published =>
    obtain ⟨name, rfl, holds⟩ := published.holds
    rw [← same] at identified
    rw [Call.run, Program.bind_pure, recordConsumption_again sound identified digest (kept _ _ _ nofun holds)]
    rfl
  | artifact requested made identity digest published =>
    have elsewhere := requested.proper.folder
    rw [requested.reads_eq, requested.reads_eq, upTo_after published (by rcases elsewhere with ⟨f, -⟩ | ⟨f, -⟩ <;> simp [f])] at reads
    obtain ⟨name, rfl, holds⟩ := published.holds
    rw [← same] at requested
    rw [← artifactLineage_congr before sound reads] at made
    rw [requested.run_eq, Program.bind_pure,
      recordArtifact_again requested.proper sound made digest identity (kept _ _ _ requested.proper.inside holds)]
    rfl

end Again
end Calls
end KataGo.Trainer
