import KataGo.Trainer.Writing

/-! What the recordings read of a sound disk, and what they leave on it. -/

namespace KataGo.Trainer
open KataGo.Lib

section Scan

variable {α β : Type} {load : β → Except Error α} {same clash : α → Bool} {message : String} {items : List (String × β)}

theorem scan_eq_none (none_ : scan load same clash message items = .ok none) :
    ∀ item ∈ items, ∃ a, load item.2 = .ok a ∧ same a = false ∧ clash a = false := by
  induction items with
  | nil => exact fun item member => nomatch member
  | cons head rest ih =>
    obtain ⟨existing, loaded, decided⟩ := bind_eq_ok.mp none_
    cases equal : same existing with
    | true =>
      rw [equal] at decided
      cases decided
    | false =>
      cases clashes : clash existing with
      | true =>
        rw [equal, clashes] at decided
        cases decided
      | false =>
        rw [equal, clashes] at decided
        intro item member
        rcases List.mem_cons.mp member with rfl | later
        · exact ⟨existing, loaded, equal, clashes⟩
        · exact ih decided item later

theorem scan_eq_some {name : String} (found : scan load same clash message items = .ok (some name)) :
    ∃ item ∈ items, item.1 = name ∧ ∃ a, load item.2 = .ok a ∧ same a = true := by
  induction items with
  | nil => cases found
  | cons head rest ih =>
    obtain ⟨existing, loaded, decided⟩ := bind_eq_ok.mp found
    cases equal : same existing with
    | true =>
      rw [equal] at decided
      cases decided
      exact ⟨head, List.mem_cons_self, rfl, existing, loaded, equal⟩
    | false =>
      cases clashes : clash existing with
      | true =>
        rw [equal, clashes] at decided
        cases decided
      | false =>
        rw [equal, clashes] at decided
        obtain ⟨item, member, rest⟩ := ih decided
        exact ⟨item, List.mem_cons_of_mem _ member, rest⟩

/-- The item that is the same is found if no other is the same or clashes. -/
theorem scan_finds {item : String × β} {a : α} (member : item ∈ items) (loaded : load item.2 = .ok a) (equal : same a = true)
    (others : ∀ other ∈ items, other ≠ item → ∃ b, load other.2 = .ok b ∧ same b = false ∧ clash b = false) :
    scan load same clash message items = .ok (some item.1) := by
  induction items with
  | nil => cases member
  | cons head rest ih =>
    by_cases first : head = item
    · subst first
      exact bind_eq_ok.mpr ⟨a, loaded, by rw [equal]; rfl⟩
    · obtain ⟨b, loadedHead, different, apart⟩ := others head List.mem_cons_self first
      have later : item ∈ rest := (List.mem_cons.mp member).resolve_left (Ne.symm first)
      have found := ih later fun other member => others other (List.mem_cons_of_mem _ member)
      exact bind_eq_ok.mpr ⟨b, loadedHead, by rw [different, apart]; exact found⟩

end Scan

section Reading

variable {c : Setting} {d : Disk} {name : String} {r : Receipt Consumption} {receipts : List (String × Receipt Consumption)}

theorem Sound.consumption (sound : Sound c d) {content : Content} (holds : d.Holds .consumption name content) :
    ∃ r, content = .consumption r ∧ r.Valid c Consumption.toJson ∧
      r.payload.identity.samplesBefore < r.payload.identity.samplesAfter := by
  have fits := sound.fits .consumption name content nofun holds
  cases content with
  | consumption r => exact ⟨r, rfl, fits⟩
  | _ => cases fits

/-- The consumption receipts of a sound disk, in the order of their names. -/
def Disk.consumptions (d : Disk) : List (String × Receipt Consumption) :=
  (d.glob .consumption).filterMap fun entry =>
    match entry.2 with
    | .consumption r => some (entry.1, r)
    | _ => none

/-- Those that end at or below a count. -/
def Disk.upTo (d : Disk) (n : Int) : List (String × Receipt Consumption) :=
  d.consumptions.filter fun item => item.2.payload.identity.samplesAfter ≤ n

theorem Disk.mem_consumptions : (name, r) ∈ d.consumptions ↔ d.Holds .consumption name (.consumption r) := by
  rw [consumptions, List.mem_filterMap, ← Disk.mem_glob]
  constructor
  · rintro ⟨⟨name', content⟩, member, kept⟩
    cases content with
    | consumption r' =>
      cases kept
      exact member
    | _ => cases kept
  · intro member
    exact ⟨(name, .consumption r), member, rfl⟩

theorem Sound.consumptionReceipts_eq (sound : Sound c d) : consumptionReceipts c d = .ok d.consumptions := by
  have complete : ∀ entry ∈ d.glob .consumption, d.Holds .consumption entry.1 entry.2 := fun entry => Disk.mem_glob.mp
  rw [consumptionReceipts, mapM_eq_ok, Disk.consumptions]
  generalize d.glob .consumption = entries at complete
  induction entries with
  | nil => exact .nil
  | cons entry rest ih =>
    obtain ⟨name, content⟩ := entry
    obtain ⟨r, rfl, valid, -⟩ := sound.consumption (complete _ List.mem_cons_self)
    refine .cons ?_ (ih fun entry member => complete entry (List.mem_cons_of_mem _ member))
    exact bind_eq_ok.mpr ⟨r, validateReceipt_eq_ok.mpr ⟨rfl, valid⟩, rfl⟩

end Reading

section Consumption

variable {c : Setting} {d : Disk} {w : World} {r : Recorder} {files : List String} {samplesBefore samplesAfter : Int}

theorem finalizeReceipt_eq_ok {α : Type} {toJson : α → Json Empty} {payload : α} {receipt : Receipt α}
    (made : finalizeReceipt c toJson payload = .ok receipt) : receipt.payload = payload ∧ receipt.Valid c toJson := by
  obtain ⟨digest, valid, result⟩ := bind_eq_ok.mp made
  cases result
  exact ⟨rfl, valid⟩

theorem consumptionIdentity_range {b : Binding} {identity : ConsumptionIdentity}
    (identified : consumptionIdentity w.readings r files samplesBefore samplesAfter = .ok (b, identity)) :
    identity.samplesBefore < identity.samplesAfter := by
  obtain ⟨bound, -, rest⟩ := bind_eq_ok.mp identified
  obtain ⟨_, range, rest⟩ := bind_eq_ok.mp rest
  obtain ⟨_, -, rest⟩ := bind_eq_ok.mp rest
  obtain ⟨selected, -, result⟩ := bind_eq_ok.mp rest
  cases result
  exact (require_eq_ok.mp range).2

theorem consumptionContent_eq_ok {b : Binding} {identity : ConsumptionIdentity} {content : Content}
    (made : consumptionContent c w b identity = .ok content) :
    ∃ receipt, content = .consumption receipt ∧ receipt.payload.identity = identity ∧ receipt.Valid c Consumption.toJson := by
  obtain ⟨observed, -, rest⟩ := bind_eq_ok.mp made
  obtain ⟨selectedHash, -, rest⟩ := bind_eq_ok.mp rest
  obtain ⟨receipt, finalized, result⟩ := bind_eq_ok.mp rest
  cases result
  obtain ⟨payload, valid⟩ := finalizeReceipt_eq_ok finalized
  exact ⟨receipt, rfl, by rw [payload], valid⟩

/-- What a completed `record_consumption` leaves: the receipt with its identity. -/
theorem recordConsumption_meets (sound : Sound c d) :
    Meets (Allowed c) (recordConsumption c w r files samplesBefore samplesAfter) d fun path es =>
      ∃ b receipt key, consumptionIdentity w.readings r files samplesBefore samplesAfter = .ok (b, receipt.payload.identity) ∧
        c.canonicalSha256 (.obj receipt.payload.identity.fields) = .ok key ∧
        Published c d .consumption path (.consumption receipt) es := by
  apply Meets.bind (Meets.lift (P := fun made es =>
    consumptionIdentity w.readings r files samplesBefore samplesAfter = .ok made ∧ es = []) fun made holds => ⟨holds, rfl⟩)
  rintro ⟨b, identity⟩ _ ⟨identified, rfl⟩
  apply Meets.bind (Meets.lift (P := fun key es => c.canonicalSha256 (.obj identity.fields) = .ok key ∧ es = [])
    fun key digest => ⟨digest, rfl⟩)
  rintro key _ ⟨digest, rfl⟩
  apply Meets.bind (Meets.read (P := fun found es => d = found ∧ es = []) ⟨rfl, rfl⟩)
  rintro _ _ ⟨rfl, rfl⟩
  apply Meets.bind (Meets.lift (P := fun receipts es => d.consumptions = receipts ∧ es = []) fun receipts made =>
    ⟨Except.ok.inj (sound.consumptionReceipts_eq.symm.trans made), rfl⟩)
  rintro _ _ ⟨rfl, rfl⟩
  apply Meets.bind (Meets.lift (P := fun found es => _ = Except.ok found ∧ es = []) fun found made => ⟨made, rfl⟩)
  rintro found _ ⟨scanned, rfl⟩
  cases found with
  | some name =>
    obtain ⟨⟨name, receipt⟩, member, rfl, existing, loaded, equal⟩ := scan_eq_some scanned
    cases loaded
    cases of_decide_eq_true equal
    exact Meets.pure ⟨b, receipt, key, identified, digest, ⟨name, rfl, Disk.mem_consumptions.mp member⟩, .inl rfl, fun _ member => (List.not_mem_nil member).elim⟩
  | none =>
    have clear := scan_eq_none scanned
    have inside : Folder.consumption ≠ .top := nofun
    refine (publish_meets inside (isJson_append_json _) ?_ ?_).weaken ?_
    · intro content made
      obtain ⟨receipt, rfl, rfl, valid⟩ := consumptionContent_eq_ok made
      exact ⟨valid, consumptionIdentity_range identified⟩
    · intro content made _ name existing holds clash
      obtain ⟨receipt, rfl, rfl, valid⟩ := consumptionContent_eq_ok made
      obtain ⟨other, rfl, -⟩ := sound.consumption holds
      obtain ⟨_, loaded, -, apart⟩ := clear (name, other) (Disk.mem_consumptions.mpr holds)
      cases loaded
      exact Bool.false_ne_true (apart.symm.trans clash)
    · rintro path es ⟨content, made, published⟩
      obtain ⟨receipt, rfl, rfl, valid⟩ := consumptionContent_eq_ok made
      exact ⟨b, receipt, key, identified, digest, published⟩

/-- A recording whose receipt is there finds it. -/
theorem recordConsumption_again (sound : Sound c d) {b : Binding} {receipt : Receipt Consumption} {key name : String}
    (identified : consumptionIdentity w.readings r files samplesBefore samplesAfter = .ok (b, receipt.payload.identity))
    (digest : c.canonicalSha256 (.obj receipt.payload.identity.fields) = .ok key)
    (holds : d.Holds .consumption name (.consumption receipt)) :
    recordConsumption c w r files samplesBefore samplesAfter d = ⟨[], .ok (c.pathOf .consumption name)⟩ := by
  have range := consumptionIdentity_range identified
  have unique : ∀ other ∈ d.consumptions, receipt.payload.identity.overlaps other.2.payload.identity = true →
      other = (name, receipt) := by
    rintro ⟨name', other⟩ member clash
    have holds' := Disk.mem_consumptions.mp member
    have names := sound.apart .consumption _ _ _ _ nofun holds holds' clash
    subst names
    cases holds.1.symm.trans holds'.1
    rfl
  have found : scan Except.ok (fun existing : Receipt Consumption => existing.payload.identity = receipt.payload.identity)
      (fun existing => receipt.payload.identity.overlaps existing.payload.identity)
      "trainer consumption sample ranges overlap with different lineage" d.consumptions = .ok (some name) := by
    refine scan_finds (Disk.mem_consumptions.mpr holds) rfl (decide_eq_true rfl) ?_
    intro other member different
    refine ⟨other.2, rfl, ?_, ?_⟩
    · apply decide_eq_false
      intro equal
      apply different
      apply unique other member
      rw [equal, ConsumptionIdentity.overlaps]
      simpa using range
    · exact Bool.eq_false_iff.mpr fun clash => different (unique other member clash)
  rw [recordConsumption, identified, Program.lift_ok_bind]
  dsimp only
  rw [digest, Program.lift_ok_bind, Program.read_bind, sound.consumptionReceipts_eq, Program.lift_ok_bind, found,
    Program.lift_ok_bind]
  rfl

end Consumption

section Artifacts

variable {c : Setting} {d : Disk} {w : World} {r : Recorder} {strict : Bool} {b : Binding} {q : ArtifactRequest}

/-- The two forms that a request has: a checkpoint clashes with one of its kind, an export with
any other of its count. -/
structure ArtifactRequest.Proper (q : ArtifactRequest) : Prop where
  folder : q.folder = .checkpoints ∧ q.kind ≠ .exported ∨ q.folder = .exports ∧ q.kind = .exported
  clash : ∀ existing, q.clash existing = true ↔
    (q.folder = .checkpoints → existing.identity.kind = q.kind) ∧ existing.identity.sampleCount = q.sampleCount

theorem Kind.ofCheckpoint_ne {kind : String} {k : Kind} (named : Kind.ofCheckpoint kind = some k) : k ≠ .exported := by
  rintro rfl
  unfold Kind.ofCheckpoint at named
  split at named
  · cases named
  · split at named <;> cases named

theorem checkpointRequest_proper {path kind : String} {n : Int}
    (made : checkpointRequest w.readings r path n kind = .ok (b, q)) : q.Proper ∧ q.sampleCount = n := by
  unfold checkpointRequest at made
  cases named : Kind.ofCheckpoint kind with
  | none =>
    rw [named] at made
    cases made
  | some k =>
    rw [named] at made
    obtain ⟨bound, -, rest⟩ := bind_eq_ok.mp made
    obtain ⟨_, -, rest⟩ := bind_eq_ok.mp rest
    obtain ⟨source, -, rest⟩ := bind_eq_ok.mp rest
    obtain ⟨_, -, result⟩ := bind_eq_ok.mp rest
    cases result
    exact ⟨⟨.inl ⟨rfl, Kind.ofCheckpoint_ne named⟩, by simp⟩, rfl⟩

theorem exportRequest_proper {path : String} {n : Int} (made : exportRequest c w.readings r path n = .ok (b, q)) :
    q.Proper ∧ q.sampleCount = n := by
  obtain ⟨bound, -, rest⟩ := bind_eq_ok.mp made
  obtain ⟨_, -, rest⟩ := bind_eq_ok.mp rest
  obtain ⟨source, -, rest⟩ := bind_eq_ok.mp rest
  obtain ⟨inventory, -, rest⟩ := bind_eq_ok.mp rest
  obtain ⟨_, -, result⟩ := bind_eq_ok.mp rest
  cases result
  exact ⟨⟨.inr ⟨rfl, rfl⟩, by simp⟩, rfl⟩

theorem ArtifactRequest.Proper.inside (proper : q.Proper) : q.folder ≠ .top := by
  rcases proper.folder with ⟨folder, -⟩ | ⟨folder, -⟩ <;> simp [folder]

/-- What the folder of a request holds. -/
theorem Sound.artifact (sound : Sound c d) (proper : q.Proper) {name : String} {content : Content}
    (holds : d.Holds q.folder name content) :
    ∃ receipt, content = .lineage receipt ∧ receipt.Valid c Lineage.toJson ∧
      (q.folder = .exports → receipt.payload.identity.kind = .exported) := by
  have fits := sound.fits q.folder name content proper.inside holds
  rcases proper.folder with ⟨folder, -⟩ | ⟨folder, -⟩
  · rw [folder] at fits ⊢
    cases content with
    | lineage receipt => exact ⟨receipt, rfl, fits.1, nofun⟩
    | _ => cases fits
  · rw [folder] at fits ⊢
    cases content with
    | lineage receipt => exact ⟨receipt, rfl, fits.1, fun _ => fits.2⟩
    | _ => cases fits

/-- The request clashes with exactly the receipts that must not stand beside its own. -/
theorem ArtifactRequest.Proper.clash_iff (proper : q.Proper) (sound : Sound c d) {receipt other : Receipt Lineage} {name : String}
    (kind : receipt.payload.identity.kind = q.kind) (count : receipt.payload.identity.sampleCount = q.sampleCount)
    (holds : d.Holds q.folder name (.lineage other)) :
    q.clash other.payload = true ↔ Clash (.lineage receipt) (.lineage other) := by
  obtain ⟨_, ⟨⟩, -, exported⟩ := sound.artifact proper holds
  rw [proper.clash, Clash, kind, count]
  rcases proper.folder with ⟨folder, -⟩ | ⟨folder, exporting⟩
  · simp [folder, eq_comm]
  · simp [folder, exporting, exported folder, eq_comm]

theorem lineageContent_eq_ok {a : ArtifactLineage} {content : Content} (made : lineageContent c w b a = .ok content) :
    ∃ receipt, content = .lineage receipt ∧ receipt.payload.identity = a.identity ∧ receipt.Valid c Lineage.toJson := by
  obtain ⟨observed, -, rest⟩ := bind_eq_ok.mp made
  obtain ⟨receipt, finalized, result⟩ := bind_eq_ok.mp rest
  cases result
  obtain ⟨payload, valid⟩ := finalizeReceipt_eq_ok finalized
  exact ⟨receipt, rfl, by rw [payload], valid⟩

theorem artifactLineage_request {a : ArtifactLineage} (made : artifactLineage c strict b q d = .ok a) :
    a.identity.kind = q.kind ∧ a.identity.sampleCount = q.sampleCount := by
  obtain ⟨consumption, -, rest⟩ := bind_eq_ok.mp made
  obtain ⟨_, -, rest⟩ := bind_eq_ok.mp rest
  obtain ⟨lineage, -, rest⟩ := bind_eq_ok.mp rest
  obtain ⟨artifact, -, rest⟩ := bind_eq_ok.mp rest
  obtain ⟨digest, -, result⟩ := bind_eq_ok.mp rest
  cases result
  exact ⟨rfl, rfl⟩

/-- What a completed recording of a checkpoint or an export leaves. -/
theorem recordArtifact_meets (sound : Sound c d) (proper : q.Proper) :
    Meets (Allowed c) (recordArtifact c w strict b q) d fun path es =>
      ∃ a receipt key, artifactLineage c strict b q d = .ok a ∧ receipt.payload.identity = a.identity ∧
        c.canonicalSha256 (.obj a.identity.fields) = .ok key ∧ Published c d q.folder path (.lineage receipt) es := by
  apply Meets.bind (Meets.read (P := fun found es => d = found ∧ es = []) ⟨rfl, rfl⟩)
  rintro _ _ ⟨rfl, rfl⟩
  apply Meets.bind (Meets.lift (P := fun a es => artifactLineage c strict b q d = .ok a ∧ es = []) fun a made => ⟨made, rfl⟩)
  rintro a _ ⟨made, rfl⟩
  obtain ⟨kind, count⟩ := artifactLineage_request made
  apply Meets.bind (Meets.lift (P := fun key es => c.canonicalSha256 (.obj a.identity.fields) = .ok key ∧ es = [])
    fun key digest => ⟨digest, rfl⟩)
  rintro key _ ⟨digest, rfl⟩
  apply Meets.bind (Meets.lift (P := fun found es => _ = Except.ok found ∧ es = []) fun found made => ⟨made, rfl⟩)
  rintro found _ ⟨scanned, rfl⟩
  cases found with
  | some name =>
    obtain ⟨⟨name, content⟩, member, rfl, existing, loaded, equal⟩ := scan_eq_some scanned
    have holds := Disk.mem_glob.mp member
    obtain ⟨receipt, rfl, -⟩ := sound.artifact proper holds
    obtain ⟨rfl, -⟩ := validateReceipt_eq_ok.mp loaded
    exact Meets.pure ⟨a, existing, key, made, of_decide_eq_true equal, digest, ⟨name, rfl, holds⟩, .inl rfl, fun _ member => (List.not_mem_nil member).elim⟩
  | none =>
    have clear := scan_eq_none scanned
    refine (publish_meets proper.inside (isJson_append_json _) ?_ ?_).weaken ?_
    · intro content made
      obtain ⟨receipt, rfl, identity, valid⟩ := lineageContent_eq_ok made
      rw [← identity] at kind
      rcases proper.folder with ⟨folder, kinds⟩ | ⟨folder, kinds⟩
      · rw [folder]
        exact ⟨valid, kind ▸ kinds⟩
      · rw [folder]
        exact ⟨valid, kind.trans kinds⟩
    · intro content made _ name existing holds clash
      obtain ⟨receipt, rfl, identity, -⟩ := lineageContent_eq_ok made
      rw [← identity] at kind count
      obtain ⟨other, rfl, -⟩ := sound.artifact proper holds
      obtain ⟨_, loaded, -, apart⟩ := clear (name, .lineage other) (Disk.mem_glob.mpr holds)
      obtain ⟨rfl, -⟩ := validateReceipt_eq_ok.mp loaded
      exact Bool.false_ne_true (apart.symm.trans ((proper.clash_iff sound kind count holds).mpr clash))
    · rintro path es ⟨content, made', published⟩
      obtain ⟨receipt, rfl, identity, -⟩ := lineageContent_eq_ok made'
      exact ⟨a, receipt, key, made, identity, digest, published⟩

theorem Sound.latestConsumption_eq (sound : Sound c d) (n : Int) (hash : String) :
    latestConsumption c d n hash = .ok (maxBy (fun item => item.2.payload.identity.samplesAfter)
      ((d.upTo n).filter fun item => item.2.payload.identity.shuffleManifestFileSha256 = hash)) := by
  rw [latestConsumption, sound.consumptionReceipts_eq, Disk.upTo, List.filter_filter]
  simp only [Bool.decide_and]
  rfl

theorem Sound.consumptionLineage_eq (sound : Sound c d) (n : Int) :
    consumptionLineage c d n = orderedLineage ((d.upTo n).map (LineageEntry.ofReceipt c)) := by
  rw [consumptionLineage, sound.consumptionReceipts_eq]
  rfl

/-- Of the disk, an artifact depends on the consumptions at or below its count. -/
theorem artifactLineage_congr {d' : Disk} (sound : Sound c d) (sound' : Sound c d') (same : d'.upTo q.sampleCount = d.upTo q.sampleCount) :
    artifactLineage c strict b q d' = artifactLineage c strict b q d := by
  rw [artifactLineage, artifactLineage, sound.latestConsumption_eq, sound'.latestConsumption_eq,
    sound.consumptionLineage_eq, sound'.consumptionLineage_eq, same]

section Again

variable {receipt : Receipt Lineage} {name : String}

/-- A recording whose receipt is there publishes nothing, even if its lineage has changed. -/
theorem recordArtifact_effects (proper : q.Proper) (sound : Sound c d) (kind : receipt.payload.identity.kind = q.kind)
    (count : receipt.payload.identity.sampleCount = q.sampleCount) (holds : d.Holds q.folder name (.lineage receipt)) :
    (recordArtifact c w strict b q d).effects = [] := by
  rw [recordArtifact, Program.read_bind]
  apply Program.lift_bind_effects
  intro a made
  apply Program.lift_bind_effects
  intro key digest
  apply Program.lift_bind_effects
  intro found scanned
  cases found with
  | some name => rfl
  | none =>
    obtain ⟨_, loaded, -, apart⟩ := scan_eq_none scanned (name, .lineage receipt) (Disk.mem_glob.mpr holds)
    obtain ⟨rfl, -⟩ := validateReceipt_eq_ok.mp loaded
    have clash := (proper.clash_iff sound kind count holds).mpr ⟨rfl, rfl⟩
    exact absurd (apart.symm.trans clash) nofun

/-- A recording whose receipt is there finds it. -/
theorem recordArtifact_again (proper : q.Proper) (sound : Sound c d) {a : ArtifactLineage} {key : String}
    (made : artifactLineage c strict b q d = .ok a) (digest : c.canonicalSha256 (.obj a.identity.fields) = .ok key)
    (identity : receipt.payload.identity = a.identity) (holds : d.Holds q.folder name (.lineage receipt)) :
    recordArtifact c w strict b q d = ⟨[], .ok (c.pathOf q.folder name)⟩ := by
  obtain ⟨kind, count⟩ := artifactLineage_request made
  rw [← identity] at kind count
  obtain ⟨_, ⟨⟩, valid, -⟩ := sound.artifact proper holds
  have unique : ∀ other ∈ d.glob q.folder, Clash (.lineage receipt) other.2 → other = (name, .lineage receipt) := by
    rintro ⟨name', other⟩ member clash
    have holds' := Disk.mem_glob.mp member
    have names := sound.apart q.folder _ _ _ _ proper.inside holds holds' clash
    subst names
    cases holds.1.symm.trans holds'.1
    rfl
  have found : scan (loadLineage c s!"trainer {q.role} receipt") (fun existing => existing.payload.identity = a.identity)
      (fun existing => q.clash existing.payload) q.clashMessage (d.glob q.folder) = .ok (some name) := by
    refine scan_finds (Disk.mem_glob.mpr holds) (validateReceipt_eq_ok.mpr ⟨rfl, valid⟩)
      (decide_eq_true identity) ?_
    rintro ⟨name', content⟩ member different
    have holds' := Disk.mem_glob.mp member
    obtain ⟨other, rfl, valid', -⟩ := sound.artifact proper holds'
    refine ⟨other, validateReceipt_eq_ok.mpr ⟨rfl, valid'⟩, ?_, ?_⟩
    · apply decide_eq_false
      intro equal
      apply different
      apply unique _ member
      rw [← identity] at equal
      show _ ∧ _
      rw [equal]
      exact ⟨rfl, rfl⟩
    · apply Bool.eq_false_iff.mpr
      intro clash
      exact different (unique _ member ((proper.clash_iff sound kind count holds').mp clash))
  rw [recordArtifact, Program.read_bind, made, Program.lift_ok_bind, digest, Program.lift_ok_bind, found, Program.lift_ok_bind]
  rfl

end Again
end Artifacts
end KataGo.Trainer
