import KataGo.Scheduler.State

/-! What is written is read back: each record from its JSON object, and the state from its file. -/

namespace KataGo.Scheduler
open KataGo.Lib

variable {F : Type}

section Fields

theorem requireIdentifier_str (id : Identifier) (field : String) :
    requireIdentifier (.str id.1 : Json F) field = .ok id := by
  obtain ⟨s, identifier⟩ := id
  have valid := identifier
  simp only [isIdentifier, decide_eq_true_eq] at valid
  rw [requireIdentifier, if_neg valid.1, if_neg (not_not.mpr valid.2.1), dif_pos identifier]

theorem optionalIdentifier_json (id : Option Identifier) (field : String) :
    optionalIdentifier (optionalJson id : Json F) field = .ok id := by
  cases id with
  | none => rfl
  | some id => exact bind_eq_ok.mpr ⟨id, requireIdentifier_str id field, rfl⟩

theorem requirePositiveInt_int {n : Nat} (positive : 0 < n) (field : String) :
    requirePositiveInt (.int n : Json F) field = .ok n := by
  rw [requirePositiveInt, if_neg (by omega), Int.toNat_natCast]

theorem requireNonnegativeInt_int (n : Nat) (field : String) :
    requireNonnegativeInt (.int n : Json F) field = .ok n := by
  rw [requireNonnegativeInt, if_neg (by omega), Int.toNat_natCast]

/-- The names of an object are all that counts for its schema. -/
theorem fieldsOf_perm {names : List String} {error : SchedulerError} {fields : List (String × Json F)}
    (perm : (fields.map Prod.fst).Perm names) : fieldsOf names error (.obj fields) = .ok fields := by
  rw [fieldsOf, if_pos]
  exact ⟨fun name member => perm.mem_iff.mpr member, fun name member => perm.mem_iff.mp member⟩

theorem fieldsOf_sorted {error : SchedulerError} (fields : List (String × Json F)) :
    fieldsOf (fields.map Prod.fst) error (.obj (sortFields fields)) = .ok (sortFields fields) :=
  fieldsOf_perm (Json.sorted_keys fields)

theorem normalizeWorkKind_value (kind : WorkKind) : normalizeWorkKind (.str kind.value : Json F) = .ok kind := by
  cases kind <;> rfl

theorem workStateOf_value (state : WorkState) : workStateOf (.str state.value : Json F) = .ok state := by
  cases state <;> rfl

theorem normalizeReleaseOutcome_value (outcome : ReleaseOutcome) :
    normalizeReleaseOutcome (.str outcome.value : Json F) = .ok outcome := by
  cases outcome <;> rfl

theorem preemptionStatusOf_value (status : PreemptionStatus) :
    preemptionStatusOf (.str status.value : Json F) = .ok status := by
  cases status <;> rfl

theorem normalizeIdleReason_value (reason : IdleReason) :
    normalizeIdleReason (.str reason.value : Json F) = .ok reason := by
  cases reason <;> rfl

end Fields

section Records

variable [Numbers F]

theorem readFloat_json (time : Time F) : readFloat time.json = .ok time.value := by
  rw [readFloat, Time.json, Numbers.toFloat_float]

theorem requireFinite_value (time : Time F) (error : SchedulerError) : requireFinite time.value error = .ok time :=
  dif_pos time.finite

theorem jsonObject_payload (payload : Payload F) (field : String) :
    jsonObject (Json.obj payload.fields).sorted field = .ok payload := by
  obtain ⟨fields, copied⟩ := payload
  have sorted : (Json.obj fields).sorted = .obj fields := congrArg Json.obj copied.ordered
  have same : (⟨sortFields fields, copied_sortFields copied.writable copied.distinct⟩ : Payload F) = ⟨fields, copied⟩ := by
    congr 1
    exact copied.ordered
  rw [sorted, jsonObject, dif_pos ⟨copied.writable, copied.distinct⟩, same]

omit [Numbers F] in
theorem mapM_requireIdentifier (gpus : List Identifier) (field : String) :
    (gpus.map identifierJson).mapM (fun value : Json F => requireIdentifier value field) = .ok gpus := by
  induction gpus with
  | nil => rfl
  | cons gpu gpus ih =>
    rw [List.map_cons, List.mapM_cons]
    exact bind_eq_ok.mpr ⟨gpu, requireIdentifier_str gpu field, bind_eq_ok.mpr ⟨gpus, ih, rfl⟩⟩

theorem GpuSet.sort_gpus (set : GpuSet) (distinct : set.gpus.Nodup) : GpuSet.sort set.gpus distinct = set := by
  have same : set.gpus.insertionSort (· ≤ ·) = set.gpus :=
    List.Pairwise.insertionSort_eq (set.ordered.imp fun less => less.le)
  cases set with
  | mk gpus ordered =>
    rw [GpuSet.sort]
    congr 1

omit [Numbers F] in
theorem sorted_identifiers (gpus : List Identifier) :
    (Json.arr (gpus.map identifierJson) : Json F).sorted = .arr (gpus.map identifierJson) := by
  rw [Json.sorted, Json.sortedItems_eq, List.map_map]
  rfl

omit [Numbers F] in
theorem readEligible_gpus (set : GpuSet) (nonempty : set.gpus ≠ []) :
    readEligible (some (set.gpus.map identifierJson) : Option (List (Json F))) = .ok (some ⟨set, nonempty⟩) := by
  have distinct : set.gpus.Nodup := set.ordered.imp fun less => less.ne
  have sorted := GpuSet.sort_gpus set distinct
  refine bind_eq_ok.mpr ⟨set.gpus, mapM_requireIdentifier set.gpus _, ?_⟩
  have some' : (GpuSet.sort set.gpus distinct).gpus ≠ [] := by rwa [sorted]
  have same : (⟨GpuSet.sort set.gpus distinct, some'⟩ : {set : GpuSet // set.gpus ≠ []}) = ⟨set, nonempty⟩ :=
    Subtype.ext sorted
  rw [dif_pos distinct, dif_pos some', same]
  rfl

theorem WorkItem.make_raw (item : WorkItem F) :
    RawItem.make { workId := .str item.workId.1
                   kind := .str item.kind.value
                   eligibleGpus := item.eligibleGpus.map fun set => set.gpus.map identifierJson
                   preemptible := .bool item.preemptible
                   preferredGpu := optionalJson item.preferredGpu
                   payload := (Json.obj item.payload.fields).sorted } = .ok item := by
  have eligible : ∃ sets, readEligible (item.eligibleGpus.map fun set => set.gpus.map (identifierJson (F := F))) =
      .ok sets ∧ sets.map Subtype.val = item.eligibleGpus := by
    cases gpus : item.eligibleGpus with
    | none => exact ⟨none, rfl, rfl⟩
    | some set => exact ⟨_, readEligible_gpus set (item.eligible_ne_nil set gpus), rfl⟩
  obtain ⟨sets, read, same⟩ := eligible
  have preferred : ∀ gpus ∈ sets, ∀ gpu ∈ item.preferredGpu, gpu ∈ gpus.1.gpus := by
    intro gpus member
    apply item.preferred_eligible
    rw [← same]
    exact Option.map_eq_some_iff.mpr ⟨gpus, member, rfl⟩
  refine bind_eq_ok.mpr ⟨_, requireIdentifier_str item.workId _, bind_eq_ok.mpr ⟨_, normalizeWorkKind_value item.kind,
    bind_eq_ok.mpr ⟨_, rfl, bind_eq_ok.mpr ⟨_, read, bind_eq_ok.mpr ⟨_, optionalIdentifier_json item.preferredGpu _, ?_⟩⟩⟩⟩⟩
  rw [dif_pos preferred]
  refine bind_eq_ok.mpr ⟨_, jsonObject_payload item.payload _, ?_⟩
  apply congrArg Except.ok
  cases item
  congr 1

theorem WorkItem.fromDict_sorted (item : WorkItem F) : WorkItem.fromDict (Json.obj item.toDict).sorted = .ok item := by
  have get : ∀ key, Json.get (sortFields item.toDict) key = (Json.get item.toDict key).sorted :=
    get_sortFields_of_nodup (show ["work_id", "kind", "eligible_gpus", "preemptible", "preferred_gpu", "payload"].Nodup
      by decide)
  have eligible : WorkItem.readGpuList (WorkItem.eligibleJson item.eligibleGpus : Json F).sorted =
      .ok (item.eligibleGpus.map fun set => set.gpus.map identifierJson) := by
    cases item.eligibleGpus with
    | none => rfl
    | some set =>
      rw [WorkItem.eligibleJson, sorted_identifiers]
      rfl
  show WorkItem.fromDict (.obj (sortFields item.toDict)) = _
  refine bind_eq_ok.mpr ⟨_, fieldsOf_sorted item.toDict, ?_⟩
  simp only [get]
  refine bind_eq_ok.mpr ⟨_, eligible, labelled_eq_ok.mpr ?_⟩
  have preferred : (optionalJson item.preferredGpu : Json F).sorted = optionalJson item.preferredGpu := by
    cases item.preferredGpu <;> rfl
  have made := WorkItem.make_raw item
  rw [← preferred] at made
  exact made

theorem Claim.fromDict_sorted {claim : Claim F} (positive : 0 < claim.sequence) :
    Claim.fromDict (Json.obj claim.toDict).sorted = .ok claim := by
  have get : ∀ key, Json.get (sortFields claim.toDict) key = (Json.get claim.toDict key).sorted :=
    get_sortFields_of_nodup (show ["claim_id", "work_id", "gpu_id", "owner_id", "claimed_at", "sequence", "stolen"].Nodup
      by decide)
  show Claim.fromDict (.obj (sortFields claim.toDict)) = _
  refine bind_eq_ok.mpr ⟨_, fieldsOf_sorted claim.toDict, ?_⟩
  simp only [get]
  refine bind_eq_ok.mpr ⟨(claim.claimId, claim.workId, claim.gpuId, claim.ownerId, claim.claimedAt.value,
    claim.sequence), labelled_eq_ok.mpr ?_, ?_⟩
  · exact bind_eq_ok.mpr ⟨_, requireIdentifier_str claim.claimId _,
      bind_eq_ok.mpr ⟨_, requireIdentifier_str claim.workId _, bind_eq_ok.mpr ⟨_, requireIdentifier_str claim.gpuId _,
      bind_eq_ok.mpr ⟨_, requireIdentifier_str claim.ownerId _, bind_eq_ok.mpr ⟨_, readFloat_json claim.claimedAt,
      bind_eq_ok.mpr ⟨_, requirePositiveInt_int positive _, rfl⟩⟩⟩⟩⟩⟩
  · exact bind_eq_ok.mpr ⟨_, requireFinite_value claim.claimedAt _, rfl⟩

theorem ReleaseRecord.fromDict_sorted {release : ReleaseRecord F} (positive : 0 < release.sequence) :
    ReleaseRecord.fromDict (Json.obj release.toDict).sorted = .ok release := by
  have get : ∀ key, Json.get (sortFields release.toDict) key = (Json.get release.toDict key).sorted :=
    get_sortFields_of_nodup (show ["release_id", "claim_id", "work_id", "gpu_id", "owner_id", "outcome", "released_at",
      "sequence"].Nodup by decide)
  show ReleaseRecord.fromDict (.obj (sortFields release.toDict)) = _
  refine bind_eq_ok.mpr ⟨_, fieldsOf_sorted release.toDict, ?_⟩
  simp only [get]
  refine bind_eq_ok.mpr ⟨(release.releaseId, release.claimId, release.workId, release.gpuId, release.ownerId,
    release.outcome, release.releasedAt.value, release.sequence), labelled_eq_ok.mpr ?_, ?_⟩
  · exact bind_eq_ok.mpr ⟨_, requireIdentifier_str release.releaseId _,
      bind_eq_ok.mpr ⟨_, requireIdentifier_str release.claimId _,
      bind_eq_ok.mpr ⟨_, requireIdentifier_str release.workId _,
      bind_eq_ok.mpr ⟨_, requireIdentifier_str release.gpuId _,
      bind_eq_ok.mpr ⟨_, requireIdentifier_str release.ownerId _,
      bind_eq_ok.mpr ⟨_, normalizeReleaseOutcome_value release.outcome,
      bind_eq_ok.mpr ⟨_, readFloat_json release.releasedAt,
      bind_eq_ok.mpr ⟨_, requirePositiveInt_int positive _, rfl⟩⟩⟩⟩⟩⟩⟩⟩
  · exact bind_eq_ok.mpr ⟨_, requireFinite_value release.releasedAt _, rfl⟩

theorem WorkRecord.asRecordError_eq_ok {α : Type} {check : Checked α} {a : α} :
    WorkRecord.asRecordError check = .ok a ↔ check = .ok a := by
  cases check with
  | error e => simp [WorkRecord.asRecordError, Except.mapError]
  | ok a' => simp [WorkRecord.asRecordError, Except.mapError]

theorem WorkRecord.fromDict_sorted {record : WorkRecord F} (positive : 0 < record.enqueueSequence)
    (released : ∀ release ∈ record.lastRelease, 0 < release.sequence) :
    WorkRecord.fromDict (Json.obj record.toDict).sorted = .ok record := by
  have get : ∀ key, Json.get (sortFields record.toDict) key = (Json.get record.toDict key).sorted :=
    get_sortFields_of_nodup (show ["item", "state", "enqueue_sequence", "attempts", "active_claim_id",
      "last_release"].Nodup by decide)
  have claim : (optionalJson record.activeClaimId : Json F).sorted = optionalJson record.activeClaimId := by
    cases record.activeClaimId <;> rfl
  have checked : WorkRecord.checkRelease (WorkRecord.releaseJson record.lastRelease).sorted = .ok () := by
    cases record.lastRelease <;> rfl
  have release : WorkRecord.readRelease (WorkRecord.releaseJson record.lastRelease).sorted = .ok record.lastRelease := by
    cases last : record.lastRelease with
    | none => rfl
    | some release => exact bind_eq_ok.mpr ⟨_, ReleaseRecord.fromDict_sorted (released release last), rfl⟩
  show WorkRecord.fromDict (.obj (sortFields record.toDict)) = _
  refine bind_eq_ok.mpr ⟨_, fieldsOf_sorted record.toDict, WorkRecord.asRecordError_eq_ok.mpr ?_⟩
  simp only [get]
  exact bind_eq_ok.mpr ⟨_, workStateOf_value record.state, bind_eq_ok.mpr ⟨_, requirePositiveInt_int positive _,
    bind_eq_ok.mpr ⟨_, requireNonnegativeInt_int record.attempts _,
    bind_eq_ok.mpr ⟨_, claim ▸ optionalIdentifier_json record.activeClaimId _, bind_eq_ok.mpr ⟨(), checked,
    bind_eq_ok.mpr ⟨_, WorkItem.fromDict_sorted record.item, bind_eq_ok.mpr ⟨_, release, rfl⟩⟩⟩⟩⟩⟩⟩

theorem PreemptionRequest.fromDict_sorted {request : PreemptionRequest F} (positive : 0 < request.sequence) :
    PreemptionRequest.fromDict (Json.obj request.toDict).sorted = .ok request := by
  have get : ∀ key, Json.get (sortFields request.toDict) key = (Json.get request.toDict key).sorted :=
    get_sortFields_of_nodup (show ["request_id", "gpu_id", "claim_id", "running_work_id", "requested_for_work_id",
      "requested_by", "reason", "requested_at", "sequence", "status", "boundary_at"].Nodup by decide)
  have boundary : PreemptionRequest.readBoundary (PreemptionRequest.boundaryJson request.boundaryAt).sorted =
      .ok (request.boundaryAt.map (·.value)) := by
    cases request.boundaryAt with
    | none => rfl
    | some time => exact bind_eq_ok.mpr ⟨_, readFloat_json time, rfl⟩
  have finite : PreemptionRequest.finiteBoundary (request.boundaryAt.map (·.value)) = .ok request.boundaryAt := by
    cases request.boundaryAt with
    | none => rfl
    | some time => exact bind_eq_ok.mpr ⟨_, requireFinite_value time _, rfl⟩
  show PreemptionRequest.fromDict (.obj (sortFields request.toDict)) = _
  refine bind_eq_ok.mpr ⟨_, fieldsOf_sorted request.toDict, ?_⟩
  simp only [get]
  refine bind_eq_ok.mpr ⟨(request.requestId, request.gpuId, request.claimId, request.runningWorkId,
    request.requestedForWorkId, request.requestedBy, request.reason, request.requestedAt.value, request.sequence,
    request.status, request.boundaryAt.map (·.value)), labelled_eq_ok.mpr ?_, ?_⟩
  · exact bind_eq_ok.mpr ⟨_, requireIdentifier_str request.requestId _,
      bind_eq_ok.mpr ⟨_, requireIdentifier_str request.gpuId _,
      bind_eq_ok.mpr ⟨_, requireIdentifier_str request.claimId _,
      bind_eq_ok.mpr ⟨_, requireIdentifier_str request.runningWorkId _,
      bind_eq_ok.mpr ⟨_, requireIdentifier_str request.requestedForWorkId _,
      bind_eq_ok.mpr ⟨_, requireIdentifier_str request.requestedBy _,
      bind_eq_ok.mpr ⟨_, requireIdentifier_str request.reason _,
      bind_eq_ok.mpr ⟨_, readFloat_json request.requestedAt, bind_eq_ok.mpr ⟨_, requirePositiveInt_int positive _,
      bind_eq_ok.mpr ⟨_, preemptionStatusOf_value request.status, bind_eq_ok.mpr ⟨_, boundary, rfl⟩⟩⟩⟩⟩⟩⟩⟩⟩⟩⟩
  · exact bind_eq_ok.mpr ⟨_, requireFinite_value request.requestedAt _, bind_eq_ok.mpr ⟨_, finite,
      bind_eq_ok.mpr ⟨(), require_eq_ok.mpr rfl, rfl⟩⟩⟩

theorem IdleEvent.fromDict_sorted {event : IdleEvent F} (positive : 0 < event.sequence) :
    IdleEvent.fromDict (Json.obj event.toDict).sorted = .ok event := by
  have get : ∀ key, Json.get (sortFields event.toDict) key = (Json.get event.toDict key).sorted :=
    get_sortFields_of_nodup (show ["event_id", "gpu_id", "reason", "recorded_at", "sequence", "owner_id", "work_id",
      "details"].Nodup by decide)
  have optional : ∀ id : Option Identifier, (optionalJson id : Json F).sorted = optionalJson id := by
    intro id
    cases id <;> rfl
  show IdleEvent.fromDict (.obj (sortFields event.toDict)) = _
  refine bind_eq_ok.mpr ⟨_, fieldsOf_sorted event.toDict, ?_⟩
  simp only [get]
  refine bind_eq_ok.mpr ⟨(event.ownerId, event.workId, event.eventId, event.gpuId, event.reason, event.recordedAt.value,
    event.sequence, event.details), labelled_eq_ok.mpr ?_, ?_⟩
  · exact bind_eq_ok.mpr ⟨_, optional event.ownerId ▸ optionalIdentifier_json event.ownerId _,
      bind_eq_ok.mpr ⟨_, optional event.workId ▸ optionalIdentifier_json event.workId _,
      bind_eq_ok.mpr ⟨_, requireIdentifier_str event.eventId _, bind_eq_ok.mpr ⟨_, requireIdentifier_str event.gpuId _,
      bind_eq_ok.mpr ⟨_, normalizeIdleReason_value event.reason, bind_eq_ok.mpr ⟨_, readFloat_json event.recordedAt,
      bind_eq_ok.mpr ⟨_, requirePositiveInt_int positive _,
      bind_eq_ok.mpr ⟨_, jsonObject_payload event.details _, rfl⟩⟩⟩⟩⟩⟩⟩⟩
  · exact bind_eq_ok.mpr ⟨_, requireFinite_value event.recordedAt _, rfl⟩

theorem Halt.validateHalt_sorted (halt : Option (Halt F)) (field : String) :
    Halt.validateHalt (Halt.optionJson halt).sorted field = .ok halt := by
  cases halt with
  | none => rfl
  | some halt =>
    have get : ∀ key, Json.get (sortFields halt.toDict) key = (Json.get halt.toDict key).sorted :=
      get_sortFields_of_nodup (show ["reason", "set_at"].Nodup by decide)
    show Halt.validateHalt (.obj (sortFields halt.toDict)) field = _
    refine bind_eq_ok.mpr ⟨_, fieldsOf_sorted halt.toDict, ?_⟩
    simp only [get]
    refine bind_eq_ok.mpr ⟨(halt.reason, halt.setAt.value), labelled_eq_ok.mpr ?_, ?_⟩
    · exact bind_eq_ok.mpr ⟨_, requireIdentifier_str halt.reason _, bind_eq_ok.mpr ⟨_, readFloat_json halt.setAt, rfl⟩⟩
    · exact bind_eq_ok.mpr ⟨_, requireFinite_value halt.setAt _, rfl⟩

end Records
end KataGo.Scheduler
