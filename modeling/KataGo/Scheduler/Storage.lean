import KataGo.Scheduler.Operations
import KataGo.Scheduler.Reading

/-! What the records of a state say about each other, and that a state in which they agree is read
back from the file that it is written to. -/

namespace KataGo.Scheduler
open KataGo.Lib

variable {F : Type} [Numbers F]

/-- The references of a state are sound. -/
structure Valid (s : State F) : Prop where
  positive : 0 < s.nextSequence
  allocated : ∀ n ∈ s.sequences, 0 < n ∧ n < s.nextSequence
  work_key : ∀ workId record, s.work.get workId = some record → record.item.workId = workId
  work_gpus : ∀ workId record, s.work.get workId = some record →
    (∀ gpus ∈ record.item.eligibleGpus, ∀ gpu ∈ gpus.gpus, gpu ∈ s.gpuIds.gpus) ∧
      ∀ gpu ∈ record.item.preferredGpu, gpu ∈ s.gpuIds.gpus
  claim_key : ∀ gpuId claim, s.claims.get gpuId = some claim → claim.gpuId = gpuId ∧ gpuId ∈ s.gpuIds.gpus
  claim_work : ∀ gpuId claim, s.claims.get gpuId = some claim → ∃ record, s.work.get claim.workId = some record ∧
    record.state = .claimed ∧ record.activeClaimId = some claim.claimId ∧ record.item.isEligible gpuId = true
  claim_once : ∀ gpuId gpuId' claim claim', s.claims.get gpuId = some claim → s.claims.get gpuId' = some claim' →
    claim.workId = claim'.workId ∨ claim.claimId = claim'.claimId → gpuId = gpuId'
  claim_id : ∀ gpuId claim, s.claims.get gpuId = some claim → claim.claimId = claimIdentifier claim.sequence
  claimed : ∀ workId record, s.work.get workId = some record → record.state = .claimed →
    ∃ gpuId claim, s.claims.get gpuId = some claim ∧ claim.workId = workId
  unclaimed : ∀ workId record, s.work.get workId = some record → record.state ≠ .claimed → record.activeClaimId = none
  request_key : ∀ requestId request, s.preemptionRequests.get requestId = some request →
    request.requestId = requestId ∧ requestId = preemptionIdentifier request.sequence
  request_gpu : ∀ requestId request, s.preemptionRequests.get requestId = some request → request.gpuId ∈ s.gpuIds.gpus
  request_work : ∀ requestId request, s.preemptionRequests.get requestId = some request →
    (s.work.get request.runningWorkId).isSome ∧ (s.work.get request.requestedForWorkId).isSome
  request_pending : ∀ requestId request, s.preemptionRequests.get requestId = some request →
    request.status = .pending → ∃ claim, s.claims.get request.gpuId = some claim ∧ claim.claimId = request.claimId ∧
      claim.workId = request.runningWorkId ∧
      ∃ record, s.work.get request.runningWorkId = some record ∧ record.item.preemptible = true
  event_gpu : ∀ event ∈ s.idleEvents, event.gpuId ∈ s.gpuIds.gpus
  event_id : ∀ event ∈ s.idleEvents, event.eventId = idleIdentifier event.sequence
  event_order : (s.idleEvents.map (·.sequence)).Pairwise (· < ·)
  idle_event : ∀ gpuId eventId, s.idle.get gpuId = some eventId → gpuId ∈ s.gpuIds.gpus ∧
    ∃ event ∈ s.idleEvents, event.eventId = eventId ∧ event.gpuId = gpuId
  halt_gpu : ∀ gpuId halt, s.gpuSafetyHalts.get gpuId = some halt → gpuId ∈ s.gpuIds.gpus

/-- A state as it is read back: its dictionaries are in the order of their keys. -/
def State.sort (s : State F) : State F :=
  { s with
    work := s.work.sort
    claims := s.claims.sort
    preemptionRequests := s.preemptionRequests.sort
    idle := s.idle.sort
    gpuSafetyHalts := s.gpuSafetyHalts.sort }

section Identifiers

theorem foldl_padded (n : Nat) : (padded n).foldl (fun n c => n * 10 + (c.toNat - '0'.toNat)) 0 = n := by
  rw [padded, Json.foldl_zeros, Json.foldl_decimal]

/-- Numbers of labels are read off them. -/
theorem idText_injective {label : String} {n m : Nat} (same : idText label n = idText label m) : n = m := by
  have texts : label.toList ++ '-' :: padded n = label.toList ++ '-' :: padded m := by
    have chars := congrArg String.toList same
    rwa [idText, idText, String.toList_ofList, String.toList_ofList] at chars
  have digits : padded n = padded m := (List.cons.inj (List.append_cancel_left texts)).2
  calc n = (padded n).foldl (fun n c => n * 10 + (c.toNat - '0'.toNat)) 0 := (foldl_padded n).symm
    _ = (padded m).foldl (fun n c => n * 10 + (c.toNat - '0'.toNat)) 0 := by rw [digits]
    _ = m := foldl_padded m

end Identifiers

section Entries

variable {ν : Type}

omit [Numbers F] in
/-- An object of a state in order: its entries with their values in order. -/
theorem dictJson_sorted (encode : ν → Json F) (d : Dict Identifier ν) :
    (dictJson encode d).sorted = .obj (d.sort.entries.map fun entry => (entry.1.1, (encode entry.2).sorted)) := by
  show Json.obj ((Json.sortedFields _).insertionSort Json.keyLe) = _
  congr 1
  rw [Json.sortedFields_eq, List.map_map]
  exact (List.map_insertionSort (fun a b : Identifier × ν => a.1 ≤ b.1) Json.keyLe
    (fun entry => (entry.1.1, (encode entry.2).sorted)) d.entries (fun _ _ _ _ => Iff.rfl)).symm

theorem get_of_entries {d : Dict Identifier ν} {before after : List (Identifier × ν)} {entry : Identifier × ν}
    (whole : d.entries = before ++ entry :: after) : d.get entry.1 = some entry.2 :=
  Dict.get_of_mem (by rw [whole]; simp)

/-- An entry that comes before another has another key. -/
theorem key_ne_of_before {d : Dict Identifier ν} {before after : List (Identifier × ν)} {entry other : Identifier × ν}
    (whole : d.entries = before ++ entry :: after) (member : other ∈ before) : other.1 ≠ entry.1 := by
  have distinct := d.nodup
  rw [whole, List.map_append, List.nodup_append] at distinct
  exact distinct.2.2 _ (List.mem_map_of_mem member) _ (by simp)

end Entries

section Loops

variable {s : State F}

theorem mem_sequences {n : Nat} : n ∈ s.sequences ↔
    (∃ workId record, s.work.get workId = some record ∧
      (n = record.enqueueSequence ∨ ∃ release ∈ record.lastRelease, n = release.sequence)) ∨
    (∃ gpuId claim, s.claims.get gpuId = some claim ∧ n = claim.sequence) ∨
    (∃ requestId request, s.preemptionRequests.get requestId = some request ∧ n = request.sequence) ∨
    ∃ event ∈ s.idleEvents, n = event.sequence := by
  simp only [State.sequences, List.mem_append, List.mem_flatMap, List.mem_cons, List.mem_map, Dict.mem_values_iff,
    Option.mem_toList, Option.mem_def, or_assoc]
  constructor
  · rintro (⟨record, ⟨workId, found⟩, here⟩ | ⟨claim, ⟨gpuId, found⟩, rfl⟩ | ⟨request, ⟨requestId, found⟩, rfl⟩ |
      ⟨event, member, rfl⟩)
    · refine .inl ⟨workId, record, found, ?_⟩
      rcases here with same | ⟨release, last, rfl⟩
      · exact .inl same
      · exact .inr ⟨release, last, rfl⟩
    · exact .inr (.inl ⟨gpuId, claim, found, rfl⟩)
    · exact .inr (.inr (.inl ⟨requestId, request, found, rfl⟩))
    · exact .inr (.inr (.inr ⟨event, member, rfl⟩))
  · rintro (⟨workId, record, found, here⟩ | ⟨gpuId, claim, found, rfl⟩ | ⟨requestId, request, found, rfl⟩ |
      ⟨event, member, rfl⟩)
    · refine .inl ⟨record, ⟨workId, found⟩, ?_⟩
      rcases here with same | ⟨release, last, rfl⟩
      · exact .inl same
      · exact .inr ⟨release, last, rfl⟩
    · exact .inr (.inl ⟨claim, ⟨gpuId, found⟩, rfl⟩)
    · exact .inr (.inr (.inl ⟨request, ⟨requestId, found⟩, rfl⟩))
    · exact .inr (.inr (.inr ⟨event, member, rfl⟩))

variable (valid : Valid s)
include valid

theorem readRecord_all :
    (s.work.sort.entries.map fun entry => (entry.1.1, (Json.obj entry.2.toDict).sorted)).foldlM (readRecord s.gpuIds)
      Dict.empty = .ok s.work.sort := by
  apply Dict.foldlM_set
  intro acc before entry after whole _
  have found : s.work.get entry.1 = some entry.2 := by
    rw [← Dict.get_sort]
    exact get_of_entries whole
  have key := valid.work_key _ _ found
  have positive : 0 < entry.2.enqueueSequence :=
    (valid.allocated _ (mem_sequences.mpr (.inl ⟨_, _, found, .inl rfl⟩))).1
  have released : ∀ release ∈ entry.2.lastRelease, 0 < release.sequence := fun release last =>
    (valid.allocated _ (mem_sequences.mpr (.inl ⟨_, _, found, .inr ⟨release, last, rfl⟩⟩))).1
  have gpus := valid.work_gpus _ _ found
  refine bind_eq_ok.mpr ⟨_, WorkRecord.fromDict_sorted positive released, ?_⟩
  simp only [bind_eq_ok, require_eq_ok, exists_const]
  exact ⟨by rw [key], gpus.1, gpus.2, by rw [key]; rfl⟩

theorem readClaim_all :
    (s.claims.sort.entries.map fun entry => (entry.1.1, (Json.obj entry.2.toDict).sorted)).foldlM
      (readClaim s.gpuIds s.work.sort) Dict.empty = .ok s.claims.sort := by
  apply Dict.foldlM_set
  intro acc before entry after whole same
  have found : s.claims.get entry.1 = some entry.2 := by
    rw [← Dict.get_sort]
    exact get_of_entries whole
  have positive : 0 < entry.2.sequence :=
    (valid.allocated _ (mem_sequences.mpr (.inr (.inl ⟨_, _, found, rfl⟩)))).1
  obtain ⟨key, known⟩ := valid.claim_key _ _ found
  obtain ⟨record, work, state, active, eligible⟩ := valid.claim_work _ _ found
  have fresh : ∀ claim ∈ acc.values, entry.2.workId ≠ claim.workId ∧ entry.2.claimId ≠ claim.claimId := by
    intro claim member
    obtain ⟨other, there, rfl⟩ := List.mem_map.mp member
    rw [same] at there
    have earlier : s.claims.get other.1 = some other.2 := by
      rw [← Dict.get_sort]
      exact Dict.get_of_mem (by rw [whole]; simp [there])
    have different := key_ne_of_before whole there
    exact ⟨fun same => different (valid.claim_once _ _ _ _ earlier found (.inl same.symm)),
      fun same => different (valid.claim_once _ _ _ _ earlier found (.inr same.symm))⟩
  refine bind_eq_ok.mpr ⟨_, Claim.fromDict_sorted positive, ?_⟩
  simp only [bind_eq_ok, require_eq_ok, exists_const, key]
  refine ⟨⟨trivial, known⟩, ⟨?_, ?_⟩, ⟨record, by rw [Dict.get_sort]; exact work, state, active, eligible⟩, rfl⟩
  · intro member
    obtain ⟨claim, there, same⟩ := List.mem_map.mp member
    exact (fresh claim there).2 same.symm
  · intro member
    obtain ⟨claim, there, same⟩ := List.mem_map.mp member
    exact (fresh claim there).1 same.symm

theorem claimOf_claimed {workId : Identifier} {record : WorkRecord F} (found : s.work.get workId = some record) :
    checkClaimed s.claims.sort record = .ok () := by
  have key := valid.work_key _ _ found
  have whose : ∀ claim, claimOf s.claims.sort record.item.workId = some claim →
      record.state = .claimed ∧ record.activeClaimId = some claim.claimId := by
    intro claim first
    have here : claim.workId = record.item.workId := by simpa using List.find?_some first
    obtain ⟨gpuId, active⟩ := Dict.mem_values_iff.mp (List.mem_of_find?_eq_some first)
    rw [Dict.get_sort] at active
    obtain ⟨record', work, state, id, -⟩ := valid.claim_work _ _ active
    rw [here, key, found] at work
    cases work
    exact ⟨state, id⟩
  unfold checkClaimed
  split
  next claimed =>
    obtain ⟨gpuId, claim, active, workId⟩ := valid.claimed _ _ found claimed
    obtain ⟨claim', first⟩ : ∃ claim', claimOf s.claims.sort record.item.workId = some claim' := by
      rw [← Option.isSome_iff_exists, claimOf, List.find?_isSome]
      exact ⟨claim, Dict.mem_values_iff.mpr ⟨gpuId, by rw [Dict.get_sort]; exact active⟩, by simp [workId, key]⟩
    exact require_eq_ok.mpr ⟨claim', first, (whose claim' first).2⟩
  next other =>
    refine require_eq_ok.mpr ⟨valid.unclaimed _ _ found other, ?_⟩
    rw [Option.isNone_iff_eq_none, Option.eq_none_iff_forall_ne_some]
    intro claim first
    exact other (whose claim first).1

theorem checkClaimed_all : s.work.sort.values.forM (checkClaimed s.claims.sort) = .ok () := by
  have each : ∀ record ∈ s.work.sort.values, checkClaimed s.claims.sort record = .ok () := by
    intro record member
    obtain ⟨workId, found⟩ := Dict.mem_values_iff.mp member
    rw [Dict.get_sort] at found
    exact claimOf_claimed valid found
  generalize s.work.sort.values = records at each
  induction records with
  | nil => rfl
  | cons record records ih =>
    exact bind_eq_ok.mpr ⟨(), each record List.mem_cons_self, ih fun other member =>
      each other (List.mem_cons_of_mem record member)⟩

theorem readRequest_all :
    (s.preemptionRequests.sort.entries.map fun entry => (entry.1.1, (Json.obj entry.2.toDict).sorted)).foldlM
      (readRequest s.gpuIds s.work.sort s.claims.sort) Dict.empty = .ok s.preemptionRequests.sort := by
  apply Dict.foldlM_set
  intro acc before entry after whole _
  have found : s.preemptionRequests.get entry.1 = some entry.2 := by
    rw [← Dict.get_sort]
    exact get_of_entries whole
  have positive : 0 < entry.2.sequence :=
    (valid.allocated _ (mem_sequences.mpr (.inr (.inr (.inl ⟨_, _, found, rfl⟩))))).1
  have key := (valid.request_key _ _ found).1
  refine bind_eq_ok.mpr ⟨_, PreemptionRequest.fromDict_sorted positive, ?_⟩
  simp only [bind_eq_ok, require_eq_ok, exists_const, key, Dict.get_sort]
  exact ⟨⟨trivial, valid.request_gpu _ _ found⟩, valid.request_work _ _ found, valid.request_pending _ _ found, rfl⟩

omit valid in
theorem nodup_eventIds (ids : ∀ event ∈ s.idleEvents, event.eventId = idleIdentifier event.sequence)
    (order : (s.idleEvents.map (·.sequence)).Pairwise (· < ·)) : (s.idleEvents.map (·.eventId)).Nodup := by
  have same : s.idleEvents.map (·.eventId) = (s.idleEvents.map (·.sequence)).map idleIdentifier := by
    rw [List.map_map]
    exact List.map_congr_left ids
  rw [same]
  refine List.Nodup.map ?_ (order.imp fun less => less.ne)
  intro n m equal
  exact idText_injective (congrArg Subtype.val equal)

theorem readEvent_all :
    (s.idleEvents.map fun event => (Json.obj event.toDict).sorted).foldlM (readEvent s.gpuIds) [] =
      .ok s.idleEvents := by
  apply foldlM_concat
  intro before event after whole
  have member : event ∈ s.idleEvents := by rw [whole]; simp
  have positive : 0 < event.sequence :=
    (valid.allocated _ (mem_sequences.mpr (.inr (.inr (.inr ⟨event, member, rfl⟩))))).1
  have fresh : event.eventId ∉ before.map (·.eventId) := by
    have distinct := nodup_eventIds valid.event_id valid.event_order
    rw [whole, List.map_append, List.nodup_append] at distinct
    exact fun there => distinct.2.2 _ there _ (by simp) rfl
  have later : lastSequence before < event.sequence := by
    have order := valid.event_order
    rw [whole, List.map_append, List.pairwise_append] at order
    cases final : before.getLast? with
    | none =>
      rw [lastSequence, final]
      exact positive
    | some last =>
      rw [lastSequence, final]
      exact order.2.2 _ (List.mem_map_of_mem (List.mem_of_getLast? final)) _ (by simp)
  refine bind_eq_ok.mpr ⟨_, IdleEvent.fromDict_sorted positive, ?_⟩
  simp only [bind_eq_ok, require_eq_ok, exists_const]
  exact ⟨⟨valid.event_gpu event member, fresh⟩, later, rfl⟩

omit valid in
theorem registered_of_mem {gpuIds : GpuSet} {gpuId : Identifier} (known : gpuId ∈ gpuIds.gpus) :
    registered gpuIds gpuId.1 = some gpuId := by
  obtain ⟨found, first⟩ : ∃ found, registered gpuIds gpuId.1 = some found := by
    rw [← Option.isSome_iff_exists, registered, List.find?_isSome]
    exact ⟨gpuId, known, by simp⟩
  have same : found.1 = gpuId.1 := by simpa using List.find?_some first
  rw [first, Subtype.ext same]

theorem readIdle_all :
    (s.idle.sort.entries.map fun entry => (entry.1.1, (identifierJson entry.2 : Json F).sorted)).foldlM
      (readIdle s.gpuIds s.idleEvents) Dict.empty = .ok s.idle.sort := by
  apply Dict.foldlM_set
  intro acc before entry after whole _
  have found : s.idle.get entry.1 = some entry.2 := by
    rw [← Dict.get_sort]
    exact get_of_entries whole
  obtain ⟨known, event, member, id, gpu⟩ := valid.idle_event _ _ found
  obtain ⟨event', first⟩ : ∃ event', s.idleEvents.find? (fun event => event.eventId.1 = entry.2.1) = some event' := by
    rw [← Option.isSome_iff_exists, List.find?_isSome]
    exact ⟨event, member, by simp [id]⟩
  have named : event'.eventId.1 = entry.2.1 := by simpa using List.find?_some first
  have same : event' = event := by
    apply List.inj_on_of_nodup_map (nodup_eventIds valid.event_id valid.event_order)
      (List.mem_of_find?_eq_some first) member
    exact (Subtype.ext named).trans id.symm
  subst same
  show readIdle s.gpuIds s.idleEvents acc (entry.1.1, .str entry.2.1) = _
  simp only [readIdle, registered_of_mem known, first, if_pos gpu]
  rw [id]

theorem readGpuHalt_all :
    (s.gpuSafetyHalts.sort.entries.map fun entry => (entry.1.1, (Halt.optionJson entry.2).sorted)).foldlM
      (readGpuHalt s.gpuIds) Dict.empty = .ok s.gpuSafetyHalts.sort := by
  apply Dict.foldlM_set
  intro acc before entry after whole _
  have found : s.gpuSafetyHalts.get entry.1 = some entry.2 := by
    rw [← Dict.get_sort]
    exact get_of_entries whole
  simp only [readGpuHalt, registered_of_mem (valid.halt_gpu _ _ found)]
  exact bind_eq_ok.mpr ⟨_, Halt.validateHalt_sorted entry.2 _, rfl⟩

end Loops

section Whole

variable {s : State F}

theorem Valid.sort (valid : Valid s) : Valid s.sort where
  positive := valid.positive
  allocated := by
    intro n member
    apply valid.allocated
    rw [mem_sequences] at member ⊢
    simpa only [State.sort, Dict.get_sort] using member
  work_key := by simpa only [State.sort, Dict.get_sort] using valid.work_key
  work_gpus := by simpa only [State.sort, Dict.get_sort] using valid.work_gpus
  claim_key := by simpa only [State.sort, Dict.get_sort] using valid.claim_key
  claim_work := by simpa only [State.sort, Dict.get_sort] using valid.claim_work
  claim_once := by simpa only [State.sort, Dict.get_sort] using valid.claim_once
  claim_id := by simpa only [State.sort, Dict.get_sort] using valid.claim_id
  claimed := by simpa only [State.sort, Dict.get_sort] using valid.claimed
  unclaimed := by simpa only [State.sort, Dict.get_sort] using valid.unclaimed
  request_key := by simpa only [State.sort, Dict.get_sort] using valid.request_key
  request_gpu := by simpa only [State.sort, Dict.get_sort] using valid.request_gpu
  request_work := by simpa only [State.sort, Dict.get_sort] using valid.request_work
  request_pending := by simpa only [State.sort, Dict.get_sort] using valid.request_pending
  event_gpu := valid.event_gpu
  event_id := valid.event_id
  event_order := valid.event_order
  idle_event := by simpa only [State.sort, Dict.get_sort] using valid.idle_event
  halt_gpu := by simpa only [State.sort, Dict.get_sort] using valid.halt_gpu

theorem foldl_max_lt {bound : Nat} {numbers : List Nat} {start : Nat} (first : start < bound)
    (all : ∀ n ∈ numbers, n < bound) : numbers.foldl max start < bound := by
  induction numbers generalizing start with
  | nil => exact first
  | cons n numbers ih =>
    rw [List.foldl_cons]
    exact ih (max_lt first (all n List.mem_cons_self)) fun m member => all m (List.mem_cons_of_mem n member)

/-- The fields that a state is sealed with. -/
def sealed (s : State F) (hash : String) : List (String × Json F) :=
  sortFields s.body ++ [("state_sha256", .str hash)]

theorem nodup_body (s : State F) : (s.body.map Prod.fst).Nodup :=
  (by decide : ["schema_version", "revision", "next_sequence", "dynamic_gpus", "gpu_ids", "work", "claims",
    "preemption_requests", "idle_events", "idle", "safety_halt", "gpu_safety_halts"].Nodup)

theorem hash_fresh (s : State F) : "state_sha256" ∉ s.body.map Prod.fst :=
  (by decide : "state_sha256" ∉ ["schema_version", "revision", "next_sequence", "dynamic_gpus", "gpu_ids", "work",
    "claims", "preemption_requests", "idle_events", "idle", "safety_halt", "gpu_safety_halts"])

theorem hash_fresh_sorted (s : State F) : "state_sha256" ∉ (sortFields s.body).map Prod.fst := by
  intro member
  exact hash_fresh s ((Json.sorted_keys s.body).mem_iff.mp member)

theorem names_sealed (s : State F) (hash : String) : ((sealed s hash).map Prod.fst).Perm stateFields := by
  rw [sealed, List.map_append]
  exact (Json.sorted_keys s.body).append_right _

/-- The canonical text of the fields in any order. -/
theorem canonicalJsonBytes_eq {value : Json F} (writable : value.encodable = true) :
    canonicalJsonBytes value = .ok (Utf8.encode (Json.text value.sorted)) := by
  rw [canonicalJsonBytes, Json.canonical, if_pos writable]

/-- The hash of a state. -/
def stateHash (s : State F) : String :=
  String.ofList (Sha256.hexDigest (Utf8.encode (Json.text (Json.obj s.body).sorted)).data.toList)

theorem canonicalSha256_body {fields : List (String × Json F)} (writable : (Json.obj s.body).encodable = true)
    (perm : fields.Perm (sortFields s.body)) : canonicalSha256 (.obj fields) = .ok (stateHash s) := by
  have names : ((sortFields s.body).map Prod.fst).Nodup := (Json.sorted_keys s.body).nodup_iff.mpr (nodup_body s)
  have sorted : (Json.obj fields).sorted = (Json.obj s.body).sorted := by
    rw [sorted_perm names perm]
    exact Json.sorted_sorted (Json.obj s.body)
  have encodable : (Json.obj fields).encodable = true := by
    rw [← Json.encodable_sorted, sorted, Json.encodable_sorted]
    exact writable
  exact bind_eq_ok.mpr ⟨_, canonicalJsonBytes_eq encodable, by rw [sorted]; rfl⟩

omit [Numbers F] in
theorem readGpuIds_gpus (set : GpuSet) : readGpuIds (.arr (set.gpus.map identifierJson) : Json F) = .ok set := by
  have read : ((set.gpus.map identifierJson).mapM fun item : Json F => requireIdentifier item "gpu_id").mapError
      (fun error => SchedulerError.state error.text) = .ok set.gpus := by
    rw [mapM_requireIdentifier]
    rfl
  refine bind_eq_ok.mpr ⟨_, read, ?_⟩
  rw [dif_pos set.ordered]
  rfl

theorem validateState_sealed (valid : Valid s) (writable : (Json.obj s.body).encodable = true)
    {fields : List (String × Json F)} (perm : fields.Perm (sealed s (stateHash s))) :
    validateState fields = .ok s.sort := by
  have names : (fields.map Prod.fst).Perm stateFields := (perm.map Prod.fst).trans (names_sealed s _)
  have distinct : ((sealed s (stateHash s)).map Prod.fst).Nodup := by
    rw [(names_sealed s _).nodup_iff]
    decide
  have body : ∀ key, key ≠ "state_sha256" → Json.get fields key = (Json.get s.body key).sorted := by
    intro key other
    rw [Json.get_perm distinct perm, sealed, get_append_ne _ other, get_sortFields_of_nodup (nodup_body s)]
  have hash : Json.get fields "state_sha256" = .str (stateHash s) := by
    rw [Json.get_perm distinct perm, sealed, get_append_self _ (hash_fresh_sorted s)]
  have hashed : checkHash fields = .ok () := by
    have rest : (fields.filter fun field => field.1 ≠ "state_sha256").Perm (sortFields s.body) := by
      have only : (sealed s (stateHash s)).filter (fun field => field.1 ≠ "state_sha256") = sortFields s.body := by
        rw [sealed, List.filter_append, List.filter_eq_self.mpr, List.filter_cons_of_neg (by simp), List.filter_nil,
          List.append_nil]
        intro field member
        have fresh : field.1 ≠ "state_sha256" := by
          intro same
          exact hash_fresh_sorted s (same ▸ List.mem_map_of_mem member)
        simpa using fresh
      rw [← only]
      exact perm.filter _
    refine bind_eq_ok.mpr ⟨_, canonicalSha256_body writable rest, require_eq_ok.mpr ?_⟩
    rw [hash]
    exact Json.isStr_iff.mpr rfl
  have work : Json.get fields "work" = .obj (s.work.sort.entries.map fun entry =>
      (entry.1.1, (Json.obj entry.2.toDict).sorted)) := (body _ (by decide)).trans (dictJson_sorted (fun record : WorkRecord F => .obj record.toDict) s.work)
  have claims : Json.get fields "claims" = .obj (s.claims.sort.entries.map fun entry =>
      (entry.1.1, (Json.obj entry.2.toDict).sorted)) := (body _ (by decide)).trans (dictJson_sorted (fun claim : Claim F => .obj claim.toDict) s.claims)
  have requests : Json.get fields "preemption_requests" = .obj (s.preemptionRequests.sort.entries.map fun entry =>
      (entry.1.1, (Json.obj entry.2.toDict).sorted)) :=
    (body _ (by decide)).trans (dictJson_sorted (fun request : PreemptionRequest F => .obj request.toDict) s.preemptionRequests)
  have idle : Json.get fields "idle" = .obj (s.idle.sort.entries.map fun entry =>
      (entry.1.1, (identifierJson entry.2 : Json F).sorted)) := (body _ (by decide)).trans (dictJson_sorted identifierJson s.idle)
  have halts : Json.get fields "gpu_safety_halts" = .obj (s.gpuSafetyHalts.sort.entries.map fun entry =>
      (entry.1.1, (Halt.optionJson entry.2).sorted)) := (body _ (by decide)).trans (dictJson_sorted Halt.optionJson s.gpuSafetyHalts)
  have events : Json.get fields "idle_events" = .arr (s.idleEvents.map fun event => (Json.obj event.toDict).sorted) := by
    refine (body _ (by decide)).trans ?_
    show (Json.arr (s.idleEvents.map fun event => Json.obj event.toDict)).sorted = _
    rw [Json.sorted, Json.sortedItems_eq, List.map_map]
    rfl
  have gpus : Json.get fields "gpu_ids" = .arr (s.gpuIds.gpus.map identifierJson) :=
    (body _ (by decide)).trans (sorted_identifiers s.gpuIds.gpus)
  have version : Json.get fields "schema_version" = .int schemaVersion := body _ (by decide)
  have revision : Json.get fields "revision" = .int s.revision := body _ (by decide)
  have next : Json.get fields "next_sequence" = .int s.nextSequence := body _ (by decide)
  have dynamic : Json.get fields "dynamic_gpus" = .bool s.dynamicGpus := body _ (by decide)
  have halt : Json.get fields "safety_halt" = (Halt.optionJson s.safetyHalt).sorted := body _ (by decide)
  have below : s.sort.sequences.foldl max 0 < s.nextSequence :=
    foldl_max_lt valid.positive fun n member => (valid.sort.allocated n member).2
  refine bind_eq_ok.mpr ⟨fields, fieldsOf_perm names, ?_⟩
  rw [work, claims, requests, idle, halts, events, gpus, version, revision, next, dynamic, halt]
  exact bind_eq_ok.mpr ⟨(), require_eq_ok.mpr rfl, bind_eq_ok.mpr ⟨_, requireNonnegativeInt_int s.revision _,
    bind_eq_ok.mpr ⟨_, requirePositiveInt_int valid.positive _, bind_eq_ok.mpr ⟨_, rfl,
    bind_eq_ok.mpr ⟨_, readGpuIds_gpus s.gpuIds, bind_eq_ok.mpr ⟨(), hashed, bind_eq_ok.mpr ⟨_, rfl,
    bind_eq_ok.mpr ⟨_, rfl, bind_eq_ok.mpr ⟨_, rfl, bind_eq_ok.mpr ⟨_, rfl, bind_eq_ok.mpr ⟨_, rfl,
    bind_eq_ok.mpr ⟨_, rfl, bind_eq_ok.mpr ⟨_, readRecord_all valid, bind_eq_ok.mpr ⟨_, readClaim_all valid,
    bind_eq_ok.mpr ⟨(), checkClaimed_all valid, bind_eq_ok.mpr ⟨_, readRequest_all valid,
    bind_eq_ok.mpr ⟨_, readEvent_all valid, bind_eq_ok.mpr ⟨_, readIdle_all valid,
    bind_eq_ok.mpr ⟨_, Halt.validateHalt_sorted s.safetyHalt _, bind_eq_ok.mpr ⟨_, readGpuHalt_all valid,
    bind_eq_ok.mpr ⟨(), require_eq_ok.mpr below, rfl⟩⟩⟩⟩⟩⟩⟩⟩⟩⟩⟩⟩⟩⟩⟩⟩⟩⟩⟩⟩⟩

end Whole

section Keys

omit [Numbers F] in
theorem keyed_obj {fields : List (String × Json F)} :
    (Json.obj fields).keyed = true ↔ (fields.map Prod.fst).Nodup ∧ ∀ field ∈ fields, field.2.keyed = true := by
  rw [Json.keyed, Bool.and_eq_true, decide_eq_true_iff, Json.keyedFields_iff]

theorem encodable_obj {fields : List (String × Json F)} :
    (Json.obj fields).encodable = true ↔ ∀ field ∈ fields, field.2.encodable = true := by
  rw [Json.encodable, Json.encodableFields_iff]

omit [Numbers F] in
theorem keyed_arr {items : List (Json F)} (all : ∀ item ∈ items, item.keyed = true) : (Json.arr items).keyed = true :=
  Json.keyedItems_iff.mpr all

omit [Numbers F] in
theorem keyed_optional (id : Option Identifier) : (optionalJson id : Json F).keyed = true := by
  cases id <;> rfl

omit [Numbers F] in
theorem keyed_identifiers (gpus : List Identifier) : (Json.arr (gpus.map identifierJson) : Json F).keyed = true := by
  apply keyed_arr
  simp only [List.forall_mem_map]
  exact fun gpu _ => rfl

omit [Numbers F] in
theorem keyed_dict {ν : Type} {encode : ν → Json F} (d : Dict Identifier ν) (each : ∀ v, (encode v).keyed = true) :
    (dictJson encode d).keyed = true := by
  rw [dictJson, keyed_obj, List.map_map]
  refine ⟨?_, ?_⟩
  · have names : d.entries.map (Prod.fst ∘ fun entry => (entry.1.1, encode entry.2)) =
        (d.entries.map Prod.fst).map Subtype.val := by
      rw [List.map_map]
      rfl
    rw [names]
    exact d.nodup.map Subtype.val_injective
  · simp only [List.forall_mem_map]
    exact fun entry _ => each entry.2

theorem keyed_item (item : WorkItem F) : (Json.obj item.toDict).keyed = true := by
  have eligible : (WorkItem.eligibleJson item.eligibleGpus : Json F).keyed = true := by
    cases item.eligibleGpus with
    | none => rfl
    | some set => exact keyed_identifiers set.gpus
  refine keyed_obj.mpr ⟨(by decide : ["work_id", "kind", "eligible_gpus", "preemptible", "preferred_gpu",
    "payload"].Nodup), ?_⟩
  simp only [WorkItem.toDict, List.forall_mem_cons]
  exact ⟨rfl, rfl, eligible, rfl, keyed_optional _, item.payload.copied.distinct, by simp⟩

theorem keyed_claim (claim : Claim F) : (Json.obj claim.toDict).keyed = true := by
  refine keyed_obj.mpr ⟨(by decide : ["claim_id", "work_id", "gpu_id", "owner_id", "claimed_at", "sequence",
    "stolen"].Nodup), ?_⟩
  simp only [Claim.toDict, List.forall_mem_cons]
  exact ⟨rfl, rfl, rfl, rfl, rfl, rfl, rfl, by simp⟩

theorem keyed_release (release : Option (ReleaseRecord F)) : (WorkRecord.releaseJson release).keyed = true := by
  cases release with
  | none => rfl
  | some release =>
    refine keyed_obj.mpr ⟨(by decide : ["release_id", "claim_id", "work_id", "gpu_id", "owner_id", "outcome",
      "released_at", "sequence"].Nodup), ?_⟩
    simp only [ReleaseRecord.toDict, List.forall_mem_cons]
    exact ⟨rfl, rfl, rfl, rfl, rfl, rfl, rfl, rfl, by simp⟩

theorem keyed_record (record : WorkRecord F) : (Json.obj record.toDict).keyed = true := by
  refine keyed_obj.mpr ⟨(by decide : ["item", "state", "enqueue_sequence", "attempts", "active_claim_id",
    "last_release"].Nodup), ?_⟩
  simp only [WorkRecord.toDict, List.forall_mem_cons]
  exact ⟨keyed_item record.item, rfl, rfl, rfl, keyed_optional _, keyed_release _, by simp⟩

theorem keyed_request (request : PreemptionRequest F) : (Json.obj request.toDict).keyed = true := by
  have boundary : (PreemptionRequest.boundaryJson request.boundaryAt).keyed = true := by
    cases request.boundaryAt <;> rfl
  refine keyed_obj.mpr ⟨(by decide : ["request_id", "gpu_id", "claim_id", "running_work_id", "requested_for_work_id",
    "requested_by", "reason", "requested_at", "sequence", "status", "boundary_at"].Nodup), ?_⟩
  simp only [PreemptionRequest.toDict, List.forall_mem_cons]
  exact ⟨rfl, rfl, rfl, rfl, rfl, rfl, rfl, rfl, rfl, rfl, boundary, by simp⟩

theorem keyed_event (event : IdleEvent F) : (Json.obj event.toDict).keyed = true := by
  refine keyed_obj.mpr ⟨(by decide : ["event_id", "gpu_id", "reason", "recorded_at", "sequence", "owner_id", "work_id",
    "details"].Nodup), ?_⟩
  simp only [IdleEvent.toDict, List.forall_mem_cons]
  exact ⟨rfl, rfl, rfl, rfl, rfl, keyed_optional _, keyed_optional _, event.details.copied.distinct, by simp⟩

theorem keyed_halt (halt : Option (Halt F)) : (Halt.optionJson halt).keyed = true := by
  cases halt <;> rfl

theorem keyed_body (s : State F) : (Json.obj s.body).keyed = true := by
  refine keyed_obj.mpr ⟨nodup_body s, ?_⟩
  simp only [State.body, List.forall_mem_cons]
  have idle : (dictJson identifierJson s.idle : Json F).keyed = true := keyed_dict s.idle fun _ => rfl
  refine ⟨rfl, rfl, rfl, rfl, keyed_identifiers _, keyed_dict s.work keyed_record, keyed_dict s.claims keyed_claim,
    keyed_dict s.preemptionRequests keyed_request, keyed_arr ?_, idle, keyed_halt _,
    keyed_dict s.gpuSafetyHalts keyed_halt, by simp⟩
  simp only [List.forall_mem_map]
  exact fun event _ => keyed_event event

end Keys

section Files

variable {s : State F}

/-- The bytes of a state file. -/
def stateData (s : State F) : ByteArray :=
  Utf8.encode (Json.text (Json.obj (sealed s (stateHash s))).sorted) ++ Utf8.encode ['\n']

theorem sealState_body (writable : (Json.obj s.body).encodable = true) :
    sealState s.body = .ok (sealed s (stateHash s)) := by
  have loaded := Json.loads_text (plainHooks_faithful (F := F)) (Json.obj s.body).sorted
    (by rw [Json.encodable_sorted]; exact writable) (by rw [Json.keyed_sorted]; exact keyed_body s) (.inl rfl)
  rw [List.append_nil] at loaded
  refine bind_eq_ok.mpr ⟨_, canonicalJsonBytes_eq writable, ?_⟩
  rw [Utf8.decode_encode, Option.bind_some, loaded]
  exact bind_eq_ok.mpr ⟨_, canonicalSha256_body writable (List.Perm.refl _), rfl⟩

theorem encodable_sealed (writable : (Json.obj s.body).encodable = true) (hash : String) :
    (Json.obj (sealed s hash)).encodable = true := by
  have body : (Json.obj (sortFields s.body)).encodable = true := by
    have sorted := Json.encodable_sorted (Json.obj s.body)
    rw [writable] at sorted
    exact sorted
  rw [encodable_obj] at body ⊢
  intro field member
  rcases List.mem_append.mp member with old | new
  · exact body field old
  · rw [List.mem_singleton.mp new]
    rfl

theorem keyed_sealed (s : State F) (hash : String) : (Json.obj (sealed s hash)).keyed = true := by
  have body := Json.keyed_sorted (Json.obj s.body)
  rw [keyed_body] at body
  refine keyed_obj.mpr ⟨?_, ?_⟩
  · rw [(names_sealed s hash).nodup_iff]
    decide
  · intro field member
    rcases List.mem_append.mp member with old | new
    · exact (keyed_obj.mp body).2 field old
    · rw [List.mem_singleton.mp new]
      rfl

/-- What a valid state is written as, unless one of its numbers has too many digits. -/
theorem stateBytes_valid (valid : Valid s) :
    stateBytes s = if (Json.obj s.body).encodable = true then .ok (stateData s)
      else .error (.value "value is not canonical-JSON compatible") := by
  split
  next writable =>
    have bytes := canonicalJsonBytes_eq (encodable_sealed writable (stateHash s))
    rw [stateBytes, bind_eq_ok]
    refine ⟨_, sealState_body writable, ?_⟩
    rw [bind_eq_ok]
    refine ⟨_, validateState_sealed valid writable (List.Perm.refl _), ?_⟩
    rw [bind_eq_ok]
    exact ⟨_, bytes, rfl⟩
  next unwritable =>
    have failed : canonicalJsonBytes (.obj s.body) = .error (.value "value is not canonical-JSON compatible") := by
      rw [canonicalJsonBytes, Json.canonical, if_neg unwritable]
    rw [stateBytes, sealState, failed]
    rfl

/-- A valid state is read back from the bytes that it is written as. -/
theorem readState_stateData (valid : Valid s) (writable : (Json.obj s.body).encodable = true) :
    readState F (stateData s) = .ok s.sort := by
  have loaded := Json.loads_text (uniqueHooks_faithful (F := F)) (Json.obj (sealed s (stateHash s))).sorted
    (by rw [Json.encodable_sorted]; exact encodable_sealed writable _)
    (by rw [Json.keyed_sorted]; exact keyed_sealed s _) (.inr rfl)
  have decoded : decodeState (stateData s) = .ok (sortFields (sealed s (stateHash s))) := by
    rw [decodeState, stateData, ← Utf8.encode_append, Utf8.decode_encode, Option.bind_some, loaded]
    rfl
  have again : (Json.obj (sortFields (sealed s (stateHash s)))).sorted = (Json.obj (sealed s (stateHash s))).sorted :=
    Json.sorted_sorted (Json.obj (sealed s (stateHash s)))
  have encodable : (Json.obj (sortFields (sealed s (stateHash s)))).encodable = true := by
    have sorted := Json.encodable_sorted (Json.obj (sealed s (stateHash s)))
    rw [encodable_sealed writable] at sorted
    exact sorted
  have fixed : Json.sortedFields (sealed s (stateHash s)) = sealed s (stateHash s) := by
    have body := sortedFields_sortFields s.body
    rw [Json.sortedFields_eq] at body
    rw [Json.sortedFields_eq, sealed, List.map_append, body]
    rfl
  have perm : (sortFields (sealed s (stateHash s))).Perm (sealed s (stateHash s)) := by
    rw [sortFields, fixed]
    exact List.perm_insertionSort _ _
  simp only [readState, bind_eq_ok, require_eq_ok, exists_const]
  refine ⟨_, decoded, _, canonicalJsonBytes_eq encodable, ?_, validateState_sealed valid writable perm⟩
  rw [again]
  rfl

end Files
end KataGo.Scheduler
