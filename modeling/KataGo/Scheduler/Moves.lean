import KataGo.Scheduler.Calls
import KataGo.Scheduler.Storage
import Mathlib.Logic.Relation

/-! What a call can make of a state. Every change is one of a few, and none of them makes a
reference unsound. -/

namespace KataGo.Scheduler
open KataGo.Lib

variable {F : Type} [Numbers F] {s s' : State F}

/-- A change of what the scheduler knows of its GPUs, apart from work and claims. -/
inductive Note (s : State F) : State F → Prop where
  | register (gpuId : Identifier) : Note s { s with gpuIds := s.gpuIds.add gpuId }
  | idle (gpuId : Identifier) (known : gpuId ∈ s.gpuIds.gpus) (reason : IdleReason) (recordedAt : Time F)
      (ownerId workId : Option Identifier) (details : Payload F) : Note s { s with
        nextSequence := s.nextSequence + 1
        idleEvents := s.idleEvents ++ [⟨idleIdentifier s.nextSequence, gpuId, reason, recordedAt, s.nextSequence,
          ownerId, workId, details⟩]
        idle := s.idle.set gpuId (idleIdentifier s.nextSequence) }
  | halt (halt : Option (Halt F)) : Note s { s with safetyHalt := halt }
  | gpuHalt (gpuId : Identifier) (known : gpuId ∈ s.gpuIds.gpus) (halt : Halt F) :
      Note s { s with gpuSafetyHalts := s.gpuSafetyHalts.set gpuId (some halt) }
  | unhalt (gpuId : Identifier) : Note s { s with gpuSafetyHalts := s.gpuSafetyHalts.erase gpuId }

def Noted : State F → State F → Prop := Relation.ReflTransGen Note

/-- What notes leave as it is. -/
structure Framed (s s' : State F) : Prop where
  work : s'.work = s.work
  claims : s'.claims = s.claims
  requests : s'.preemptionRequests = s.preemptionRequests
  gpus : ∀ gpuId ∈ s.gpuIds.gpus, gpuId ∈ s'.gpuIds.gpus
  next : s.nextSequence ≤ s'.nextSequence

theorem Note.framed (note : Note s s') : Framed s s' := by
  cases note with
  | register gpuId => exact ⟨rfl, rfl, rfl, fun gpu member => GpuSet.mem_add.mpr (.inr member), Nat.le_refl _⟩
  | idle gpuId known reason recordedAt ownerId workId details =>
    exact ⟨rfl, rfl, rfl, fun gpu member => member, Nat.le_succ _⟩
  | halt halt => exact ⟨rfl, rfl, rfl, fun gpu member => member, Nat.le_refl _⟩
  | gpuHalt gpuId known halt => exact ⟨rfl, rfl, rfl, fun gpu member => member, Nat.le_refl _⟩
  | unhalt gpuId => exact ⟨rfl, rfl, rfl, fun gpu member => member, Nat.le_refl _⟩

theorem Noted.framed (noted : Noted s s') : Framed s s' := by
  induction noted with
  | refl => exact ⟨rfl, rfl, rfl, fun gpu member => member, Nat.le_refl _⟩
  | tail _ note ih =>
    have last := note.framed
    exact ⟨last.work.trans ih.work, last.claims.trans ih.claims, last.requests.trans ih.requests,
      fun gpu member => last.gpus gpu (ih.gpus gpu member), ih.next.trans last.next⟩

section Notes

theorem Valid.register (valid : Valid s) (gpuId : Identifier) : Valid { s with gpuIds := s.gpuIds.add gpuId } where
  positive := valid.positive
  allocated := valid.allocated
  work_key := valid.work_key
  work_gpus workId record found := by
    obtain ⟨eligible, preferred⟩ := valid.work_gpus workId record found
    exact ⟨fun gpus member gpu here => GpuSet.mem_add.mpr (.inr (eligible gpus member gpu here)),
      fun gpu member => GpuSet.mem_add.mpr (.inr (preferred gpu member))⟩
  claim_key gpuId claim found :=
    ⟨(valid.claim_key gpuId claim found).1, GpuSet.mem_add.mpr (.inr (valid.claim_key gpuId claim found).2)⟩
  claim_work := valid.claim_work
  claim_once := valid.claim_once
  claim_id := valid.claim_id
  claimed := valid.claimed
  unclaimed := valid.unclaimed
  request_key := valid.request_key
  request_gpu requestId request found := GpuSet.mem_add.mpr (.inr (valid.request_gpu requestId request found))
  request_work := valid.request_work
  request_pending := valid.request_pending
  event_gpu event member := GpuSet.mem_add.mpr (.inr (valid.event_gpu event member))
  event_id := valid.event_id
  event_order := valid.event_order
  idle_event gpuId eventId found :=
    ⟨GpuSet.mem_add.mpr (.inr (valid.idle_event gpuId eventId found).1), (valid.idle_event gpuId eventId found).2⟩
  halt_gpu gpuId halt found := GpuSet.mem_add.mpr (.inr (valid.halt_gpu gpuId halt found))

theorem Valid.idle (valid : Valid s) {gpuId : Identifier} (known : gpuId ∈ s.gpuIds.gpus) {event : IdleEvent F}
    (id : event.eventId = idleIdentifier s.nextSequence) (gpu : event.gpuId = gpuId)
    (sequence : event.sequence = s.nextSequence) :
    Valid { s with
      nextSequence := s.nextSequence + 1
      idleEvents := s.idleEvents ++ [event]
      idle := s.idle.set gpuId (idleIdentifier s.nextSequence) } where
  positive := Nat.succ_pos _
  allocated := by
    have positive := valid.positive
    intro n member
    have old : n ∈ s.sequences ∨ n = s.nextSequence := by
      rw [mem_sequences] at member ⊢
      rcases member with work | claim | request | ⟨other, there, rfl⟩
      · exact .inl (.inl work)
      · exact .inl (.inr (.inl claim))
      · exact .inl (.inr (.inr (.inl request)))
      · rcases List.mem_append.mp there with earlier | last
        · exact .inl (.inr (.inr (.inr ⟨other, earlier, rfl⟩)))
        · exact .inr (by rw [List.mem_singleton.mp last, sequence])
    rcases old with earlier | rfl
    · obtain ⟨lower, upper⟩ := valid.allocated n earlier
      exact ⟨lower, Nat.lt_succ_of_lt upper⟩
    · exact ⟨positive, Nat.lt_succ_self _⟩
  work_key := valid.work_key
  work_gpus := valid.work_gpus
  claim_key := valid.claim_key
  claim_work := valid.claim_work
  claim_once := valid.claim_once
  claim_id := valid.claim_id
  claimed := valid.claimed
  unclaimed := valid.unclaimed
  request_key := valid.request_key
  request_gpu := valid.request_gpu
  request_work := valid.request_work
  request_pending := valid.request_pending
  event_gpu other member := by
    rcases List.mem_append.mp member with earlier | last
    · exact valid.event_gpu other earlier
    · rw [List.mem_singleton.mp last, gpu]
      exact known
  event_id other member := by
    rcases List.mem_append.mp member with earlier | last
    · exact valid.event_id other earlier
    · rw [List.mem_singleton.mp last, id, sequence]
  event_order := by
    rw [List.map_append, List.pairwise_append]
    refine ⟨valid.event_order, List.pairwise_singleton _ _, ?_⟩
    intro n earlier m last
    obtain ⟨other, there, rfl⟩ := List.mem_map.mp earlier
    rw [List.map_singleton, List.mem_singleton] at last
    rw [last, sequence]
    exact (valid.allocated _ (mem_sequences.mpr (.inr (.inr (.inr ⟨other, there, rfl⟩))))).2
  idle_event gpuId' eventId found := by
    rw [Dict.get_set] at found
    split at found
    next same =>
      cases found
      exact ⟨same ▸ known, event, by simp, id, by rw [gpu, same]⟩
    next =>
      obtain ⟨registered, other, there, rest⟩ := valid.idle_event gpuId' eventId found
      exact ⟨registered, other, List.mem_append_left _ there, rest⟩
  halt_gpu := valid.halt_gpu

/-- Halts matter only for the GPUs that they name. -/
theorem Valid.halts (valid : Valid s) (halt : Option (Halt F)) {halts : Dict Identifier (Option (Halt F))}
    (known : ∀ gpuId halt, halts.get gpuId = some halt → gpuId ∈ s.gpuIds.gpus) :
    Valid { s with safetyHalt := halt, gpuSafetyHalts := halts } where
  positive := valid.positive
  allocated := valid.allocated
  work_key := valid.work_key
  work_gpus := valid.work_gpus
  claim_key := valid.claim_key
  claim_work := valid.claim_work
  claim_once := valid.claim_once
  claim_id := valid.claim_id
  claimed := valid.claimed
  unclaimed := valid.unclaimed
  request_key := valid.request_key
  request_gpu := valid.request_gpu
  request_work := valid.request_work
  request_pending := valid.request_pending
  event_gpu := valid.event_gpu
  event_id := valid.event_id
  event_order := valid.event_order
  idle_event := valid.idle_event
  halt_gpu := known

theorem Valid.note (valid : Valid s) (note : Note s s') : Valid s' := by
  cases note with
  | register gpuId => exact valid.register gpuId
  | idle gpuId known reason recordedAt ownerId workId details => exact valid.idle known rfl rfl rfl
  | halt halt => exact valid.halts halt valid.halt_gpu
  | gpuHalt gpuId known halt =>
    apply valid.halts
    intro gpu other found
    rw [Dict.get_set] at found
    split at found
    next same => exact same ▸ known
    next => exact valid.halt_gpu gpu other found
  | unhalt gpuId =>
    apply valid.halts
    intro gpu other found
    rw [Dict.get_erase] at found
    split at found
    next => cases found
    next => exact valid.halt_gpu gpu other found

theorem Valid.noted (valid : Valid s) (noted : Noted s s') : Valid s' := by
  induction noted with
  | refl => exact valid
  | tail _ note ih => exact ih.note note

end Notes

section Work

/-- A number that is given out next is not in use. -/
theorem Valid.fresh (valid : Valid s) {gpuId : Identifier} {claim : Claim F} (found : s.claims.get gpuId = some claim) :
    claim.claimId ≠ claimIdentifier s.nextSequence := by
  intro same
  rw [valid.claim_id gpuId claim found] at same
  have number := idText_injective (congrArg Subtype.val same)
  have below := (valid.allocated _ (mem_sequences.mpr (.inr (.inl ⟨gpuId, claim, found, rfl⟩)))).2
  omega

theorem Valid.enqueue (valid : Valid s) {item : WorkItem F} (absent : s.work.get item.workId = none)
    (eligible : ∀ gpus ∈ item.eligibleGpus, ∀ gpu ∈ gpus.gpus, gpu ∈ s.gpuIds.gpus)
    (preferred : ∀ gpu ∈ item.preferredGpu, gpu ∈ s.gpuIds.gpus) :
    Valid { s with
      nextSequence := s.nextSequence + 1
      work := s.work.set item.workId ⟨item, .queued, s.nextSequence, 0, none, none⟩ } where
  positive := Nat.succ_pos _
  allocated := by
    have positive := valid.positive
    intro n member
    have old : n ∈ s.sequences ∨ n = s.nextSequence := by
      rw [mem_sequences] at member ⊢
      rcases member with ⟨workId, record, found, number⟩ | claim | request | event
      · simp only [Dict.get_set] at found
        split at found
        next =>
          cases found
          rcases number with rfl | ⟨release, none, -⟩
          · exact .inr rfl
          · cases none
        next => exact .inl (.inl ⟨workId, record, found, number⟩)
      · exact .inl (.inr (.inl claim))
      · exact .inl (.inr (.inr (.inl request)))
      · exact .inl (.inr (.inr (.inr event)))
    rcases old with earlier | rfl
    · obtain ⟨lower, upper⟩ := valid.allocated n earlier
      exact ⟨lower, Nat.lt_succ_of_lt upper⟩
    · exact ⟨positive, Nat.lt_succ_self _⟩
  work_key workId record found := by
    rw [Dict.get_set] at found
    split at found
    next same => cases found; exact same.symm
    next => exact valid.work_key workId record found
  work_gpus workId record found := by
    rw [Dict.get_set] at found
    split at found
    next => cases found; exact ⟨eligible, preferred⟩
    next => exact valid.work_gpus workId record found
  claim_key := valid.claim_key
  claim_work gpuId claim found := by
    obtain ⟨record, work, rest⟩ := valid.claim_work gpuId claim found
    have other : claim.workId ≠ item.workId := by
      intro same
      rw [same, absent] at work
      cases work
    exact ⟨record, by rw [Dict.get_set_ne _ _ other]; exact work, rest⟩
  claim_once := valid.claim_once
  claim_id := valid.claim_id
  claimed workId record found state := by
    rw [Dict.get_set] at found
    split at found
    next => cases found; cases state
    next => exact valid.claimed workId record found state
  unclaimed workId record found state := by
    rw [Dict.get_set] at found
    split at found
    next => cases found; rfl
    next => exact valid.unclaimed workId record found state
  request_key := valid.request_key
  request_gpu := valid.request_gpu
  request_work requestId request found := by
    have present := valid.request_work requestId request found
    simp only [Dict.get_set]
    refine ⟨?_, ?_⟩
    · split
      next => rfl
      next => exact present.1
    · split
      next => rfl
      next => exact present.2
  request_pending requestId request found pending := by
    obtain ⟨claim, active, id, workId, record, running, preemptible⟩ :=
      valid.request_pending requestId request found pending
    have other : request.runningWorkId ≠ item.workId := by
      intro same
      rw [same, absent] at running
      cases running
    exact ⟨claim, active, id, workId, record, by rw [Dict.get_set_ne _ _ other]; exact running, preemptible⟩
  event_gpu := valid.event_gpu
  event_id := valid.event_id
  event_order := valid.event_order
  idle_event := valid.idle_event
  halt_gpu := valid.halt_gpu

/-- What has to hold for a claim to be granted. -/
structure Grantable (s : State F) (gpuId : Identifier) (selected : WorkRecord F) : Prop where
  known : gpuId ∈ s.gpuIds.gpus
  free : s.claims.get gpuId = none
  found : s.work.get selected.item.workId = some selected
  queued : selected.state = .queued
  eligible : selected.item.isEligible gpuId = true

/-- Queued work is not claimed. -/
theorem Grantable.workId_ne {gpuId gpuId' : Identifier} {selected : WorkRecord F} {claim : Claim F}
    (grantable : Grantable s gpuId selected) (valid : Valid s) (active : s.claims.get gpuId' = some claim) :
    claim.workId ≠ selected.item.workId := by
  intro same
  obtain ⟨record, work, state, -⟩ := valid.claim_work gpuId' claim active
  rw [same, grantable.found] at work
  cases work
  rw [grantable.queued] at state
  cases state

theorem Valid.grant (valid : Valid s) {gpuId : Identifier} {selected : WorkRecord F}
    (grantable : Grantable s gpuId selected) (ownerId : Identifier) (claimedAt : Time F) :
    Valid (s.grant gpuId ownerId selected claimedAt).2 where
  positive := Nat.succ_pos _
  allocated := by
    have positive := valid.positive
    intro n member
    have old : n ∈ s.sequences ∨ n = s.nextSequence := by
      rw [mem_sequences] at member ⊢
      rcases member with ⟨workId, record, found, number⟩ | ⟨gpu, claim, found, rfl⟩ | request | event
      · simp only [State.grant, Dict.get_set] at found
        split at found
        next => cases found; exact .inl (.inl ⟨_, selected, grantable.found, number⟩)
        next => exact .inl (.inl ⟨workId, record, found, number⟩)
      · simp only [State.grant, Dict.get_set] at found
        split at found
        next => cases found; exact .inr rfl
        next => exact .inl (.inr (.inl ⟨gpu, claim, found, rfl⟩))
      · exact .inl (.inr (.inr (.inl request)))
      · exact .inl (.inr (.inr (.inr event)))
    rcases old with earlier | rfl
    · obtain ⟨lower, upper⟩ := valid.allocated n earlier
      exact ⟨lower, Nat.lt_succ_of_lt upper⟩
    · exact ⟨positive, Nat.lt_succ_self _⟩
  work_key workId record found := by
    simp only [State.grant, Dict.get_set] at found
    split at found
    next same => cases found; exact same.symm
    next => exact valid.work_key workId record found
  work_gpus workId record found := by
    simp only [State.grant, Dict.get_set] at found
    split at found
    next => cases found; exact valid.work_gpus _ selected grantable.found
    next => exact valid.work_gpus workId record found
  claim_key gpu claim found := by
    simp only [State.grant, Dict.get_set] at found
    split at found
    next same => cases found; exact ⟨same.symm, same ▸ grantable.known⟩
    next => exact valid.claim_key gpu claim found
  claim_work gpu claim found := by
    simp only [State.grant, Dict.get_set] at found ⊢
    split at found
    next same =>
      cases found
      rw [if_pos rfl]
      exact ⟨_, rfl, rfl, rfl, same ▸ grantable.eligible⟩
    next =>
      rw [if_neg (grantable.workId_ne valid found)]
      exact valid.claim_work gpu claim found
  claim_once gpu gpu' claim claim' found found' same := by
    simp only [State.grant, Dict.get_set] at found found'
    split at found
    next here =>
      split at found'
      next there => exact here.trans there.symm
      next =>
        cases found
        rcases same with work | id
        · exact absurd work.symm (grantable.workId_ne valid found')
        · exact absurd id.symm (valid.fresh found')
    next =>
      split at found'
      next =>
        cases found'
        rcases same with work | id
        · exact absurd work (grantable.workId_ne valid found)
        · exact absurd id (valid.fresh found)
      next => exact valid.claim_once gpu gpu' claim claim' found found' same
  claim_id gpu claim found := by
    simp only [State.grant, Dict.get_set] at found
    split at found
    next => cases found; rfl
    next => exact valid.claim_id gpu claim found
  claimed workId record found state := by
    simp only [State.grant, Dict.get_set] at found ⊢
    split at found
    next same => exact ⟨gpuId, _, if_pos rfl, same.symm⟩
    next =>
      obtain ⟨gpu, claim, active, id⟩ := valid.claimed workId record found state
      have other : gpu ≠ gpuId := by
        intro same
        rw [same, grantable.free] at active
        cases active
      exact ⟨gpu, claim, by rw [if_neg other]; exact active, id⟩
  unclaimed workId record found state := by
    simp only [State.grant, Dict.get_set] at found
    split at found
    next => cases found; exact absurd rfl state
    next => exact valid.unclaimed workId record found state
  request_key := valid.request_key
  request_gpu := valid.request_gpu
  request_work requestId request found := by
    have present := valid.request_work requestId request found
    simp only [State.grant, Dict.get_set]
    refine ⟨?_, ?_⟩
    · split
      next => rfl
      next => exact present.1
    · split
      next => rfl
      next => exact present.2
  request_pending requestId request found pending := by
    obtain ⟨claim, active, id, workId, record, running, preemptible⟩ :=
      valid.request_pending requestId request found pending
    have other : request.gpuId ≠ gpuId := by
      intro same
      rw [same, grantable.free] at active
      cases active
    have another : request.runningWorkId ≠ selected.item.workId := workId ▸ grantable.workId_ne valid active
    simp only [State.grant, Dict.get_set, if_neg other, if_neg another]
    exact ⟨claim, active, id, workId, record, running, preemptible⟩
  event_gpu := valid.event_gpu
  event_id := valid.event_id
  event_order := valid.event_order
  idle_event gpu eventId found := by
    simp only [State.grant, Dict.get_erase] at found
    split at found
    next => cases found
    next => exact valid.idle_event gpu eventId found
  halt_gpu := valid.halt_gpu

/-- What has to hold for a claim to be dropped. -/
structure Droppable (s : State F) (gpuId : Identifier) (active : Claim F) (record : WorkRecord F) : Prop where
  held : s.claims.get gpuId = some active
  found : s.work.get active.workId = some record

theorem nextState_ne_claimed (outcome : ReleaseOutcome) : outcome.nextState ≠ .claimed := by
  cases outcome <;> decide

/-- A request that is pending still was so before, and was not about the claim. -/
theorem reachBoundary_pending {claimId : Identifier} {releasedAt : Time F} {request : PreemptionRequest F}
    (pending : (State.reachBoundary claimId releasedAt request).status = .pending) :
    State.reachBoundary claimId releasedAt request = request ∧ request.status = .pending ∧
      request.claimId ≠ claimId := by
  unfold State.reachBoundary at pending ⊢
  split at pending
  next => cases pending
  next other =>
    refine ⟨if_neg other, pending, ?_⟩
    intro same
    exact other ⟨same, pending⟩

theorem reachBoundary_keeps (claimId : Identifier) (releasedAt : Time F) (request : PreemptionRequest F) :
    (State.reachBoundary claimId releasedAt request).requestId = request.requestId ∧
      (State.reachBoundary claimId releasedAt request).sequence = request.sequence ∧
      (State.reachBoundary claimId releasedAt request).gpuId = request.gpuId ∧
      (State.reachBoundary claimId releasedAt request).runningWorkId = request.runningWorkId ∧
      (State.reachBoundary claimId releasedAt request).requestedForWorkId = request.requestedForWorkId := by
  unfold State.reachBoundary
  split
  next => exact ⟨rfl, rfl, rfl, rfl, rfl⟩
  next => exact ⟨rfl, rfl, rfl, rfl, rfl⟩

theorem Valid.drop (valid : Valid s) {gpuId : Identifier} {active : Claim F} {record : WorkRecord F}
    (droppable : Droppable s gpuId active record) (request : ReleaseRequest F) (releasedAt : Time F) :
    Valid (s.drop gpuId active record request releasedAt).2 where
  positive := Nat.succ_pos _
  allocated := by
    have positive := valid.positive
    intro n member
    have old : n ∈ s.sequences ∨ n = s.nextSequence := by
      rw [mem_sequences] at member ⊢
      rcases member with ⟨workId, record', found, number⟩ | ⟨gpu, claim, found, rfl⟩ | ⟨requestId, other, found, rfl⟩ |
        event
      · simp only [State.drop, Dict.get_set] at found
        split at found
        next =>
          cases found
          rcases number with rfl | ⟨release, last, rfl⟩
          · exact .inl (.inl ⟨_, record, droppable.found, .inl rfl⟩)
          · cases last
            exact .inr rfl
        next => exact .inl (.inl ⟨workId, record', found, number⟩)
      · simp only [State.drop, Dict.get_erase] at found
        split at found
        next => cases found
        next => exact .inl (.inr (.inl ⟨gpu, claim, found, rfl⟩))
      · simp only [State.drop, Dict.get_mapValues, Option.map_eq_some_iff] at found
        obtain ⟨request', before, rfl⟩ := found
        exact .inl (.inr (.inr (.inl ⟨requestId, request', before, (reachBoundary_keeps _ _ _).2.1⟩)))
      · exact .inl (.inr (.inr (.inr event)))
    rcases old with earlier | rfl
    · obtain ⟨lower, upper⟩ := valid.allocated n earlier
      exact ⟨lower, Nat.lt_succ_of_lt upper⟩
    · exact ⟨positive, Nat.lt_succ_self _⟩
  work_key workId record' found := by
    simp only [State.drop, Dict.get_set] at found
    split at found
    next same =>
      cases found
      rw [same]
      exact valid.work_key _ record droppable.found
    next => exact valid.work_key workId record' found
  work_gpus workId record' found := by
    simp only [State.drop, Dict.get_set] at found
    split at found
    next => cases found; exact valid.work_gpus _ record droppable.found
    next => exact valid.work_gpus workId record' found
  claim_key gpu claim found := by
    simp only [State.drop, Dict.get_erase] at found
    split at found
    next => cases found
    next => exact valid.claim_key gpu claim found
  claim_work gpu claim found := by
    simp only [State.drop, Dict.get_erase, Dict.get_set] at found ⊢
    split at found
    next => cases found
    next other =>
      have another : claim.workId ≠ active.workId := fun same =>
        other (valid.claim_once gpu gpuId claim active found droppable.held (.inl same))
      rw [if_neg another]
      exact valid.claim_work gpu claim found
  claim_once gpu gpu' claim claim' found found' := by
    simp only [State.drop, Dict.get_erase] at found found'
    split at found
    next => cases found
    next =>
      split at found'
      next => cases found'
      next => exact valid.claim_once gpu gpu' claim claim' found found'
  claim_id gpu claim found := by
    simp only [State.drop, Dict.get_erase] at found
    split at found
    next => cases found
    next => exact valid.claim_id gpu claim found
  claimed workId record' found state := by
    simp only [State.drop, Dict.get_erase, Dict.get_set] at found ⊢
    split at found
    next => cases found; exact absurd state (nextState_ne_claimed _)
    next different =>
      obtain ⟨gpu, claim, held, id⟩ := valid.claimed workId record' found state
      have other : gpu ≠ gpuId := by
        intro same
        rw [same, droppable.held] at held
        cases held
        exact different id.symm
      exact ⟨gpu, claim, by rw [if_neg other]; exact held, id⟩
  unclaimed workId record' found state := by
    simp only [State.drop, Dict.get_set] at found
    split at found
    next => cases found; rfl
    next => exact valid.unclaimed workId record' found state
  request_key requestId request' found := by
    simp only [State.drop, Dict.get_mapValues, Option.map_eq_some_iff] at found
    obtain ⟨old, before, rfl⟩ := found
    rw [(reachBoundary_keeps _ _ _).1, (reachBoundary_keeps _ _ _).2.1]
    exact valid.request_key requestId old before
  request_gpu requestId request' found := by
    simp only [State.drop, Dict.get_mapValues, Option.map_eq_some_iff] at found
    obtain ⟨old, before, rfl⟩ := found
    rw [(reachBoundary_keeps _ _ _).2.2.1]
    exact valid.request_gpu requestId old before
  request_work requestId request' found := by
    simp only [State.drop, Dict.get_mapValues, Option.map_eq_some_iff, Dict.get_set] at found ⊢
    obtain ⟨old, before, rfl⟩ := found
    have present := valid.request_work requestId old before
    rw [(reachBoundary_keeps _ _ _).2.2.2.1, (reachBoundary_keeps _ _ _).2.2.2.2]
    refine ⟨?_, ?_⟩
    · split
      next => rfl
      next => exact present.1
    · split
      next => rfl
      next => exact present.2
  request_pending requestId request' found pending := by
    simp only [State.drop, Dict.get_mapValues, Option.map_eq_some_iff] at found
    obtain ⟨old, before, rfl⟩ := found
    obtain ⟨same, waiting, different⟩ := reachBoundary_pending pending
    rw [same]
    obtain ⟨claim, held, id, workId, record', running, preemptible⟩ :=
      valid.request_pending requestId old before waiting
    have other : old.gpuId ≠ gpuId := by
      intro here
      rw [here, droppable.held] at held
      cases held
      exact different id.symm
    have another : old.runningWorkId ≠ active.workId := by
      intro here
      exact other (valid.claim_once _ _ claim active held droppable.held (.inl (workId.trans here)))
    simp only [State.drop, Dict.get_erase, Dict.get_set, if_neg other, if_neg another]
    exact ⟨claim, held, id, workId, record', running, preemptible⟩
  event_gpu := valid.event_gpu
  event_id := valid.event_id
  event_order := valid.event_order
  idle_event := valid.idle_event
  halt_gpu := valid.halt_gpu

theorem Valid.request (valid : Valid s) {request : PreemptionRequest F} {claim : Claim F}
    {running requestedFor : WorkRecord F} (id : request.requestId = preemptionIdentifier s.nextSequence)
    (sequence : request.sequence = s.nextSequence) (held : s.claims.get request.gpuId = some claim)
    (claimId : claim.claimId = request.claimId) (workId : claim.workId = request.runningWorkId)
    (found : s.work.get request.runningWorkId = some running) (preemptible : running.item.preemptible = true)
    (wanted : s.work.get request.requestedForWorkId = some requestedFor) :
    Valid { s with
      nextSequence := s.nextSequence + 1
      preemptionRequests := s.preemptionRequests.set request.requestId request } where
  positive := Nat.succ_pos _
  allocated := by
    have positive := valid.positive
    intro n member
    have old : n ∈ s.sequences ∨ n = s.nextSequence := by
      rw [mem_sequences] at member ⊢
      rcases member with work | claim | ⟨requestId, other, found, rfl⟩ | event
      · exact .inl (.inl work)
      · exact .inl (.inr (.inl claim))
      · simp only [Dict.get_set] at found
        split at found
        next => cases found; exact .inr sequence
        next => exact .inl (.inr (.inr (.inl ⟨requestId, other, found, rfl⟩)))
      · exact .inl (.inr (.inr (.inr event)))
    rcases old with earlier | rfl
    · obtain ⟨lower, upper⟩ := valid.allocated n earlier
      exact ⟨lower, Nat.lt_succ_of_lt upper⟩
    · exact ⟨positive, Nat.lt_succ_self _⟩
  work_key := valid.work_key
  work_gpus := valid.work_gpus
  claim_key := valid.claim_key
  claim_work := valid.claim_work
  claim_once := valid.claim_once
  claim_id := valid.claim_id
  claimed := valid.claimed
  unclaimed := valid.unclaimed
  request_key requestId other found := by
    rw [Dict.get_set] at found
    split at found
    next same => cases found; exact ⟨same.symm, by rw [same, id, sequence]⟩
    next => exact valid.request_key requestId other found
  request_gpu requestId other found := by
    rw [Dict.get_set] at found
    split at found
    next => cases found; exact (valid.claim_key _ _ held).2
    next => exact valid.request_gpu requestId other found
  request_work requestId other found' := by
    rw [Dict.get_set] at found'
    split at found'
    next => cases found'; exact ⟨by simp [found], by simp [wanted]⟩
    next => exact valid.request_work requestId other found'
  request_pending requestId other found' pending := by
    rw [Dict.get_set] at found'
    split at found'
    next => cases found'; exact ⟨claim, held, claimId, workId, running, found, preemptible⟩
    next => exact valid.request_pending requestId other found' pending
  event_gpu := valid.event_gpu
  event_id := valid.event_id
  event_order := valid.event_order
  idle_event := valid.idle_event
  halt_gpu := valid.halt_gpu

end Work

section Operations

/-- What a call can make of a state. -/
inductive Move (s : State F) : State F → Prop where
  | noted {s' : State F} (notes : Noted s s') : Move s s'
  | enqueued {s₁ : State F} (notes : Noted s s₁) (item : WorkItem F) (absent : s₁.work.get item.workId = none)
      (eligible : ∀ gpus ∈ item.eligibleGpus, ∀ gpu ∈ gpus.gpus, gpu ∈ s₁.gpuIds.gpus)
      (preferred : ∀ gpu ∈ item.preferredGpu, gpu ∈ s₁.gpuIds.gpus) :
      Move s { s₁ with
        nextSequence := s₁.nextSequence + 1
        work := s₁.work.set item.workId ⟨item, .queued, s₁.nextSequence, 0, none, none⟩ }
  | granted {s₁ : State F} (notes : Noted s s₁) {gpuId : Identifier} {selected : WorkRecord F}
      (grantable : Grantable s₁ gpuId selected) (ownerId : Identifier) (claimedAt : Time F) :
      Move s (s₁.grant gpuId ownerId selected claimedAt).2
  | released {gpuId : Identifier} {active : Claim F} {record : WorkRecord F}
      (droppable : Droppable s gpuId active record) (request : ReleaseRequest F) (releasedAt : Time F) {s' : State F}
      (notes : Noted (s.drop gpuId active record request releasedAt).2 s') : Move s s'
  | requested {request : PreemptionRequest F} {claim : Claim F} {running requestedFor : WorkRecord F}
      (id : request.requestId = preemptionIdentifier s.nextSequence) (sequence : request.sequence = s.nextSequence)
      (held : s.claims.get request.gpuId = some claim) (claimId : claim.claimId = request.claimId)
      (workId : claim.workId = request.runningWorkId) (found : s.work.get request.runningWorkId = some running)
      (preemptible : running.item.preemptible = true)
      (wanted : s.work.get request.requestedForWorkId = some requestedFor) :
      Move s { s with
        nextSequence := s.nextSequence + 1
        preemptionRequests := s.preemptionRequests.set request.requestId request }

theorem Valid.move (valid : Valid s) (move : Move s s') : Valid s' := by
  cases move with
  | noted notes => exact valid.noted notes
  | enqueued notes item absent eligible preferred => exact (valid.noted notes).enqueue absent eligible preferred
  | granted notes grantable ownerId claimedAt => exact (valid.noted notes).grant grantable ownerId claimedAt
  | released droppable request releasedAt notes => exact (valid.drop droppable request releasedAt).noted notes
  | requested id sequence held claimId workId found preemptible wanted =>
    exact valid.request id sequence held claimId workId found preemptible wanted

theorem validateOrRegisterGpu_eq_ok {gpuId : Identifier} {isNew : Bool}
    (passed : s.validateOrRegisterGpu gpuId = .ok (isNew, s')) : Noted s s' ∧ gpuId ∈ s'.gpuIds.gpus := by
  unfold State.validateOrRegisterGpu at passed
  split at passed
  next known => cases passed; exact ⟨.refl, known⟩
  next =>
    split at passed
    next => cases passed; exact ⟨.single (.register gpuId), GpuSet.mem_add.mpr (.inl rfl)⟩
    next => cases passed

theorem validateKnownGpu_eq_ok {name : String} {gpuId : Identifier} (passed : s.validateKnownGpu name = .ok gpuId) :
    gpuId ∈ s.gpuIds.gpus ∧ gpuId.1 = name := by
  unfold State.validateKnownGpu at passed
  split at passed
  next gpu found =>
    cases passed
    exact ⟨List.mem_of_find?_eq_some found, by simpa using List.find?_some found⟩
  next => cases passed

/-- Registering GPUs one by one keeps those that are there and adds the others. -/
theorem validateOrRegisterItemGpus_eq_ok {item : WorkItem F} (passed : s.validateOrRegisterItemGpus item = .ok s') :
    Noted s s' ∧ ∀ gpu ∈ State.namedGpus item, gpu ∈ s'.gpuIds.gpus := by
  unfold State.validateOrRegisterItemGpus at passed
  generalize State.namedGpus item = gpus at passed ⊢
  induction gpus generalizing s with
  | nil => cases passed; exact ⟨.refl, by simp⟩
  | cons gpu gpus ih =>
    rw [List.foldlM_cons] at passed
    obtain ⟨s₁, first, rest⟩ := bind_eq_ok.mp passed
    obtain ⟨⟨isNew, s₂⟩, registered, result⟩ := bind_eq_ok.mp first
    cases result
    obtain ⟨notes, known⟩ := validateOrRegisterGpu_eq_ok registered
    obtain ⟨later, others⟩ := ih rest
    refine ⟨Relation.ReflTransGen.trans notes later, ?_⟩
    intro other member
    rcases List.mem_cons.mp member with rfl | there
    · exact later.framed.gpus _ known
    · exact others other there

theorem mem_namedGpus {item : WorkItem F} {gpu : Identifier} : gpu ∈ State.namedGpus item ↔
    (∃ gpus ∈ item.eligibleGpus, gpu ∈ gpus.gpus) ∨ gpu ∈ item.preferredGpu := by
  rw [State.namedGpus, (List.perm_insertionSort _ _).mem_iff, List.mem_dedup, List.mem_append, Option.mem_toList]
  cases item.eligibleGpus <;> simp

theorem appendIdle_eq_ok {gpuId : Identifier} {reason : IdleReason} {ownerId workId : Option Identifier}
    {details : Payload F} {reading : F} {event : IdleEvent F} {changed : Bool} (known : gpuId ∈ s.gpuIds.gpus)
    (passed : s.appendIdle gpuId reason ownerId workId details reading = .ok (event, changed, s')) : Noted s s' := by
  obtain ⟨recordedAt, -, result⟩ := bind_eq_ok.mp passed
  cases result
  exact .single (.idle gpuId known reason recordedAt ownerId workId details)

theorem recordIdle_eq_ok {gpuId : Identifier} {reason : IdleReason} {ownerId workId : Option Identifier}
    {details : Json F} {reading : F} {event : IdleEvent F} {changed : Bool} (known : gpuId ∈ s.gpuIds.gpus)
    (passed : s.recordIdle gpuId reason ownerId workId details reading = .ok (event, changed, s')) : Noted s s' := by
  obtain ⟨payload, -, passed⟩ := bind_eq_ok.mp passed
  obtain ⟨actor, -, passed⟩ := bind_eq_ok.mp passed
  obtain ⟨current, -, passed⟩ := bind_eq_ok.mp passed
  cases current with
  | none => exact appendIdle_eq_ok known passed
  | some current =>
    dsimp only at passed
    split at passed
    next => cases passed; exact .refl
    next => exact appendIdle_eq_ok known passed

theorem ifChanged_eq_some {changed : Bool} (kept : State.ifChanged changed s = some s') : s' = s := by
  unfold State.ifChanged at kept
  split at kept
  next => cases kept; rfl
  next => cases kept

theorem enqueue_move {item : WorkItem F} {answer : Answer F} (passed : s.enqueue item = .ok (answer, some s')) :
    Move s s' := by
  unfold State.enqueue at passed
  split at passed
  next =>
    obtain ⟨_, -, result⟩ := bind_eq_ok.mp passed
    cases result
  next absent =>
    obtain ⟨s₁, registered, result⟩ := bind_eq_ok.mp passed
    cases result
    obtain ⟨notes, named⟩ := validateOrRegisterItemGpus_eq_ok registered
    refine .enqueued notes item (by rw [notes.framed.work]; exact absent) ?_ ?_
    · intro gpus member gpu here
      exact named gpu (mem_namedGpus.mpr (.inl ⟨gpus, member, here⟩))
    · intro gpu member
      exact named gpu (mem_namedGpus.mpr (.inr member))

/-- Work that is found among the records. -/
theorem Valid.get_of_mem (valid : Valid s) {record : WorkRecord F} (member : record ∈ s.work.values) :
    s.work.get record.item.workId = some record := by
  obtain ⟨workId, found⟩ := Dict.mem_values_iff.mp member
  rw [valid.work_key workId record found]
  exact found

theorem claimFree_move {s₀ : State F} {isNew : Bool} {gpuId ownerId : Identifier} {clock : Nat → F} {answer : Answer F}
    (notes : Noted s₀ s) (valid : Valid s) (known : gpuId ∈ s.gpuIds.gpus) (free : s.claims.get gpuId = none)
    (passed : s.claimFree isNew gpuId ownerId clock = .ok (answer, some s')) : Move s₀ s' := by
  unfold State.claimFree at passed
  split at passed
  next reason =>
    obtain ⟨⟨event, changed, s₁⟩, recorded, result⟩ := bind_eq_ok.mp passed
    obtain ⟨-, kept⟩ := Prod.ext_iff.mp (Except.ok.inj result)
    rw [ifChanged_eq_some kept]
    exact .noted (Relation.ReflTransGen.trans notes (recordIdle_eq_ok known recorded))
  next =>
    split at passed
    next =>
      obtain ⟨⟨event, changed, s₁⟩, recorded, result⟩ := bind_eq_ok.mp passed
      obtain ⟨-, kept⟩ := Prod.ext_iff.mp (Except.ok.inj result)
      rw [ifChanged_eq_some kept]
      exact .noted (Relation.ReflTransGen.trans notes (recordIdle_eq_ok known recorded))
    next selected first =>
      obtain ⟨claimedAt, -, result⟩ := bind_eq_ok.mp passed
      cases result
      obtain ⟨member, runnable⟩ := List.mem_filter.mp (least_mem first)
      have conditions : selected.state = .queued ∧ selected.item.isEligible gpuId = true := by
        simpa [State.isRunnable] using runnable
      exact .granted notes ⟨known, free, valid.get_of_mem member, conditions.1, conditions.2⟩ ownerId claimedAt

theorem claim_move {gpuId ownerId : Identifier} {clock : Nat → F} {answer : Answer F} (valid : Valid s)
    (passed : s.claim gpuId ownerId clock = .ok (answer, some s')) : Move s s' := by
  obtain ⟨⟨isNew, s₁⟩, registered, passed⟩ := bind_eq_ok.mp passed
  obtain ⟨notes, known⟩ := validateOrRegisterGpu_eq_ok registered
  dsimp only at passed
  split at passed
  next =>
    obtain ⟨_, -, result⟩ := bind_eq_ok.mp passed
    cases result
  next free => exact claimFree_move notes (valid.noted notes) known free passed

theorem releaseActive_eq_ok {gpuId : Identifier} {active : Claim F} {request : ReleaseRequest F} {clock : Nat → F}
    {answer : Answer F} {kept : Option (State F)} (known : gpuId ∈ s.gpuIds.gpus)
    (held : s.claims.get gpuId = some active)
    (passed : s.releaseActive gpuId active request clock = .ok (answer, kept)) :
    ∃ record releasedAt s', kept = some s' ∧ Droppable s gpuId active record ∧ active.ownerId = request.ownerId ∧
      (∀ workId ∈ request.workId, active.workId = workId) ∧
      (∀ claimId ∈ request.expectedClaimId, active.claimId.1 = claimId) ∧
      answer = .release (s.drop gpuId active record request releasedAt).1 ∧
      Noted (s.drop gpuId active record request releasedAt).2 s' := by
  simp only [State.releaseActive, bind_eq_ok, require_eq_ok, exists_const] at passed
  obtain ⟨owner, work, claim, passed⟩ := passed
  split at passed
  next => cases passed
  next record found =>
    obtain ⟨releasedAt, -, passed⟩ := bind_eq_ok.mp passed
    refine ⟨record, releasedAt, ?_⟩
    split at passed
    next =>
      cases passed
      exact ⟨_, rfl, ⟨held, found⟩, owner, work, claim, rfl, .refl⟩
    next reason details =>
      obtain ⟨⟨event, changed, s₁⟩, recorded, result⟩ := bind_eq_ok.mp passed
      cases result
      exact ⟨s₁, rfl, ⟨held, found⟩, owner, work, claim, rfl, recordIdle_eq_ok known recorded⟩

theorem release_move {request : ReleaseRequest F} {clock : Nat → F} {answer : Answer F}
    (passed : s.release request clock = .ok (answer, some s')) : Move s s' := by
  obtain ⟨gpuId, named, passed⟩ := bind_eq_ok.mp passed
  split at passed
  next active held =>
    obtain ⟨record, releasedAt, s₁, kept, droppable, -, -, -, -, notes⟩ :=
      releaseActive_eq_ok (validateKnownGpu_eq_ok named).1 held passed
    cases kept
    exact .released droppable request releasedAt notes
  next =>
    split at passed
    next => cases passed
    next => cases passed

theorem requestedWork_eq_ok {gpuId : Identifier} {running requestedFor : WorkRecord F} {forWorkId : Option Identifier}
    (valid : Valid s) (passed : s.requestedWork gpuId running forWorkId = .ok (some requestedFor)) :
    s.work.get requestedFor.item.workId = some requestedFor := by
  unfold State.requestedWork at passed
  split at passed
  next =>
    have first := Except.ok.inj passed
    exact valid.get_of_mem (List.mem_filter.mp (least_mem first)).1
  next =>
    split at passed
    next => cases passed
    next workId record found =>
      have same := Except.ok.inj passed
      split at same
      next =>
        cases same
        rw [valid.work_key _ _ found]
        exact found
      next => cases same

theorem requestPreemption_move {name requestedBy reason : Identifier} {forWorkId : Option Identifier}
    {clock : Nat → F} {answer : Answer F} (valid : Valid s)
    (passed : s.requestPreemption name requestedBy forWorkId reason clock = .ok (answer, some s')) : Move s s' := by
  obtain ⟨gpuId, -, passed⟩ := bind_eq_ok.mp passed
  split at passed
  next => cases passed
  next claim held =>
    split at passed
    next => cases passed
    next running found =>
      split at passed
      next preemptible =>
        obtain ⟨wanted, requested, passed⟩ := bind_eq_ok.mp passed
        split at passed
        next => cases passed
        next requestedFor =>
          split at passed
          next => cases passed
          next =>
            obtain ⟨requestedAt, -, result⟩ := bind_eq_ok.mp passed
            cases result
            have key := valid.work_key _ _ found
            exact .requested rfl rfl held rfl key.symm (by rw [key]; exact found) preemptible
              (requestedWork_eq_ok valid requested)
      next => cases passed

theorem recordIdleCall_move {gpuId : Identifier} {reason : IdleReason} {ownerId workId : Option Identifier}
    {details : Payload F} {clock : Nat → F} {answer : Answer F}
    (passed : s.recordIdleCall gpuId reason ownerId workId details clock = .ok (answer, some s')) : Move s s' := by
  obtain ⟨⟨isNew, s₁⟩, registered, passed⟩ := bind_eq_ok.mp passed
  obtain ⟨⟨event, changed, s₂⟩, recorded, result⟩ := bind_eq_ok.mp passed
  obtain ⟨notes, known⟩ := validateOrRegisterGpu_eq_ok registered
  obtain ⟨-, kept⟩ := Prod.ext_iff.mp (Except.ok.inj result)
  rw [ifChanged_eq_some kept]
  exact .noted (Relation.ReflTransGen.trans notes (recordIdle_eq_ok known recorded))

theorem placeHalt_eq_ok {reason : Identifier} {gpuId : Option Identifier} {reading : F} {changed : Bool}
    (passed : s.placeHalt reason gpuId reading = .ok (changed, s')) :
    Noted s s' ∧ ∀ gpu ∈ gpuId, gpu ∈ s'.gpuIds.gpus := by
  unfold State.placeHalt at passed
  split at passed
  next =>
    obtain ⟨setAt, -, passed⟩ := bind_eq_ok.mp passed
    split at passed
    next => cases passed; exact ⟨.refl, by simp⟩
    next => cases passed; exact ⟨.single (.halt _), by simp⟩
  next gpuId =>
    obtain ⟨⟨isNew, s₁⟩, registered, passed⟩ := bind_eq_ok.mp passed
    obtain ⟨notes, known⟩ := validateOrRegisterGpu_eq_ok registered
    dsimp only at passed
    split at passed
    next => cases passed; exact ⟨notes, by simpa using known⟩
    next =>
      obtain ⟨setAt, -, result⟩ := bind_eq_ok.mp passed
      cases result
      exact ⟨Relation.ReflTransGen.tail notes (.gpuHalt gpuId known _), by simpa using known⟩

theorem idleTargets_eq_ok {reason : Identifier} {clock : Nat → F} {targets : List (Identifier × Nat)} {changed : Bool}
    {placed : Bool × State F} (known : ∀ target ∈ targets, target.1 ∈ placed.2.gpuIds.gpus)
    (passed : targets.foldlM (State.idleTargets reason clock) placed = .ok (changed, s')) : Noted placed.2 s' := by
  induction targets generalizing placed with
  | nil => cases passed; exact .refl
  | cons target targets ih =>
    rw [List.foldlM_cons] at passed
    obtain ⟨step, first, rest⟩ := bind_eq_ok.mp passed
    have notes : Noted placed.2 step.2 := by
      unfold State.idleTargets at first
      split at first
      next => cases first; exact .refl
      next =>
        obtain ⟨⟨event, changed, s₁⟩, recorded, result⟩ := bind_eq_ok.mp first
        cases result
        exact recordIdle_eq_ok (known target List.mem_cons_self) recorded
    refine Relation.ReflTransGen.trans notes (ih ?_ rest)
    intro other member
    exact notes.framed.gpus _ (known other (List.mem_cons_of_mem target member))

theorem setSafetyHalt_move {reason : Identifier} {gpuId : Option Identifier} {clock : Nat → F} {answer : Answer F}
    (passed : s.setSafetyHalt reason gpuId clock = .ok (answer, some s')) : Move s s' := by
  obtain ⟨placed, halted, passed⟩ := bind_eq_ok.mp passed
  obtain ⟨⟨changed, s₁⟩, idled, result⟩ := bind_eq_ok.mp passed
  obtain ⟨notes, known⟩ := placeHalt_eq_ok halted
  obtain ⟨-, kept⟩ := Prod.ext_iff.mp (Except.ok.inj result)
  rw [ifChanged_eq_some kept]
  refine .noted (Relation.ReflTransGen.trans notes (idleTargets_eq_ok ?_ idled))
  intro target member
  have there : target.1 ∈ (gpuId.map fun gpu => [gpu]).getD placed.2.gpuIds.gpus := List.fst_mem_of_mem_zipIdx member
  cases gpuId with
  | none => exact there
  | some gpu =>
    have same : target.1 = gpu := List.mem_singleton.mp there
    exact known _ (congrArg some same.symm)

theorem clearSafetyHalt_move {gpuId : Option Identifier} {answer : Answer F}
    (passed : s.clearSafetyHalt gpuId = .ok (answer, some s')) : Move s s' := by
  unfold State.clearSafetyHalt at passed
  split at passed
  next =>
    obtain ⟨-, kept⟩ := Prod.ext_iff.mp (Except.ok.inj passed)
    rw [ifChanged_eq_some kept]
    exact .noted (.single (.halt none))
  next name =>
    obtain ⟨gpuId, -, result⟩ := bind_eq_ok.mp passed
    obtain ⟨-, kept⟩ := Prod.ext_iff.mp (Except.ok.inj result)
    rw [ifChanged_eq_some kept]
    exact .noted (.single (.unhalt gpuId))

/-- Every call makes one of the changes of the state that it commits. -/
theorem apply_move {request : Request F} {clock : Nat → F} {answer : Answer F} (valid : Valid s)
    (passed : request.apply clock s = .ok (answer, some s')) : Move s s' := by
  cases request with
  | enqueue desired => exact enqueue_move passed
  | claim gpuId ownerId => exact claim_move valid passed
  | release request => exact release_move passed
  | requestPreemption gpuId requestedBy forWorkId reason => exact requestPreemption_move valid passed
  | recordIdle gpuId reason ownerId workId details => exact recordIdleCall_move passed
  | setSafetyHalt reason gpuId => exact setSafetyHalt_move passed
  | clearSafetyHalt gpuId => exact clearSafetyHalt_move passed

end Operations

end KataGo.Scheduler
