import KataGo.Scheduler.Limits

/-! Calls that are made again: a repeated enqueue or release changes nothing, however long ago the
first one was and whatever was done in between. -/

namespace KataGo.Scheduler
open KataGo.Lib

variable {F : Type} [Numbers F] {s s' : State F} {file : StateFile}

section Releases

/-- The claim was granted once and is no longer active. -/
def Spent (claimId : Identifier) (s : State F) : Prop :=
  (∃ n < s.nextSequence, claimId = claimIdentifier n) ∧
    ∀ gpuId claim, s.claims.get gpuId = some claim → claim.claimId ≠ claimId

theorem Spent.keep {claimId : Identifier} (spent : Spent claimId s) (next : s.nextSequence ≤ s'.nextSequence)
    (claims : ∀ gpuId claim, s'.claims.get gpuId = some claim → s.claims.get gpuId = some claim) : Spent claimId s' := by
  obtain ⟨⟨n, below, named⟩, inactive⟩ := spent
  exact ⟨⟨n, lt_of_lt_of_le below next, named⟩, fun gpuId claim found => inactive gpuId claim (claims gpuId claim found)⟩

theorem Spent.framed {claimId : Identifier} (spent : Spent claimId s) (framed : Framed s s') : Spent claimId s' :=
  spent.keep framed.next fun gpuId claim found => by rwa [framed.claims] at found

/-- A claim that is over does not become active again. -/
theorem Spent.move {claimId : Identifier} (spent : Spent claimId s) (move : Move s s') : Spent claimId s' := by
  cases move with
  | noted notes => exact spent.framed notes.framed
  | @enqueued s₁ notes item absent eligible preferred =>
    exact (spent.framed notes.framed).keep (Nat.le_succ _) fun gpuId claim found => found
  | @granted s₁ notes gpuId selected grantable ownerId claimedAt =>
    obtain ⟨⟨n, below, named⟩, inactive⟩ := spent.framed notes.framed
    refine ⟨⟨n, Nat.lt_succ_of_lt below, named⟩, ?_⟩
    intro gpu claim found
    simp only [State.grant, Dict.get_set] at found
    split at found
    next =>
      cases found
      intro same
      have number : s₁.nextSequence = n := idText_injective (congrArg Subtype.val (same.trans named))
      omega
    next => exact inactive gpu claim found
  | @released gpuId active record droppable request releasedAt _ notes =>
    refine Spent.framed (spent.keep (Nat.le_succ _) ?_) notes.framed
    intro gpu claim found
    simp only [State.drop, Dict.get_erase] at found
    split at found
    next => cases found
    next => exact found
  | requested id sequence held claimId workId found preemptible wanted =>
    exact spent.keep (Nat.le_succ _) fun gpuId claim found => found

/-- The last release of work after a step: the one from before, or that of a claim which was active. -/
theorem Move.lastRelease (move : Move s s') (valid : Valid s) {workId : Identifier} {record' : WorkRecord F}
    {release : ReleaseRecord F} (found' : s'.work.get workId = some record') (last : record'.lastRelease = some release) :
    (∃ record, s.work.get workId = some record ∧ record.lastRelease = some release) ∨
      ∃ gpuId active, s.claims.get gpuId = some active ∧ active.workId = workId ∧ release.claimId = active.claimId ∧
        Spent active.claimId s' := by
  cases move with
  | noted notes =>
    rw [notes.framed.work] at found'
    exact .inl ⟨record', found', last⟩
  | enqueued notes item absent eligible preferred =>
    rw [Dict.get_set, notes.framed.work] at found'
    split at found'
    next => cases found'; cases last
    next => exact .inl ⟨record', found', last⟩
  | @granted s₁ notes gpuId selected grantable ownerId claimedAt =>
    simp only [State.grant, Dict.get_set] at found'
    split at found'
    next same =>
      cases found'
      have found := grantable.found
      rw [notes.framed.work, ← same] at found
      exact .inl ⟨selected, found, last⟩
    next =>
      rw [notes.framed.work] at found'
      exact .inl ⟨record', found', last⟩
  | @released gpuId active record droppable request releasedAt _ notes =>
    rw [notes.framed.work] at found'
    simp only [State.drop, Dict.get_set] at found'
    split at found'
    next same =>
      cases found'
      cases last
      refine .inr ⟨gpuId, active, droppable.held, same.symm, rfl, Spent.framed ⟨⟨active.sequence, ?_, ?_⟩, ?_⟩ notes.framed⟩
      · have sequence : active.sequence ∈ s.sequences :=
          mem_sequences.mpr (.inr (.inl ⟨gpuId, active, droppable.held, rfl⟩))
        exact Nat.lt_succ_of_lt (valid.allocated _ sequence).2
      · exact valid.claim_id gpuId active droppable.held
      · intro gpu claim found same
        simp only [State.drop, Dict.get_erase] at found
        split at found
        next => cases found
        next different => exact different (valid.claim_once _ _ _ _ found droppable.held (.inr same))
    next => exact .inl ⟨record', found', last⟩
  | requested id sequence held claimId workId found preemptible wanted => exact .inl ⟨record', found', last⟩

/-- What the last releases of a state are about: claims that are over, each of them once. -/
structure Retired (s : State F) : Prop where
  spent : ∀ workId record release, s.work.get workId = some record → record.lastRelease = some release →
    Spent release.claimId s
  once : ∀ workId workId' record record' release release', s.work.get workId = some record →
    s.work.get workId' = some record' → record.lastRelease = some release → record'.lastRelease = some release' →
    release.claimId = release'.claimId → workId = workId'

theorem Retired.move (retired : Retired s) (valid : Valid s) (move : Move s s') : Retired s' where
  spent workId record' release found' last := by
    rcases move.lastRelease valid found' last with ⟨record, found, old⟩ | ⟨gpuId, active, held, -, same, spent⟩
    · exact (retired.spent workId record release found old).move move
    · rw [same]
      exact spent
  once workId₁ workId₂ record₁ record₂ release₁ release₂ found₁ found₂ last₁ last₂ same := by
    rcases move.lastRelease valid found₁ last₁ with ⟨old₁, before₁, kept₁⟩ | ⟨gpuId₁, active₁, held₁, work₁, claim₁, -⟩
    · rcases move.lastRelease valid found₂ last₂ with ⟨old₂, before₂, kept₂⟩ | ⟨gpuId₂, active₂, held₂, -, claim₂, -⟩
      · exact retired.once _ _ _ _ _ _ before₁ before₂ kept₁ kept₂ same
      · exact absurd (same.trans claim₂).symm ((retired.spent _ _ _ before₁ kept₁).2 gpuId₂ active₂ held₂)
    · rcases move.lastRelease valid found₂ last₂ with ⟨old₂, before₂, kept₂⟩ | ⟨gpuId₂, active₂, held₂, work₂, claim₂, -⟩
      · exact absurd (claim₁.symm.trans same) ((retired.spent _ _ _ before₂ kept₂).2 gpuId₁ active₁ held₁)
      · have gpus := valid.claim_once _ _ _ _ held₁ held₂ (.inr (claim₁.symm.trans (same.trans claim₂)))
        subst gpus
        cases held₁.symm.trans held₂
        exact work₁.symm.trans work₂

/-- The release is the only one that a state has of its claim. -/
def Settled (release : ReleaseRecord F) (s : State F) : Prop :=
  Spent release.claimId s ∧ ∀ workId record other, s.work.get workId = some record → record.lastRelease = some other →
    other.claimId = release.claimId → other = release

theorem Settled.move {release : ReleaseRecord F} (settled : Settled release s) (valid : Valid s) (move : Move s s') :
    Settled release s' := by
  refine ⟨settled.1.move move, ?_⟩
  intro workId record' other found' last same
  rcases move.lastRelease valid found' last with ⟨record, found, old⟩ | ⟨gpuId, active, held, -, claim, -⟩
  · exact settled.2 workId record other found old same
  · exact absurd (claim.symm.trans same) (settled.1.2 gpuId active held)

theorem Retired.settled (retired : Retired s) {workId : Identifier} {record : WorkRecord F} {release : ReleaseRecord F}
    (found : s.work.get workId = some record) (last : record.lastRelease = some release) : Settled release s := by
  refine ⟨retired.spent workId record release found last, ?_⟩
  intro workId' record' other found' last' same
  have key := retired.once _ _ _ _ _ _ found' found last' last same
  subst key
  cases found.symm.trans found'
  exact Option.some.inj (last'.symm.trans last)

theorem Spent.sorted {claimId : Identifier} (spent : Spent claimId s) : Spent claimId (committed s).sort :=
  ⟨spent.1, by simpa only [State.sort, committed, Dict.get_sort] using spent.2⟩

theorem Settled.sorted {release : ReleaseRecord F} (settled : Settled release s) : Settled release (committed s).sort :=
  ⟨settled.1.sorted, by simpa only [State.sort, committed, Dict.get_sort] using settled.2⟩

theorem Retired.sorted (retired : Retired s) : Retired (committed s).sort where
  spent workId record release found last := by
    simp only [State.sort, committed, Dict.get_sort] at found
    exact (retired.spent workId record release found last).sorted
  once := by simpa only [State.sort, committed, Dict.get_sort] using retired.once

end Releases

section Repeats

variable {attempt : Attempt F} {answer : Answer F}

/-- A call that returns has decided what to answer, and has written the state that goes with it. -/
theorem run_eq_ok (holds : Holds file s) (returned : (attempt.run file).1 = .ok answer) :
    ∃ request kept, attempt.call.check = .ok request ∧ request.apply attempt.clock s = .ok (answer, kept) ∧
      (kept = none ∧ (attempt.run file).2 = file ∨
        ∃ s₁, kept = some s₁ ∧ Holds (attempt.run file).2 (committed s₁).sort) := by
  cases decided : attempt.decide file with
  | error e => rw [Attempt.run, decided] at returned; cases returned
  | ok outcome =>
    obtain ⟨answer', kept⟩ := outcome
    obtain ⟨request, checked, decision⟩ := bind_eq_ok.mp decided
    obtain ⟨loaded, load, applied⟩ := bind_eq_ok.mp decision
    cases (stored_of_load load).symm.trans holds.1
    cases kept with
    | none =>
      simp only [Attempt.run, decided] at returned ⊢
      cases returned
      exact ⟨request, none, checked, applied, .inl ⟨rfl, trivial⟩⟩
    | some s₁ =>
      have valid := holds.2.move (apply_move holds.2 applied)
      simp only [Attempt.run, decided] at returned ⊢
      rcases commit_cases valid attempt.disk file with ⟨e, failed⟩ | ⟨writable, result, written, -⟩
      · simp only [failed] at returned
        cases returned
      · simp only [written] at returned ⊢
        cases result with
        | error e => cases returned
        | ok _ =>
          cases returned
          have revised := valid.revise (s₁.revision + 1)
          exact ⟨request, some s₁, checked, applied, .inr ⟨s₁, rfl, readState_stateData revised writable, revised.sort⟩⟩

/-- A call that never has anything to commit leaves the file as it is. -/
theorem run_unchanged {P : Answer F → Prop} (holds : Holds file s) (quiet : ∀ request answer kept,
      attempt.call.check = .ok request → request.apply attempt.clock s = .ok (answer, kept) → kept = none ∧ P answer) :
    (attempt.run file).2 = file ∧
      ((∃ e, (attempt.run file).1 = .error e) ∨ ∃ answer, (attempt.run file).1 = .ok answer ∧ P answer) := by
  cases decided : attempt.decide file with
  | error e =>
    simp only [Attempt.run, decided]
    exact ⟨trivial, .inl ⟨e, rfl⟩⟩
  | ok outcome =>
    obtain ⟨answer, kept⟩ := outcome
    obtain ⟨request, checked, decision⟩ := bind_eq_ok.mp decided
    obtain ⟨loaded, load, applied⟩ := bind_eq_ok.mp decision
    cases (stored_of_load load).symm.trans holds.1
    obtain ⟨rfl, holdsP⟩ := quiet request answer kept checked applied
    simp only [Attempt.run, decided]
    exact ⟨trivial, .inr ⟨answer, rfl, holdsP⟩⟩

theorem enqueue_eq_ok {item : WorkItem F} {kept : Option (State F)} (passed : s.enqueue item = .ok (answer, kept)) :
    ∃ record, answer = .work record ∧
      (kept = none ∧ s.work.get item.workId = some record ∨
        ∃ s', kept = some s' ∧ s.work.get item.workId = none ∧ s'.work.get item.workId = some record) := by
  unfold State.enqueue at passed
  split at passed
  next existing found =>
    obtain ⟨_, -, result⟩ := bind_eq_ok.mp passed
    cases result
    exact ⟨existing, rfl, .inl ⟨rfl, found⟩⟩
  next absent =>
    obtain ⟨s₁, -, result⟩ := bind_eq_ok.mp passed
    cases result
    refine ⟨_, rfl, .inr ⟨_, rfl, absent, ?_⟩⟩
    rw [Dict.get_set, if_pos rfl]

theorem matchingReleaseRetry_eq_some {gpuId : Identifier} {request : ReleaseRequest F} {release : ReleaseRecord F}
    (valid : Valid s) (matched : s.matchingReleaseRetry gpuId request = some release) :
    ∃ workId record, s.work.get workId = some record ∧ record.lastRelease = some release ∧
      ∀ claimId ∈ request.expectedClaimId, release.claimId.1 = claimId := by
  obtain ⟨record, member, retry⟩ := List.mem_filterMap.mp (least_mem matched)
  obtain ⟨last, accepted⟩ := Option.filter_eq_some_iff.mp retry
  simp only [decide_eq_true_eq] at accepted
  exact ⟨_, record, valid.get_of_mem member, last, accepted.2.2.2.2⟩

/-- What a release of a claim returns: the record of the state, or the record that it puts there. -/
theorem release_eq_ok {request : ReleaseRequest F} {clock : Nat → F} {kept : Option (State F)} {claimId : String}
    (valid : Valid s) (claim : request.expectedClaimId = some claimId)
    (passed : s.release request clock = .ok (answer, kept)) :
    ∃ release, answer = .release release ∧ release.claimId.1 = claimId ∧
      (kept = none ∧ (∃ workId record, s.work.get workId = some record ∧ record.lastRelease = some release) ∨
        ∃ s', kept = some s' ∧ (∃ gpuId active, s.claims.get gpuId = some active ∧ active.claimId = release.claimId) ∧
          ∃ workId record, s'.work.get workId = some record ∧ record.lastRelease = some release) := by
  obtain ⟨gpuId, named, passed⟩ := bind_eq_ok.mp passed
  have known := (validateKnownGpu_eq_ok named).1
  split at passed
  next active held =>
    obtain ⟨record, releasedAt, s₁, rfl, -, -, -, expected, rfl, notes⟩ := releaseActive_eq_ok known held passed
    refine ⟨_, rfl, expected claimId claim, .inr ⟨s₁, rfl, ⟨gpuId, active, held, rfl⟩, active.workId, ?_⟩⟩
    rw [notes.framed.work]
    simp only [State.drop, Dict.get_set, if_pos]
    exact ⟨_, rfl, rfl⟩
  next free =>
    split at passed
    next release matched =>
      cases passed
      obtain ⟨workId, record, found, last, expected⟩ := matchingReleaseRetry_eq_some valid matched
      exact ⟨release, rfl, expected claimId claim, .inl ⟨rfl, workId, record, found, last⟩⟩
    next => cases passed

end Repeats

section Runs

/-- What every call of a run keeps, every step it can take keeps. -/
theorem runAll_keeps {P : State F → Prop} (step : ∀ s s', Valid s → P s → Move s s' → P (committed s').sort)
    (attempts : List (Attempt F)) (holds : Holds file s) (before : P s) :
    ∃ s', Holds (Attempt.runAll file attempts) s' ∧ P s' := by
  induction attempts generalizing file s with
  | nil => exact ⟨s, holds, before⟩
  | cons attempt attempts ih =>
    rcases run_cases attempt holds with same | ⟨_, s₁, -, move, -, -, after⟩
    · have unchanged : Holds (attempt.run file).2 s := by rw [same]; exact holds
      exact ih unchanged before
    · exact ih after (step s s₁ holds.2 before move)

theorem newState_retired (configured : Option {set : GpuSet // set.gpus ≠ []}) : Retired (newState F configured).sort := by
  constructor <;> simp [newState, State.sort, Dict.empty, Dict.sort, Dict.get]

/-- Two calls that ask for the same: to enqueue one item, or to release one claim. -/
def Duplicate : Call F → Call F → Prop
  | .enqueue args, .enqueue args' => ∃ item, args.desired = .ok item ∧ args'.desired = .ok item
  | .release args, .release args' => ∃ claim, args.claimOrGpu = .inl claim ∧ args'.claimOrGpu = .inl claim
  | _, _ => False

/-- What the second of two such calls answers: the record of the work as it is by now, or the same release. -/
def Answer.Repeated (file : StateFile) : Answer F → Answer F → Prop
  | .work record, .work record' =>
      record'.item = record.item ∧ record'.enqueueSequence = record.enqueueSequence ∧
        ∃ s, stored F file = .ok s ∧ s.work.get record.item.workId = some record'
  | .release recorded, .release recorded' => recorded' = recorded
  | _, _ => False

theorem request_eq_ok {args : ReleaseArgs F} {claim : ClaimArg} {request : ReleaseRequest F}
    (claimed : args.claimOrGpu = .inl claim) (passed : args.request = .ok request) :
    request.expectedClaimId = some claim.claimId := by
  simp only [ReleaseArgs.request, claimed, ReleaseArgs.finish, bind_eq_ok] at passed
  obtain ⟨_, -, _, -, _, -, _, -, _, -, _, -, _, -, _, -, result⟩ := passed
  cases result
  rfl

/-- Work that is enqueued again is left alone. -/
theorem run_enqueued {attempt : Attempt F} {args : EnqueueArgs F} {item : WorkItem F} {record : WorkRecord F}
    (holds : Holds file s) (call : attempt.call = .enqueue args) (desired : args.desired = .ok item)
    (found : s.work.get item.workId = some record) :
    (attempt.run file).2 = file ∧
      ((∃ e, (attempt.run file).1 = .error e) ∨
        ∃ answer, (attempt.run file).1 = .ok answer ∧ answer = .work record) := by
  apply run_unchanged holds
  intro request answer kept checked applied
  rw [call, Call.check, desired] at checked
  cases checked
  obtain ⟨record', rfl, ⟨rfl, found'⟩ | ⟨s', -, absent, -⟩⟩ := enqueue_eq_ok applied
  · cases found.symm.trans found'
    exact ⟨rfl, rfl⟩
  · rw [found] at absent
    cases absent

/-- A claim that is released again is left alone. -/
theorem run_released {attempt : Attempt F} {args : ReleaseArgs F} {claim : ClaimArg} {release : ReleaseRecord F}
    (holds : Holds file s) (call : attempt.call = .release args) (claimed : args.claimOrGpu = .inl claim)
    (same : release.claimId.1 = claim.claimId) (settled : Settled release s) :
    (attempt.run file).2 = file ∧
      ((∃ e, (attempt.run file).1 = .error e) ∨
        ∃ answer, (attempt.run file).1 = .ok answer ∧ answer = .release release) := by
  apply run_unchanged holds
  intro request answer kept checked applied
  rw [call, Call.check] at checked
  obtain ⟨request', passed, result⟩ := bind_eq_ok.mp checked
  cases result
  obtain ⟨other, rfl, claimId, rest⟩ := release_eq_ok holds.2 (request_eq_ok claimed passed) applied
  have ids : other.claimId = release.claimId := Subtype.ext (claimId.trans same.symm)
  rcases rest with ⟨rfl, workId, record, found, last⟩ | ⟨s', -, ⟨gpuId, active, held, active'⟩, -⟩
  · rw [settled.2 workId record other found last ids]
    exact ⟨rfl, rfl⟩
  · exact absurd (active'.trans ids) (settled.1.2 gpuId active held)

/-- What is in the file once work was enqueued. -/
theorem enqueued_holds {first : Attempt F} {args : EnqueueArgs F} {item : WorkItem F} {answer : Answer F}
    (holds : Holds file s) (call : first.call = .enqueue args) (desired : args.desired = .ok item)
    (succeeded : (first.run file).1 = .ok answer) :
    ∃ s₁ record, Holds (first.run file).2 s₁ ∧ s₁.work.get item.workId = some record ∧ answer = .work record := by
  obtain ⟨request, kept, checked, applied, outcome⟩ := run_eq_ok holds succeeded
  rw [call, Call.check, desired] at checked
  cases checked
  obtain ⟨record, rfl, ⟨rfl, found⟩ | ⟨s', rfl, -, found⟩⟩ := enqueue_eq_ok applied
  · rcases outcome with ⟨-, same⟩ | ⟨s₁, impossible, -⟩
    · exact ⟨s, record, by rw [same]; exact holds, found, rfl⟩
    · cases impossible
  · rcases outcome with ⟨impossible, -⟩ | ⟨s₁, same, after⟩
    · cases impossible
    · cases same
      exact ⟨_, record, after, by simpa only [State.sort, committed, Dict.get_sort] using found, rfl⟩

/-- What is in the file once a claim was released. -/
theorem released_holds {first : Attempt F} {args : ReleaseArgs F} {claim : ClaimArg} {answer : Answer F}
    (holds : Holds file s) (retired : Retired s) (call : first.call = .release args)
    (claimed : args.claimOrGpu = .inl claim) (succeeded : (first.run file).1 = .ok answer) :
    ∃ s₁ release, Holds (first.run file).2 s₁ ∧ Settled release s₁ ∧ release.claimId.1 = claim.claimId ∧
      answer = .release release := by
  obtain ⟨request, kept, checked, applied, outcome⟩ := run_eq_ok holds succeeded
  rw [call, Call.check] at checked
  obtain ⟨request', passed, result⟩ := bind_eq_ok.mp checked
  cases result
  obtain ⟨release, rfl, claimId, made⟩ := release_eq_ok holds.2 (request_eq_ok claimed passed) applied
  rcases made with ⟨rfl, workId, record, found, last⟩ | ⟨s', rfl, -, workId, record, found, last⟩
  · rcases outcome with ⟨-, same⟩ | ⟨s₁, impossible, -⟩
    · exact ⟨s, release, by rw [same]; exact holds, retired.settled found last, claimId, rfl⟩
    · cases impossible
  · rcases outcome with ⟨impossible, -⟩ | ⟨s₁, same, after⟩
    · cases impossible
    · cases same
      have after_retired := retired.move holds.2 (release_move applied)
      exact ⟨_, release, after, (after_retired.settled found last).sorted, claimId, rfl⟩

/-- In every run from an empty scheduler, a call that asks again for what an earlier one did leaves the
file as it is, and raises or answers with what is recorded. -/
theorem duplicates_harmless (configured : Option {set : GpuSet // set.gpus ≠ []}) (earlier between : List (Attempt F))
    (first again : Attempt F) (answer : Answer F)
    (succeeded : (first.run (Attempt.runAll (opened F configured) earlier)).1 = .ok answer)
    (duplicate : Duplicate first.call again.call) :
    let file := Attempt.runAll (opened F configured) (earlier ++ first :: between)
    (again.run file).2 = file ∧
      ((∃ e, (again.run file).1 = .error e) ∨
        ∃ answer', (again.run file).1 = .ok answer' ∧ answer.Repeated file answer') := by
  intro file
  have split : file = Attempt.runAll (first.run (Attempt.runAll (opened F configured) earlier)).2 between := by
    rw [← runAll_concat, ← runAll_append, List.append_assoc]
    rfl
  obtain ⟨s₀, holds₀, retired₀⟩ := runAll_keeps (P := Retired)
    (fun s s' valid retired move => (retired.move valid move).sorted) earlier (opened_holds configured)
    (newState_retired configured)
  cases firstCall : first.call with
  | enqueue args =>
    cases againCall : again.call with
    | enqueue args' =>
      rw [firstCall, againCall] at duplicate
      obtain ⟨item, desired, desired'⟩ := duplicate
      obtain ⟨s₁, record, holds₁, found₁, rfl⟩ := enqueued_holds holds₀ firstCall desired succeeded
      obtain ⟨s₂, holds₂, later⟩ := runAll_keeps (P := Later s₁)
        (fun s s' valid before move => before.trans (move.later valid).sorted) between holds₁ (.refl s₁)
      rw [← split] at holds₂
      obtain ⟨record', found', items, sequences, -⟩ := later item.workId record found₁
      obtain ⟨same, answers⟩ := run_enqueued holds₂ againCall desired' found'
      refine ⟨same, answers.imp_right ?_⟩
      rintro ⟨_, returned, rfl⟩
      refine ⟨_, returned, items, sequences, s₂, holds₂.1, ?_⟩
      rw [holds₁.2.work_key _ record found₁]
      exact found'
    | _ => rw [firstCall, againCall] at duplicate; exact duplicate.elim
  | release args =>
    cases againCall : again.call with
    | release args' =>
      rw [firstCall, againCall] at duplicate
      obtain ⟨claim, claimed, claimed'⟩ := duplicate
      obtain ⟨s₁, release, holds₁, settled₁, claimId, rfl⟩ :=
        released_holds holds₀ retired₀ firstCall claimed succeeded
      obtain ⟨s₂, holds₂, settled₂⟩ := runAll_keeps (P := Settled release)
        (fun s s' valid settled move => (settled.move valid move).sorted) between holds₁ settled₁
      rw [← split] at holds₂
      obtain ⟨same, answers⟩ := run_released holds₂ againCall claimed' claimId settled₂
      refine ⟨same, answers.imp_right ?_⟩
      rintro ⟨_, returned, rfl⟩
      exact ⟨_, returned, rfl⟩
    | _ => rw [firstCall, againCall] at duplicate; exact duplicate.elim
  | _ => rw [firstCall] at duplicate; exact duplicate.elim

end Runs

section Sample

theorem run_sound (attempt : Attempt F) {request : Request F} {answer : Answer F} {s₁ s₂ : State F} (valid : Valid s)
    (loaded : loadState F file = .ok s) (checked : attempt.call.check = .ok request)
    (applied : request.apply attempt.clock s = .ok (answer, some s₁)) (sound : attempt.disk = .sound)
    (same : committed s₁ = s₂) (writable : (Json.obj s₂.body).encodable = true)
    (small : s₂.textSize + sealSize ≤ maxStateBytes) :
    (attempt.run file).1 = .ok answer ∧ loadState F (attempt.run file).2 = .ok s₂.sort ∧ Valid s₂.sort := by
  subst same
  have decided : attempt.decide file = .ok (answer, some s₁) :=
    bind_eq_ok.mpr ⟨request, checked, bind_eq_ok.mpr ⟨s, loaded, applied⟩⟩
  have valid₁ := (valid.move (apply_move valid applied)).revise (s₁.revision + 1)
  have bytes := stateBytes_valid valid₁
  rw [if_pos (by exact writable)] at bytes
  simp only [Attempt.run, decided, commit, bytes, sound, atomicWriteJson]
  exact ⟨trivial, loadState_stateData valid₁ writable small, valid₁.sort⟩

theorem run_quiet (attempt : Attempt F) {request : Request F} {answer : Answer F}
    (loaded : loadState F file = .ok s) (checked : attempt.call.check = .ok request)
    (applied : request.apply attempt.clock s = .ok (answer, none)) : attempt.run file = (.ok answer, file) := by
  have decided : attempt.decide file = .ok (answer, none) :=
    bind_eq_ok.mpr ⟨request, checked, bind_eq_ok.mpr ⟨s, loaded, applied⟩⟩
  rw [Attempt.run, decided]

theorem runAll_nil (file : StateFile) : Attempt.runAll file ([] : List (Attempt F)) = file := rfl

theorem runAll_cons (file : StateFile) (attempt : Attempt F) (attempts : List (Attempt F)) :
    Attempt.runAll file (attempt :: attempts) = Attempt.runAll (attempt.run file).2 attempts := rfl

def enqueueNoted : Attempt Epoch := plainAttempt (enqueueCall (notedItem "n"))

def claimNoted : Attempt Epoch := plainAttempt (.claim (.str "gpu-a") (.str "worker"))

/-- The noted work before and after it is claimed. -/
def queuedRecord : WorkRecord Epoch := ⟨notedItem "n", .queued, 1, 0, none, none⟩

def claimedRecord : WorkRecord Epoch := ⟨notedItem "n", .claimed, 1, 1, some (claimIdentifier 2), none⟩

theorem enqueueNoted_run : (enqueueNoted.run (opened Epoch none)).1 = .ok (.work queuedRecord) ∧
    loadState Epoch (enqueueNoted.run (opened Epoch none)).2 = .ok (notedState "n") ∧ Valid (notedState "n") := by
  have applied : Request.apply (.enqueue (notedItem "n")) (fun _ => Epoch.zero) (newState Epoch none) =
      .ok (.work queuedRecord, some { notedState "n" with revision := 0 }) := rfl
  have small : (notedState "n").textSize ≤ 5000 := by decide +kernel
  have same : committed { notedState "n" with revision := 0 } = notedState "n" := rfl
  have sorted : (notedState "n").sort = notedState "n" := rfl
  have result := run_sound enqueueNoted (newState_valid none) opened_loads rfl applied rfl same
    (notedState_encodable "n") (fits_of_textSize_le small)
  rw [sorted] at result
  exact result

def workName : Identifier := ⟨"w", isIdentifier_w⟩

def gpuName : Identifier := ⟨"gpu-a", by decide⟩

def workerName : Identifier := ⟨"worker", by decide⟩

/-- The state in which the noted work is claimed. -/
def claimedState : State Epoch :=
  { notedState "n" with
    revision := 2
    nextSequence := 3
    gpuIds := ⟨[gpuName], List.pairwise_singleton _ _⟩
    work := ⟨[(workName, claimedRecord)], by simp⟩
    claims := ⟨[(gpuName, ⟨claimIdentifier 2, workName, gpuName, workerName, ⟨.zero, rfl⟩, 2, false⟩)], by simp⟩ }

theorem claimNoted_run : loadState Epoch (Attempt.runAll (opened Epoch none) [enqueueNoted, claimNoted]) = .ok claimedState := by
  have applied : Request.apply (.claim gpuName workerName) (fun _ => Epoch.zero) (notedState "n") =
      .ok (.claim (claimedState.claims.get gpuName), some { claimedState with revision := 1 }) := rfl
  have same : committed { claimedState with revision := 1 } = claimedState := rfl
  have sorted : claimedState.sort = claimedState := rfl
  have writable : (Json.obj claimedState.body).encodable = true := by decide +kernel
  have small : claimedState.textSize ≤ 5000 := by decide +kernel
  obtain ⟨-, loaded, valid⟩ := enqueueNoted_run
  have result := run_sound claimNoted valid loaded rfl applied rfl same writable (fits_of_textSize_le small)
  rw [sorted] at result
  rw [runAll_cons, runAll_cons, runAll_nil]
  exact result.2.1

/-- Work that is enqueued again after it was claimed is answered with another record than at first. -/
theorem enqueued_again_differs :
    (enqueueNoted.run (opened Epoch none)).1 = .ok (.work queuedRecord) ∧
      (enqueueNoted.run (Attempt.runAll (opened Epoch none) [enqueueNoted, claimNoted])).1 = .ok (.work claimedRecord) ∧
      claimedRecord ≠ queuedRecord := by
  have applied : Request.apply (.enqueue (notedItem "n")) (fun _ => Epoch.zero) claimedState =
      .ok (.work claimedRecord, none) := rfl
  have again := run_quiet enqueueNoted claimNoted_run rfl applied
  refine ⟨enqueueNoted_run.1, congrArg Prod.fst again, ?_⟩
  intro same
  cases congrArg WorkRecord.state same

theorem duplicates_harmless_noted :
    (enqueueNoted.run (Attempt.runAll (opened Epoch none) ([] : List (Attempt Epoch)))).1 = .ok (.work queuedRecord) ∧
      Duplicate enqueueNoted.call enqueueNoted.call ∧
      (enqueueNoted.run (Attempt.runAll (opened Epoch none) ([] ++ enqueueNoted :: [claimNoted]))).2 =
        Attempt.runAll (opened Epoch none) ([] ++ enqueueNoted :: [claimNoted]) := by
  have first : (enqueueNoted.run (Attempt.runAll (opened Epoch none) ([] : List (Attempt Epoch)))).1 = .ok (.work queuedRecord) := by
    rw [runAll_nil]
    exact enqueueNoted_run.1
  have duplicate : Duplicate enqueueNoted.call enqueueNoted.call := ⟨notedItem "n", rfl, rfl⟩
  exact ⟨first, duplicate, (duplicates_harmless none [] [claimNoted] enqueueNoted enqueueNoted _ first duplicate).1⟩

end Sample

end KataGo.Scheduler
