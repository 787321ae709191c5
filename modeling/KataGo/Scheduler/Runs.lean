import KataGo.Scheduler.Moves

/-! Runs of calls from an empty scheduler: the file always holds a sound state, claims are
exclusive, and work is neither lost nor counted wrongly. -/

namespace KataGo.Scheduler
open KataGo.Lib

variable {F : Type} [Numbers F] {s s' : State F} {file : StateFile}

section Steps

/-- The file holds a state whose references are sound. -/
def Holds (file : StateFile) (s : State F) : Prop := stored F file = .ok s ∧ Valid s

theorem stored_of_load (loaded : loadState F file = .ok s) : stored F file = .ok s := by
  unfold loadState at loaded
  split at loaded
  next => cases loaded
  next => cases loaded
  next data =>
    obtain ⟨_, -, read⟩ := bind_eq_ok.mp loaded
    exact read

theorem Valid.revise (valid : Valid s) (revision : Nat) : Valid { s with revision := revision } :=
  ⟨valid.positive, valid.allocated, valid.work_key, valid.work_gpus, valid.claim_key, valid.claim_work,
    valid.claim_once, valid.claim_id, valid.claimed, valid.unclaimed, valid.request_key, valid.request_gpu,
    valid.request_work, valid.request_pending, valid.event_gpu, valid.event_id, valid.event_order, valid.idle_event,
    valid.halt_gpu⟩

/-- The state that a commit writes. -/
def committed (s : State F) : State F := { s with revision := s.revision + 1 }

/-- What a commit of a sound state comes to. -/
theorem commit_cases (valid : Valid s) (disk : Disk) (file : StateFile) :
    (∃ e, commit disk file s = (.error e, file)) ∨
      (Json.obj (committed s).body).encodable = true ∧ ∃ result,
        commit disk file s = (result, .regular (stateData (committed s))) ∧ (disk = .sound → result = .ok ()) := by
  have bytes := stateBytes_valid (valid.revise (s.revision + 1))
  by_cases writable : (Json.obj (committed s).body).encodable = true
  · rw [if_pos (by exact writable)] at bytes
    simp only [commit, bytes]
    cases disk with
    | sound => exact .inr ⟨writable, _, rfl, fun _ => rfl⟩
    | failsBefore => exact .inl ⟨_, rfl⟩
    | failsAfter => exact .inr ⟨writable, _, rfl, fun sound => by cases sound⟩
  · rw [if_neg (by exact writable)] at bytes
    refine .inl ⟨.value "value is not canonical-JSON compatible", ?_⟩
    simp only [commit, bytes]

/-- A call leaves the file as it is, or writes what one of the changes makes of the state. -/
theorem run_cases (attempt : Attempt F) (holds : Holds file s) :
    (attempt.run file).2 = file ∨ ∃ answer s₁, attempt.decide file = .ok (answer, some s₁) ∧ Move s s₁ ∧
      (Json.obj (committed s₁).body).encodable = true ∧
      (attempt.run file).2 = .regular (stateData (committed s₁)) ∧ Holds (attempt.run file).2 (committed s₁).sort := by
  cases decided : attempt.decide file with
  | error e => exact .inl (by rw [Attempt.run, decided])
  | ok outcome =>
    obtain ⟨answer, kept⟩ := outcome
    cases kept with
    | none => exact .inl (by rw [Attempt.run, decided])
    | some s₁ =>
      obtain ⟨request, -, decision⟩ := bind_eq_ok.mp decided
      obtain ⟨loaded, load, applied⟩ := bind_eq_ok.mp decision
      cases (stored_of_load load).symm.trans holds.1
      have move := apply_move holds.2 applied
      have valid := holds.2.move move
      rcases commit_cases valid attempt.disk file with ⟨e, failed⟩ | ⟨writable, result, written, -⟩
      · left
        rw [Attempt.run, decided]
        simp only [failed]
      · have file' : (attempt.run file).2 = .regular (stateData (committed s₁)) := by
          rw [Attempt.run, decided]
          simp only [written]
          cases result <;> rfl
        refine .inr ⟨answer, s₁, rfl, move, writable, file', ?_⟩
        rw [file']
        have revised := valid.revise (s₁.revision + 1)
        exact ⟨readState_stateData revised writable, revised.sort⟩

theorem newState_valid (configured : Option {set : GpuSet // set.gpus ≠ []}) : Valid (newState F configured) := by
  constructor <;> simp [newState, State.sequences, Dict.empty, Dict.values, Dict.get]

theorem newState_encodable (configured : Option {set : GpuSet // set.gpus ≠ []}) :
    (Json.obj (newState F configured).body).encodable = true := by
  have digit : ∀ n : Int, (Json.decimal n.natAbs).length = 1 → (Json.int n : Json F).encodable = true := by
    intro n one
    simp only [Json.encodable, Json.withinDigits, one, decide_eq_true_eq]
    omega
  have gpus : ∀ set : GpuSet, (Json.arr (set.gpus.map identifierJson) : Json F).encodable = true := by
    intro set
    rw [Json.encodable, Json.encodableItems_iff]
    simp only [List.forall_mem_map]
    exact fun gpu _ => rfl
  rw [encodable_obj]
  simp only [State.body, List.forall_mem_cons]
  exact ⟨digit _ rfl, digit _ rfl, digit _ rfl, rfl, gpus _, rfl, rfl, rfl, rfl, rfl, rfl, rfl, by simp⟩

theorem opened_holds (configured : Option {set : GpuSet // set.gpus ≠ []}) :
    Holds (opened F configured) (newState F configured).sort := by
  have valid := newState_valid (F := F) configured
  have writable := newState_encodable (F := F) configured
  have bytes := stateBytes_valid valid
  rw [if_pos writable] at bytes
  rw [opened, bytes]
  exact ⟨readState_stateData valid writable, valid.sort⟩

theorem runAll_concat (file : StateFile) (attempts : List (Attempt F)) (attempt : Attempt F) :
    Attempt.runAll file (attempts ++ [attempt]) = (attempt.run (Attempt.runAll file attempts)).2 := by
  simp [Attempt.runAll]

theorem runAll_append (file : StateFile) (attempts later : List (Attempt F)) :
    Attempt.runAll file (attempts ++ later) = Attempt.runAll (Attempt.runAll file attempts) later := by
  simp [Attempt.runAll]

theorem runAll_holds (holds : Holds file s) (attempts : List (Attempt F)) :
    ∃ s' : State F, Holds (Attempt.runAll file attempts) s' := by
  induction attempts using List.reverseRecOn with
  | nil => exact ⟨s, holds⟩
  | append_singleton attempts attempt ih =>
    obtain ⟨s', before⟩ := ih
    rw [runAll_concat]
    rcases run_cases attempt before with same | ⟨_, s₁, -, -, -, -, after⟩
    · exact ⟨s', by rw [same]; exact before⟩
    · exact ⟨_, after⟩

end Steps

section History

def WorkState.isTerminal : WorkState → Bool
  | .queued | .claimed => false
  | .completed | .failed | .cancelled => true

/-- What becomes of the work of a state later on: it stays, and finished work stays as it is. -/
def Later (s s' : State F) : Prop :=
  ∀ workId record, s.work.get workId = some record → ∃ record', s'.work.get workId = some record' ∧
    record'.item = record.item ∧ record'.enqueueSequence = record.enqueueSequence ∧
    (record.state.isTerminal = true → record' = record)

theorem Later.refl (s : State F) : Later s s := fun _ record found => ⟨record, found, rfl, rfl, fun _ => rfl⟩

theorem Later.trans {s₁ : State F} (first : Later s s₁) (second : Later s₁ s') : Later s s' := by
  intro workId record found
  obtain ⟨record₁, found₁, item₁, sequence₁, same₁⟩ := first workId record found
  obtain ⟨record₂, found₂, item₂, sequence₂, same₂⟩ := second workId record₁ found₁
  refine ⟨record₂, found₂, item₂.trans item₁, sequence₂.trans sequence₁, ?_⟩
  intro terminal
  have kept := same₁ terminal
  rw [kept] at same₂
  exact same₂ terminal

theorem Later.of_work (same : s'.work = s.work) : Later s s' := by
  intro workId record found
  exact ⟨record, by rw [same]; exact found, rfl, rfl, fun _ => rfl⟩

/-- One record of the work is added, or replaced by another one of the same item. -/
theorem Later.of_set {workId : Identifier} {next : WorkRecord F} (work : s'.work = s.work.set workId next)
    (item : ∀ record, s.work.get workId = some record → next.item = record.item ∧
      next.enqueueSequence = record.enqueueSequence ∧ record.state.isTerminal = false) : Later s s' := by
  intro workId' record found
  rw [work, Dict.get_set]
  by_cases same : workId' = workId
  · subst same
    rw [if_pos rfl]
    obtain ⟨items, sequences, active⟩ := item record found
    refine ⟨next, rfl, items, sequences, ?_⟩
    intro terminal
    rw [active] at terminal
    cases terminal
  · rw [if_neg same]
    exact ⟨record, found, rfl, rfl, fun _ => rfl⟩

theorem Move.later (move : Move s s') (valid : Valid s) : Later s s' := by
  cases move with
  | noted notes => exact .of_work notes.framed.work
  | enqueued notes item absent eligible preferred =>
    refine (Later.of_work notes.framed.work).trans (Later.of_set rfl ?_)
    intro record found
    rw [absent] at found
    cases found
  | granted notes grantable ownerId claimedAt =>
    refine (Later.of_work notes.framed.work).trans (Later.of_set rfl ?_)
    intro record found
    cases grantable.found.symm.trans found
    exact ⟨rfl, rfl, by rw [grantable.queued]; rfl⟩
  | @released gpuId active _ droppable request releasedAt _ notes =>
    refine Later.trans (Later.of_set rfl ?_) (.of_work notes.framed.work)
    intro record found
    cases droppable.found.symm.trans found
    obtain ⟨record', found', state, -⟩ := valid.claim_work gpuId active droppable.held
    cases found.symm.trans found'
    exact ⟨rfl, rfl, by rw [state]; rfl⟩
  | requested id sequence held claimId workId found preemptible wanted => exact .of_work rfl

/-- The claims that are there after a step and were not before. -/
def newClaims (s s' : State F) : List (Claim F) :=
  s'.claims.values.filter fun claim => claim.claimId ∉ s.claims.values.map (·.claimId)

/-- The claims that the calls of a run grant, in their order. -/
def grants (file : StateFile) : List (Attempt F) → List (Claim F)
  | [] => []
  | attempt :: rest =>
      (match stored F file, stored F (attempt.run file).2 with
        | .ok s, .ok s' => newClaims s s'
        | _, _ => []) ++ grants (attempt.run file).2 rest

/-- What a state says about the claims that were granted so far. -/
structure Accounted (history : List (Claim F)) (s : State F) : Prop where
  distinct : (history.map (·.claimId)).Nodup
  numbered : ∀ claim ∈ history, claim.claimId = claimIdentifier claim.sequence ∧ claim.sequence < s.nextSequence
  active : ∀ gpuId claim, s.claims.get gpuId = some claim → claim ∈ history
  known : ∀ claim ∈ history, (s.work.get claim.workId).isSome
  attempts : ∀ workId record, s.work.get workId = some record →
    record.attempts = (history.filter fun claim => claim.workId = workId).length

theorem newClaims_eq_nil (old : ∀ gpuId claim, s'.claims.get gpuId = some claim → s.claims.get gpuId = some claim) :
    newClaims s s' = [] := by
  apply List.filter_eq_nil_iff.mpr
  intro claim member
  obtain ⟨gpuId, found⟩ := Dict.mem_values_iff.mp member
  have there := Dict.mem_values_iff.mpr ⟨gpuId, old gpuId claim found⟩
  simp only [decide_eq_true_eq, not_not]
  exact List.mem_map_of_mem there

/-- The accounts stay right as long as no claim is granted. -/
theorem Accounted.keep {history : List (Claim F)} (accounted : Accounted history s)
    (next : s.nextSequence ≤ s'.nextSequence) (later : Later s s')
    (claims : ∀ gpuId claim, s'.claims.get gpuId = some claim → s.claims.get gpuId = some claim)
    (attempts : ∀ workId record', s'.work.get workId = some record' →
      (∃ record, s.work.get workId = some record ∧ record'.attempts = record.attempts) ∨
        s.work.get workId = none ∧ record'.attempts = 0) : Accounted history s' where
  distinct := accounted.distinct
  numbered claim member :=
    ⟨(accounted.numbered claim member).1, lt_of_lt_of_le (accounted.numbered claim member).2 next⟩
  active gpuId claim found := accounted.active gpuId claim (claims gpuId claim found)
  known claim member := by
    obtain ⟨record, found⟩ := Option.isSome_iff_exists.mp (accounted.known claim member)
    obtain ⟨record', found', -⟩ := later _ record found
    rw [found']
    rfl
  attempts workId record' found' := by
    rcases attempts workId record' found' with ⟨record, found, same⟩ | ⟨absent, zero⟩
    · rw [same]
      exact accounted.attempts workId record found
    · rw [zero, List.filter_eq_nil_iff.mpr]
      · rfl
      · intro claim member same
        have known := accounted.known claim member
        rw [of_decide_eq_true same, absent] at known
        cases known

theorem Accounted.grant {history : List (Claim F)} (accounted : Accounted history s)
    {gpuId : Identifier} {selected : WorkRecord F} (grantable : Grantable s gpuId selected) (ownerId : Identifier)
    (claimedAt : Time F) :
    Accounted (history ++ [(s.grant gpuId ownerId selected claimedAt).1])
      (s.grant gpuId ownerId selected claimedAt).2 where
  distinct := by
    rw [List.map_append, List.nodup_append]
    refine ⟨accounted.distinct, List.nodup_singleton _, ?_⟩
    intro id member other last
    obtain ⟨claim, there, rfl⟩ := List.mem_map.mp member
    rw [List.map_singleton, List.mem_singleton] at last
    obtain ⟨named, below⟩ := accounted.numbered claim there
    rw [named, last]
    intro same
    have number : claim.sequence = s.nextSequence := idText_injective (congrArg Subtype.val same)
    omega
  numbered claim member := by
    rcases List.mem_append.mp member with earlier | last
    · exact ⟨(accounted.numbered claim earlier).1, Nat.lt_succ_of_lt (accounted.numbered claim earlier).2⟩
    · rw [List.mem_singleton.mp last]
      exact ⟨rfl, Nat.lt_succ_self _⟩
  active gpu claim found := by
    simp only [State.grant, Dict.get_set] at found
    split at found
    next => cases found; exact List.mem_append_right _ (List.mem_singleton.mpr rfl)
    next => exact List.mem_append_left _ (accounted.active gpu claim found)
  known claim member := by
    simp only [State.grant, Dict.get_set]
    split
    next => rfl
    next different =>
      rcases List.mem_append.mp member with earlier | last
      · exact accounted.known claim earlier
      · rw [List.mem_singleton.mp last] at different
        exact absurd rfl different
  attempts workId record found := by
    rw [List.filter_append, List.length_append]
    simp only [State.grant, Dict.get_set] at found
    split at found
    next same =>
      cases found
      have here : (s.grant gpuId ownerId selected claimedAt).1.workId = workId := same.symm
      rw [List.filter_cons_of_pos (by simpa using here), List.filter_nil, same]
      show selected.attempts + 1 = _
      rw [accounted.attempts _ selected grantable.found]
      rfl
    next different =>
      have other : (s.grant gpuId ownerId selected claimedAt).1.workId ≠ workId := fun same => different same.symm
      rw [List.filter_cons_of_neg (by simpa using other)]
      exact accounted.attempts workId record found

/-- What a change does to the accounts. -/
theorem Accounted.move {history : List (Claim F)} (accounted : Accounted history s) (valid : Valid s)
    (move : Move s s') : Accounted (history ++ newClaims s s'.sort) s' := by
  have later := move.later valid
  have kept : (∀ gpuId claim, s'.claims.get gpuId = some claim → s.claims.get gpuId = some claim) →
      s.nextSequence ≤ s'.nextSequence →
      (∀ workId record', s'.work.get workId = some record' →
        (∃ record, s.work.get workId = some record ∧ record'.attempts = record.attempts) ∨
          s.work.get workId = none ∧ record'.attempts = 0) → Accounted (history ++ newClaims s s'.sort) s' := by
    intro claims next attempts
    rw [newClaims_eq_nil (by simpa only [State.sort, Dict.get_sort] using claims), List.append_nil]
    exact accounted.keep next later claims attempts
  cases move with
  | noted notes =>
    have framed := notes.framed
    refine kept (fun gpuId claim found => by rwa [framed.claims] at found) framed.next ?_
    intro workId record' found
    rw [framed.work] at found
    exact .inl ⟨record', found, rfl⟩
  | enqueued notes item absent eligible preferred =>
    have framed := notes.framed
    refine kept (fun gpuId claim found => by rwa [framed.claims] at found) (Nat.le_succ_of_le framed.next) ?_
    intro workId record' found
    rw [Dict.get_set] at found
    split at found
    next same =>
      cases found
      rw [framed.work] at absent
      exact .inr ⟨same ▸ absent, rfl⟩
    next =>
      rw [framed.work] at found
      exact .inl ⟨record', found, rfl⟩
  | @granted s₁ notes gpuId selected grantable ownerId claimedAt =>
    have framed := notes.framed
    have valid₁ := valid.noted notes
    have before : Accounted history s₁ := by
      refine accounted.keep framed.next (.of_work framed.work) (fun gpu claim found => by rwa [framed.claims] at found) ?_
      intro workId record' found
      rw [framed.work] at found
      exact .inl ⟨record', found, rfl⟩
    have new : newClaims s (s₁.grant gpuId ownerId selected claimedAt).2.sort =
        [(s₁.grant gpuId ownerId selected claimedAt).1] := by
      have fresh : gpuId ∉ s₁.claims.entries.map Prod.fst := Dict.get_eq_none_iff.mp grantable.free
      have values : (s₁.grant gpuId ownerId selected claimedAt).2.sort.claims.values.Perm
          (s₁.claims.values ++ [(s₁.grant gpuId ownerId selected claimedAt).1]) := by
        refine (Dict.perm_values_sort _).trans ?_
        rw [Dict.values, State.grant, Dict.entries_set_fresh fresh, List.map_append]
        rfl
      have old : ∀ claim ∈ s₁.claims.values, claim.claimId ∈ s.claims.values.map (·.claimId) := by
        rw [framed.claims]
        exact fun claim member => List.mem_map_of_mem member
      have unused : (s₁.grant gpuId ownerId selected claimedAt).1.claimId ∉ s.claims.values.map (·.claimId) := by
        intro member
        obtain ⟨claim, there, same⟩ := List.mem_map.mp member
        rw [← framed.claims] at there
        obtain ⟨gpu, found⟩ := Dict.mem_values_iff.mp there
        exact valid₁.fresh found same
      have filtered := values.filter fun claim => claim.claimId ∉ s.claims.values.map (·.claimId)
      have none : s₁.claims.values.filter (fun claim => claim.claimId ∉ s.claims.values.map (·.claimId)) = [] :=
        List.filter_eq_nil_iff.mpr (by simpa using old)
      rw [List.filter_append, none, List.nil_append, List.filter_cons_of_pos (by simpa using unused),
        List.filter_nil] at filtered
      exact List.perm_singleton.mp filtered
    rw [new]
    exact before.grant grantable ownerId claimedAt
  | @released gpuId active record droppable request releasedAt _ notes =>
    have framed := notes.framed
    refine kept ?_ ((Nat.le_succ _).trans framed.next) ?_
    · intro gpu claim found
      rw [framed.claims] at found
      simp only [State.drop, Dict.get_erase] at found
      split at found
      next => cases found
      next => exact found
    · intro workId record' found
      rw [framed.work] at found
      simp only [State.drop, Dict.get_set] at found
      split at found
      next same =>
        cases found
        exact .inl ⟨record, same ▸ droppable.found, rfl⟩
      next => exact .inl ⟨record', found, rfl⟩
  | requested id sequence held claimId workId found preemptible wanted =>
    exact kept (fun gpuId claim found => found) (Nat.le_succ _) fun workId record' found => .inl ⟨record', found, rfl⟩

theorem Accounted.sorted {history : List (Claim F)} (accounted : Accounted history s) :
    Accounted history (committed s).sort where
  distinct := accounted.distinct
  numbered := accounted.numbered
  active := by simpa only [State.sort, committed, Dict.get_sort] using accounted.active
  known := by simpa only [State.sort, committed, Dict.get_sort] using accounted.known
  attempts := by simpa only [State.sort, committed, Dict.get_sort] using accounted.attempts

theorem Later.sorted (later : Later s s') : Later s (committed s').sort := by
  intro workId record found
  obtain ⟨record', found', rest⟩ := later workId record found
  exact ⟨record', by simpa only [State.sort, committed, Dict.get_sort] using found', rest⟩

/-- One call of a run: the accounts follow the claim that it grants, if it grants one. -/
theorem run_accounted (attempt : Attempt F) {history : List (Claim F)} (holds : Holds file s)
    (accounted : Accounted history s) : ∃ s', Holds (attempt.run file).2 s' ∧ Later s s' ∧
      Accounted (history ++ newClaims s s') s' := by
  rcases run_cases attempt holds with same | ⟨_, s₁, -, move, -, -, after⟩
  · refine ⟨s, by rw [same]; exact holds, .refl s, ?_⟩
    rw [newClaims_eq_nil fun _ _ found => found, List.append_nil]
    exact accounted
  · refine ⟨_, after, (move.later holds.2).sorted, ?_⟩
    exact (accounted.move holds.2 move).sorted

/-- What a run of calls leaves behind. -/
theorem runAll_accounted {history : List (Claim F)} (attempts : List (Attempt F)) (holds : Holds file s)
    (accounted : Accounted history s) : ∃ s', Holds (Attempt.runAll file attempts) s' ∧ Later s s' ∧
      Accounted (history ++ grants file attempts) s' := by
  induction attempts generalizing file s history with
  | nil => exact ⟨s, holds, .refl s, by rw [grants, List.append_nil]; exact accounted⟩
  | cons attempt attempts ih =>
    obtain ⟨s₁, holds₁, later₁, accounted₁⟩ := run_accounted attempt holds accounted
    obtain ⟨s', holds', later', accounted'⟩ := ih holds₁ accounted₁
    refine ⟨s', holds', later₁.trans later', ?_⟩
    rw [grants, holds.1, holds₁.1, ← List.append_assoc]
    exact accounted'

end History

section Exclusive

theorem newState_accounted (configured : Option {set : GpuSet // set.gpus ≠ []}) :
    Accounted [] (newState F configured).sort := by
  constructor <;> simp [newState, State.sort, Dict.empty, Dict.sort, Dict.get]

/-- Entries with a value of their own have distinct ones. -/
theorem nodup_values {κ ν α : Type} [DecidableEq κ] {d : Dict κ ν} {f : ν → α}
    (once : ∀ k k' v v', d.get k = some v → d.get k' = some v' → f v = f v' → k = k') : (d.values.map f).Nodup := by
  rw [Dict.values, List.map_map]
  refine List.Nodup.map_on ?_ (List.Nodup.of_map Prod.fst d.nodup)
  intro entry member other there same
  have key := once entry.1 other.1 entry.2 other.2 (Dict.get_of_mem member) (Dict.get_of_mem there) same
  have value : some entry.2 = some other.2 := by
    rw [← Dict.get_of_mem member, key, Dict.get_of_mem there]
  exact Prod.ext key (Option.some.inj value)

/-- In every run of calls from an empty scheduler the claims are exclusive, claimed work is the work
with a claim, attempts count the claims that were granted, no identifier of a claim is used twice, and
all the work that was ever there still is, finished work unchanged. -/
theorem exclusive_and_conserved (configured : Option {set : GpuSet // set.gpus ≠ []}) (attempts : List (Attempt F)) :
    ∃ s, stored F (Attempt.runAll (opened F configured) attempts) = .ok s ∧
      (s.claims.values.map (·.gpuId)).Nodup ∧ (s.claims.values.map (·.workId)).Nodup ∧
      (∀ record ∈ s.work.values, record.state = .claimed ↔
        ∃ claim ∈ s.claims.values, claim.workId = record.item.workId) ∧
      (∀ record ∈ s.work.values, record.attempts = ((grants (opened F configured) attempts).filter fun claim =>
        claim.workId = record.item.workId).length) ∧
      ((grants (opened F configured) attempts).map (·.claimId)).Nodup ∧
      ∀ earlier later, attempts = earlier ++ later →
        ∃ s₀, stored F (Attempt.runAll (opened F configured) earlier) = .ok s₀ ∧ Later s₀ s := by
  obtain ⟨s, holds, -, accounted⟩ := runAll_accounted attempts (opened_holds configured) (newState_accounted configured)
  rw [List.nil_append] at accounted
  have valid := holds.2
  refine ⟨s, holds.1, ?_, ?_, ?_, ?_, accounted.distinct, ?_⟩
  · apply nodup_values
    intro gpuId gpuId' claim claim' found found' same
    rw [← (valid.claim_key _ _ found).1, ← (valid.claim_key _ _ found').1]
    exact same
  · apply nodup_values
    intro gpuId gpuId' claim claim' found found' same
    exact valid.claim_once _ _ _ _ found found' (.inl same)
  · intro record member
    have found := valid.get_of_mem member
    constructor
    · intro claimed
      obtain ⟨gpuId, claim, active, workId⟩ := valid.claimed _ record found claimed
      exact ⟨claim, Dict.mem_values_iff.mpr ⟨gpuId, active⟩, workId⟩
    · rintro ⟨claim, there, workId⟩
      obtain ⟨gpuId, active⟩ := Dict.mem_values_iff.mp there
      obtain ⟨record', found', state, -⟩ := valid.claim_work gpuId claim active
      rw [workId, found] at found'
      cases found'
      exact state
  · intro record member
    exact accounted.attempts _ record (valid.get_of_mem member)
  · rintro earlier later rfl
    obtain ⟨s₀, holds₀, -, accounted₀⟩ := runAll_accounted earlier (opened_holds configured)
      (newState_accounted configured)
    obtain ⟨s', holds', since, -⟩ := runAll_accounted later holds₀ accounted₀
    rw [← runAll_append] at holds'
    cases holds'.1.symm.trans holds.1
    exact ⟨s₀, holds₀.1, since⟩

end Exclusive

end KataGo.Scheduler
