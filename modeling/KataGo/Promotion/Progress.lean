import KataGo.Promotion.Coherence

/-! Lifecycles only move forward: what an event of an accepted log has reached is never left
for an earlier state, so an event that would repeat it is refused. -/

namespace KataGo.Promotion
open KataGo.Lib

/-- How far a candidate is; the states that nothing follows come last. -/
def CandidateState.rank : CandidateState → Nat
  | discovered => 0
  | claimed => 1
  | evaluatingIntegrity => 2
  | evaluatingScreen => 3
  | evaluatingFinalist => 4
  | evaluatingConfirmation => 5
  | superseded | rejected | quarantined | confirmed => 6

def GenerationState.rank : GenerationState → Nat
  | promotionIntent => 0
  | canary => 1
  | rollout => 2
  | active => 3
  | rollbackPending => 4
  | rolledBack | quarantined => 5

/-- The state is at least as far as the target. -/
def CandidateState.Reached (target state : CandidateState) : Prop := state = target ∨ target.rank < state.rank

def GenerationState.Reached (target state : GenerationState) : Prop := state = target ∨ target.rank < state.rank

/-- Only confirmation may be entered from itself. -/
theorem CandidateState.legal_forward {state target : CandidateState} (legal : target ∈ state.legalTransitions) :
    state.rank < target.rank ∨ (state = .evaluatingConfirmation ∧ target = .evaluatingConfirmation) := by
  cases state <;> cases target <;> simp_all [CandidateState.legalTransitions, CandidateState.rank]

theorem GenerationState.legal_forward {state target : GenerationState} (legal : target ∈ state.legalTransitions) :
    state.rank < target.rank := by
  cases state <;> cases target <;> simp_all [GenerationState.legalTransitions, GenerationState.rank]

variable {F : Type} {b b' : RegistryBuilder} {e : PromotionEvent F} {log : List (PromotionEvent F)}

theorem apply_candidate_iff {target : CandidateState} (named : e.transition.candidateTarget = some target) :
    b.apply e = .ok b' ↔ (b.originalHash = none ∨ b.originalHash = some e.originalHash) ∧
      b.currentChampionHash ≠ none ∧ (b.opened e).applyCandidate e target = .ok b' := by
  have notFirst : e.transition ≠ .championBootstrapped := by
    intro first
    rw [first] at named
    cases named
  simp only [RegistryBuilder.apply, bind_eq_ok, require_eq_ok, exists_const, if_neg notFirst, RegistryBuilder.dispatch,
    named]

theorem apply_generation_iff {target : GenerationState} (named : e.transition.generationTarget = some target) :
    b.apply e = .ok b' ↔ (b.originalHash = none ∨ b.originalHash = some e.originalHash) ∧
      b.currentChampionHash ≠ none ∧ (b.opened e).applyGeneration e target = .ok b' := by
  have notFirst : e.transition ≠ .championBootstrapped := by
    intro first
    rw [first] at named
    cases named
  simp only [RegistryBuilder.apply, bind_eq_ok, require_eq_ok, exists_const, if_neg notFirst, RegistryBuilder.dispatch,
    candidateTarget_of_generationTarget named, named]

section Candidates

variable {h : String} {target : CandidateState} {record : CandidateRecord}

/-- The records of the candidates after an event. -/
theorem candidate_forward (accepted : b.apply e = .ok b') (present : b.candidates.get h = some record) :
    ∃ record', b'.candidates.get h = some record' ∧ record.state.Reached record'.state := by
  have unchanged : record.state.Reached record.state := .inl rfl
  cases apply_applied accepted with
  | bootstrapped id named first generations candidates pins => exact ⟨record, present, unchanged⟩
  | discovered hash path named candidate champion absent =>
    have different : h ≠ hash := by
      rintro rfl
      cases absent.symm.trans present
    exact ⟨record, (Dict.get_set_ne _ _ different).trans present, unchanged⟩
  | advanced hash path target current tested key named later candidate champion found legal evaluation =>
    by_cases same : h = hash
    · subst same
      cases found.symm.trans present
      refine ⟨_, Dict.get_set_self _ _ _, ?_⟩
      rcases CandidateState.legal_forward legal with forward | ⟨still, again⟩
      · exact .inr forward
      · exact .inl (again.trans still.symm)
    · exact ⟨record, (Dict.get_set_ne _ _ same).trans present, unchanged⟩
  | intended hash path id current named candidate champion found confirmed fresh free tested key =>
    by_cases same : h = hash
    · subst same
      cases found.symm.trans present
      exact ⟨_, Dict.get_set_self _ _ _, unchanged⟩
    · exact ⟨record, (Dict.get_set_ne _ _ same).trans present, unchanged⟩
  | moved hash path id target generation restore champion current started named later candidate payload found same
      previous legal restored decided => exact ⟨record, present, unchanged⟩
  | pinned id pin named champion => exact ⟨record, present, unchanged⟩
  | unpinned id named champion => exact ⟨record, present, unchanged⟩

/-- An event about a candidate takes it to the state that the event names. -/
theorem candidate_reached (accepted : b.apply e = .ok b') (named : e.transition.candidateTarget = some target)
    (candidate : e.candidateHash = some h) :
    ∃ record, b'.candidates.get h = some record ∧ record.state = target := by
  cases apply_applied accepted with
  | discovered hash path transition candidate' =>
    cases candidate.symm.trans candidate'
    rw [transition] at named
    cases named
    exact ⟨_, Dict.get_set_self _ _ _, rfl⟩
  | advanced hash path target' current tested key named' later candidate' =>
    cases candidate.symm.trans candidate'
    cases named.symm.trans named'
    exact ⟨_, Dict.get_set_self _ _ _, rfl⟩
  | moved hash path id target' generation restore champion current started named' =>
    rw [candidateTarget_of_generationTarget named'] at named
    cases named
  | _ => simp_all [Transition.candidateTarget]

/-- What an event about a candidate asks of the candidate. -/
theorem candidate_legal (accepted : b.apply e = .ok b') (named : e.transition.candidateTarget = some target)
    (candidate : e.candidateHash = some h) (present : b.candidates.get h = some record) :
    target ∈ record.state.legalTransitions := by
  cases apply_applied accepted with
  | discovered hash path transition candidate' champion absent =>
    cases candidate.symm.trans candidate'
    cases absent.symm.trans present
  | advanced hash path target' current tested key named' later candidate' champion found legal =>
    cases candidate.symm.trans candidate'
    cases named.symm.trans named'
    cases found.symm.trans present
    exact legal
  | moved hash path id target' generation restore champion current started named' =>
    rw [candidateTarget_of_generationTarget named'] at named
    cases named
  | _ => simp_all [Transition.candidateTarget]

theorem CandidateState.Reached.trans {first second third : CandidateState} (before : first.Reached second)
    (after : second.Reached third) : first.Reached third := by
  rcases before with rfl | before
  · exact after
  · rcases after with rfl | after
    · exact .inr before
    · exact .inr (before.trans after)

/-- Every candidate is at least as far as the events about it say. -/
theorem candidate_past (accepted : rebuild log = .ok b) (member : e ∈ log)
    (named : e.transition.candidateTarget = some target) (candidate : e.candidateHash = some h) :
    ∃ record, b.candidates.get h = some record ∧ target.Reached record.state := by
  refine replay_invariant (fun log b => ∀ e ∈ log, ∀ target h, e.transition.candidateTarget = some target →
    e.candidateHash = some h → ∃ record, b.candidates.get h = some record ∧ target.Reached record.state)
    (by simp) ?_ accepted e member target h named candidate
  intro log last b₁ b₂ before step e member target h named candidate
  rcases List.mem_append.mp member with old | new
  · obtain ⟨record, present, past⟩ := before e old target h named candidate
    obtain ⟨record', present', forward⟩ := candidate_forward step present
    exact ⟨record', present', past.trans forward⟩
  · cases List.mem_singleton.mp new
    obtain ⟨record, present, same⟩ := candidate_reached step named candidate
    exact ⟨record, present, .inl same⟩

/-- A candidate event that repeats one of the log is refused, unless it enters confirmation again. -/
theorem candidate_repeats (accepted : rebuild log = .ok b) (member : e ∈ log)
    (named : e.transition.candidateTarget = some target) (candidate : e.candidateHash = some h) {e' : PromotionEvent F}
    (named' : e'.transition.candidateTarget = some target) (candidate' : e'.candidateHash = some h)
    (again : b.apply e' = .ok b') :
    target = .evaluatingConfirmation ∧ ∃ record, b.candidates.get h = some record ∧ record.state = target := by
  obtain ⟨record, present, past⟩ := candidate_past accepted member named candidate
  have legal := candidate_legal again named' candidate' present
  rcases CandidateState.legal_forward legal with forward | ⟨still, confirming⟩
  · rcases past with same | past
    · rw [same] at forward
      exact absurd forward (Nat.lt_irrefl _)
    · exact absurd forward (Nat.lt_asymm past)
  · exact ⟨confirming, record, present, still.trans confirming.symm⟩

end Candidates

section Generations

variable {id : String} {target : GenerationState} {generation : GenerationRecord}

theorem generation_forward (accepted : b.apply e = .ok b') (present : b.generations.get id = some generation) :
    ∃ generation', b'.generations.get id = some generation' ∧ generation.state.Reached generation'.state := by
  have unchanged : generation.state.Reached generation.state := .inl rfl
  cases apply_applied accepted with
  | bootstrapped boot named first generations candidates pins =>
    cases (generations id).symm.trans present
  | intended hash path new current named candidate champion found confirmed fresh free tested key =>
    have different : id ≠ new := by
      rintro rfl
      cases fresh.symm.trans present
    exact ⟨generation, (Dict.get_set_ne _ _ different).trans present, unchanged⟩
  | moved hash path moved target current restore champion next started named later candidate payload found same
      previous legal restored decided =>
    by_cases same : id = moved
    · subst same
      cases found.symm.trans present
      exact ⟨_, Dict.get_set_self _ _ _, .inr (GenerationState.legal_forward legal)⟩
    · exact ⟨generation, (Dict.get_set_ne _ _ same).trans present, unchanged⟩
  | _ => exact ⟨generation, present, unchanged⟩

/-- An accepted event about a generation, with its generation before and after. -/
theorem generation_event (accepted : b.apply e = .ok b') (named : e.transition.generationTarget = some target)
    (payload : generationIdOf e = .ok id) :
    (∃ generation, b'.generations.get id = some generation ∧ generation.state = target) ∧
      ∀ generation, b.generations.get id = some generation → target ∈ generation.state.legalTransitions := by
  obtain ⟨-, -, accepted⟩ := (apply_generation_iff named).mp accepted
  simp only [RegistryBuilder.applyGeneration, bind_eq_ok] at accepted
  obtain ⟨⟨hash, path⟩, -, id', payload', accepted⟩ := accepted
  cases payload.symm.trans payload'
  split at accepted
  next intent =>
    unfold RegistryBuilder.applyIntent at accepted
    split at accepted
    next => cases accepted
    next candidate found =>
      simp only [bind_eq_ok, require_eq_ok, exists_const] at accepted
      obtain ⟨-, fresh, -, -, result⟩ := accepted
      cases result
      refine ⟨⟨_, Dict.get_set_self _ _ _, intent.symm⟩, ?_⟩
      intro generation present
      rw [show b.generations.get id = none from Option.isNone_iff_eq_none.mp fresh] at present
      cases present
  next later =>
    unfold RegistryBuilder.moveGeneration at accepted
    split at accepted
    next => cases accepted
    next current found =>
      simp only [bind_eq_ok, require_eq_ok, exists_const] at accepted
      obtain ⟨-, -, -, legal, restore, -, decided, -, result⟩ := accepted
      cases result
      refine ⟨⟨_, Dict.get_set_self _ _ _, rfl⟩, ?_⟩
      intro generation present
      cases found.symm.trans present
      exact legal

theorem GenerationState.Reached.trans {first second third : GenerationState} (before : first.Reached second)
    (after : second.Reached third) : first.Reached third := by
  rcases before with rfl | before
  · exact after
  · rcases after with rfl | after
    · exact .inr before
    · exact .inr (before.trans after)

theorem generation_reached (accepted : rebuild log = .ok b) (member : e ∈ log)
    (named : e.transition.generationTarget = some target) (payload : generationIdOf e = .ok id) :
    ∃ generation, b.generations.get id = some generation ∧ target.Reached generation.state := by
  refine replay_invariant (fun log b => ∀ e ∈ log, ∀ target id, e.transition.generationTarget = some target →
    generationIdOf e = .ok id → ∃ generation, b.generations.get id = some generation ∧
      target.Reached generation.state) (by simp) ?_ accepted e member target id named payload
  intro log last b₁ b₂ before step e member target id named payload
  rcases List.mem_append.mp member with old | new
  · obtain ⟨generation, present, reached⟩ := before e old target id named payload
    obtain ⟨generation', present', forward⟩ := generation_forward step present
    exact ⟨generation', present', reached.trans forward⟩
  · cases List.mem_singleton.mp new
    obtain ⟨⟨generation, present, same⟩, -⟩ := generation_event step named payload
    exact ⟨generation, present, .inl same⟩

/-- A generation event that repeats one of the log is refused. -/
theorem generation_not_repeated (accepted : rebuild log = .ok b) (member : e ∈ log)
    (named : e.transition.generationTarget = some target) (payload : generationIdOf e = .ok id)
    {e' : PromotionEvent F} (named' : e'.transition.generationTarget = some target)
    (payload' : generationIdOf e' = .ok id) : b.apply e' ≠ .ok b' := by
  intro again
  obtain ⟨generation, present, reached⟩ := generation_reached accepted member named payload
  have forward := GenerationState.legal_forward ((generation_event again named' payload').2 generation present)
  rcases reached with same | reached
  · rw [same] at forward
    exact absurd forward (Nat.lt_irrefl _)
  · exact absurd forward (Nat.lt_asymm reached)

end Generations

section Identities

variable {hash path : String}

/-- A path of a candidate stands for one hash. -/
theorem validateCandidateIdentity_known (valid : b.validateCandidateIdentity e = .ok (hash, path)) :
    b.pathToHash.get path = none ∨ b.pathToHash.get path = some hash := by
  unfold RegistryBuilder.validateCandidateIdentity at valid
  split at valid
  next hash' path' named located =>
    simp only [bind_eq_ok, require_eq_ok, exists_const] at valid
    obtain ⟨known, _, -, result⟩ := valid
    cases result
    exact known
  next => cases valid

theorem applyCandidate_paths {target : CandidateState} (accepted : (b.opened e).applyCandidate e target = .ok b') :
    b'.originalHash = some e.originalHash ∧ ∃ hash path,
      (b.opened e).validateCandidateIdentity e = .ok (hash, path) ∧ b'.pathToHash = b.pathToHash.set path hash := by
  simp only [RegistryBuilder.applyCandidate, bind_eq_ok, require_eq_ok, exists_const] at accepted
  obtain ⟨⟨hash, path⟩, valid, -, accepted⟩ := accepted
  split at accepted
  next =>
    simp only [RegistryBuilder.discoverCandidate, bind_eq_ok, require_eq_ok, exists_const] at accepted
    obtain ⟨-, result⟩ := accepted
    cases result
    exact ⟨rfl, hash, path, valid, rfl⟩
  next =>
    unfold RegistryBuilder.advanceCandidate at accepted
    split at accepted
    next => cases accepted
    next =>
      simp only [bind_eq_ok, require_eq_ok, exists_const] at accepted
      obtain ⟨-, evaluation, -, result⟩ := accepted
      cases result
      exact ⟨rfl, hash, path, valid, rfl⟩

theorem applyGeneration_paths {target : GenerationState} (accepted : (b.opened e).applyGeneration e target = .ok b') :
    b'.originalHash = some e.originalHash ∧ ∃ hash path,
      (b.opened e).validateCandidateIdentity e = .ok (hash, path) ∧ b'.pathToHash = b.pathToHash.set path hash := by
  simp only [RegistryBuilder.applyGeneration, bind_eq_ok] at accepted
  obtain ⟨⟨hash, path⟩, valid, id, -, accepted⟩ := accepted
  split at accepted
  next =>
    unfold RegistryBuilder.applyIntent at accepted
    split at accepted
    next => cases accepted
    next =>
      simp only [bind_eq_ok, require_eq_ok, exists_const] at accepted
      obtain ⟨-, -, -, -, result⟩ := accepted
      cases result
      exact ⟨rfl, hash, path, valid, rfl⟩
  next =>
    unfold RegistryBuilder.moveGeneration at accepted
    split at accepted
    next => cases accepted
    next =>
      simp only [bind_eq_ok, require_eq_ok, exists_const] at accepted
      obtain ⟨-, -, -, -, restore, -, decided, -, result⟩ := accepted
      cases result
      exact ⟨rfl, hash, path, valid, rfl⟩

/-- What an event does to the original hash and to the paths of the candidates. -/
theorem identities_after (accepted : b.apply e = .ok b') :
    (b.originalHash = none ∨ b.originalHash = some e.originalHash) ∧ b'.originalHash = some e.originalHash ∧
      (b'.pathToHash = b.pathToHash ∨ ∃ hash path, (b.opened e).validateCandidateIdentity e = .ok (hash, path) ∧
        b'.pathToHash = b.pathToHash.set path hash) := by
  have whole := accepted
  simp only [RegistryBuilder.apply, bind_eq_ok, require_eq_ok, exists_const] at accepted
  obtain ⟨original, accepted⟩ := accepted
  refine ⟨original, ?_⟩
  split at accepted
  next =>
    simp only [RegistryBuilder.applyBootstrap, bind_eq_ok, require_eq_ok, exists_const] at accepted
    obtain ⟨-, -, id, -, result⟩ := accepted
    cases result
    exact ⟨rfl, .inl rfl⟩
  next =>
    simp only [bind_eq_ok, require_eq_ok, exists_const, RegistryBuilder.dispatch] at accepted
    obtain ⟨-, accepted⟩ := accepted
    split at accepted
    next => exact (applyCandidate_paths accepted).imp_right .inr
    next => exact (applyGeneration_paths accepted).imp_right .inr
    next =>
      cases apply_applied whole with
      | pinned => exact ⟨rfl, .inl rfl⟩
      | unpinned => exact ⟨rfl, .inl rfl⟩
      | bootstrapped => exact ⟨rfl, .inl rfl⟩
      | _ => simp_all [Transition.candidateTarget, Transition.generationTarget]

/-- The original hash and the path of an event about a candidate are the registry's from then on. -/
theorem identities_kept (accepted : rebuild log = .ok b) (member : e ∈ log) :
    b.originalHash = some e.originalHash ∧
      ∀ target hash path, e.transition.candidateTarget = some target → e.candidateHash = some hash →
        e.candidatePath = some path → b.pathToHash.get path = some hash := by
  refine replay_invariant (fun log b => ∀ e ∈ log, b.originalHash = some e.originalHash ∧
    ∀ target hash path, e.transition.candidateTarget = some target → e.candidateHash = some hash →
      e.candidatePath = some path → b.pathToHash.get path = some hash) (by simp) ?_ accepted e member
  intro log last b₁ b₂ before step e member
  obtain ⟨original, original', paths⟩ := identities_after step
  rcases List.mem_append.mp member with old | new
  · obtain ⟨same, known⟩ := before e old
    refine ⟨?_, ?_⟩
    · rcases original with none | some
      · cases none.symm.trans same
      · rw [original', ← some, same]
    · intro target hash path named candidate located
      have found := known target hash path named candidate located
      rcases paths with kept | ⟨hash', path', valid, added⟩
      · rw [kept]
        exact found
      · rw [added, Dict.get_set]
        split
        next same =>
          subst same
          rcases validateCandidateIdentity_known valid with unknown | known
          · cases unknown.symm.trans found
          · exact known.symm.trans found
        next => exact found
  · cases List.mem_singleton.mp new
    refine ⟨original', ?_⟩
    intro target hash path named candidate located
    obtain ⟨-, -, step⟩ := (apply_candidate_iff named).mp step
    obtain ⟨-, hash', path', valid, added⟩ := applyCandidate_paths step
    obtain ⟨candidate', located'⟩ := validateCandidateIdentity_eq_ok valid
    cases candidate.symm.trans candidate'
    cases located.symm.trans located'
    rw [added, Dict.get_set_self]

end Identities
end KataGo.Promotion
