import KataGo.Promotion.Builder

/-! What an accepted event does to the registry, one case for each kind of event. -/

namespace KataGo.Promotion
open KataGo.Lib

variable {F : Type} {b b' : RegistryBuilder} {e : PromotionEvent F}

/-- What an event about a candidate does before its own checks. -/
def RegistryBuilder.located (b : RegistryBuilder) (e : PromotionEvent F) (hash path : String) : RegistryBuilder :=
  (b.opened e).recordPath hash path

def bootRecord (e : PromotionEvent F) (id : String) : GenerationRecord where
  generationId := id
  candidateHash := e.championHash
  candidatePath := none
  previousChampionHash := none
  evaluationKey := none
  state := .active
  restoreChampionHash := none
  lastSequence := e.sequence

def discoveredRecord (e : PromotionEvent F) (hash path : String) : CandidateRecord where
  candidateHash := hash
  candidatePath := path
  state := .discovered
  parentChampionHash := e.championHash
  testedChampionHash := none
  evaluationKey := none
  generationId := none
  lastSequence := e.sequence

def intentRecord (e : PromotionEvent F) (hash path id : String) : GenerationRecord where
  generationId := id
  candidateHash := hash
  candidatePath := some path
  previousChampionHash := some e.championHash
  evaluationKey := e.evaluationKey
  state := .promotionIntent
  restoreChampionHash := none
  lastSequence := e.sequence

/-- The accepted events, with what they checked and the registry they lead to. -/
inductive Applied (b : RegistryBuilder) (e : PromotionEvent F) : RegistryBuilder → Prop where
  | bootstrapped (id : String) (named : e.transition = .championBootstrapped) (first : b.currentChampionHash = none)
      (generations : ∀ k, b.generations.get k = none) (candidates : ∀ k, b.candidates.get k = none)
      (pins : ∀ k, b.pins.get k = none) :
      Applied b e { b.opened e with
        currentChampionHash := some e.championHash
        currentGenerationId := some id
        generations := b.generations.set id (bootRecord e id) }
  | discovered (hash path : String) (named : e.transition = .candidateDiscovered)
      (candidate : e.candidateHash = some hash) (champion : b.currentChampionHash = some e.championHash)
      (absent : b.candidates.get hash = none) :
      Applied b e { b.located e hash path with
        candidates := b.candidates.set hash (discoveredRecord e hash path) }
  | advanced (hash path : String) (target : CandidateState) (current : CandidateRecord)
      (tested key : Option String) (named : e.transition.candidateTarget = some target) (later : target ≠ .discovered)
      (candidate : e.candidateHash = some hash) (champion : b.currentChampionHash = some e.championHash)
      (present : b.candidates.get hash = some current) (legal : target ∈ current.state.legalTransitions)
      (evaluation : RegistryBuilder.evaluationAfter current target e = .ok (tested, key)) :
      Applied b e { b.located e hash path with
        candidates := b.candidates.set hash { current with
          candidatePath := path
          state := target
          testedChampionHash := tested
          evaluationKey := key
          lastSequence := e.sequence } }
  | intended (hash path id : String) (record : CandidateRecord) (named : e.transition = .generationPromotionIntent)
      (candidate : e.candidateHash = some hash) (champion : b.currentChampionHash = some e.championHash)
      (present : b.candidates.get hash = some record) (confirmed : record.state = .confirmed)
      (fresh : b.generations.get id = none) (free : record.generationId = none)
      (tested : record.testedChampionHash = some e.championHash) (key : record.evaluationKey = e.evaluationKey) :
      Applied b e { b.located e hash path with
        generations := b.generations.set id (intentRecord e hash path id)
        candidates := b.candidates.set hash { record with
          candidatePath := path
          generationId := some id
          lastSequence := e.sequence } }
  | moved (hash path id : String) (target : GenerationState) (generation : GenerationRecord)
      (restore champion current : Option String) (started : b.currentChampionHash ≠ none)
      (named : e.transition.generationTarget = some target) (later : target ≠ .promotionIntent)
      (candidate : e.candidateHash = some hash) (payload : generationIdOf e = .ok id)
      (present : b.generations.get id = some generation) (same : generation.candidateHash = hash)
      (previous : generation.previousChampionHash = some e.championHash)
      (legal : target ∈ generation.state.legalTransitions)
      (restored : RegistryBuilder.restoreAfter generation target e = .ok restore)
      (decided : b.championAfter generation target id restore = .ok (champion, current)) :
      Applied b e { b.located e hash path with
        currentChampionHash := champion
        currentGenerationId := current
        generations := b.generations.set id { generation with
          state := target
          restoreChampionHash := restore
          lastSequence := e.sequence } }
  | pinned (id : String) (pin : ReferencePin) (named : e.transition = .referencePinned)
      (champion : b.currentChampionHash = some e.championHash) :
      Applied b e { b.opened e with
        seenPinIds := id :: b.seenPinIds
        pins := b.pins.set id pin }
  | unpinned (id : String) (named : e.transition = .referenceUnpinned)
      (champion : b.currentChampionHash = some e.championHash) :
      Applied b e { b.opened e with pins := b.pins.erase id }

theorem validateCandidateIdentity_eq_ok {hash path : String}
    (valid : b.validateCandidateIdentity e = .ok (hash, path)) :
    e.candidateHash = some hash ∧ e.candidatePath = some path := by
  unfold RegistryBuilder.validateCandidateIdentity at valid
  split at valid
  next hash' path' named located =>
    simp only [bind_eq_ok, require_eq_ok, exists_const] at valid
    obtain ⟨-, _, -, result⟩ := valid
    cases result
    exact ⟨named, located⟩
  next => cases valid

theorem applyBootstrap_applied (named : e.transition = .championBootstrapped)
    (accepted : (b.opened e).applyBootstrap e = .ok b') : Applied b e b' := by
  simp only [RegistryBuilder.applyBootstrap, bind_eq_ok, require_eq_ok, exists_const] at accepted
  obtain ⟨⟨first, generations, candidates, pins, -⟩, -, id, -, result⟩ := accepted
  cases result
  exact .bootstrapped id named first (Dict.isEmpty_iff.mp generations) (Dict.isEmpty_iff.mp candidates)
    (Dict.isEmpty_iff.mp pins)

theorem transition_eq_discovered (named : e.transition.candidateTarget = some .discovered) :
    e.transition = .candidateDiscovered := by
  cases transition : e.transition <;> simp_all [Transition.candidateTarget]

theorem transition_eq_intent (named : e.transition.generationTarget = some .promotionIntent) :
    e.transition = .generationPromotionIntent := by
  cases transition : e.transition <;> simp_all [Transition.generationTarget]

theorem applyCandidate_applied {target : CandidateState} (named : e.transition.candidateTarget = some target)
    (accepted : (b.opened e).applyCandidate e target = .ok b') : Applied b e b' := by
  simp only [RegistryBuilder.applyCandidate, bind_eq_ok, require_eq_ok, exists_const] at accepted
  obtain ⟨⟨hash, path⟩, valid, champion, accepted⟩ := accepted
  obtain ⟨candidate, -⟩ := validateCandidateIdentity_eq_ok valid
  split at accepted
  next discovered =>
    subst discovered
    simp only [RegistryBuilder.discoverCandidate, bind_eq_ok, require_eq_ok, exists_const] at accepted
    obtain ⟨absent, result⟩ := accepted
    cases result
    exact .discovered hash path (transition_eq_discovered named) candidate champion.symm
      (Option.isNone_iff_eq_none.mp absent)
  next later =>
    unfold RegistryBuilder.advanceCandidate at accepted
    split at accepted
    next => cases accepted
    next current present =>
      simp only [bind_eq_ok, require_eq_ok, exists_const] at accepted
      obtain ⟨legal, ⟨tested, key⟩, evaluation, result⟩ := accepted
      cases result
      exact .advanced hash path target current tested key named later candidate champion.symm present legal evaluation

theorem applyIntent_applied {hash path id : String} (named : e.transition = .generationPromotionIntent)
    (candidate : e.candidateHash = some hash)
    (accepted : (b.located e hash path).applyIntent e hash path id = .ok b') : Applied b e b' := by
  unfold RegistryBuilder.applyIntent at accepted
  split at accepted
  next => cases accepted
  next record present =>
    simp only [bind_eq_ok, require_eq_ok, exists_const] at accepted
    obtain ⟨confirmed, fresh, free, ⟨champion, tested, key⟩, result⟩ := accepted
    cases result
    exact .intended hash path id record named candidate champion.symm present confirmed
      (Option.isNone_iff_eq_none.mp fresh) free tested key

theorem moveGeneration_applied {target : GenerationState} {hash path id : String}
    (started : b.currentChampionHash ≠ none) (named : e.transition.generationTarget = some target)
    (later : target ≠ .promotionIntent) (candidate : e.candidateHash = some hash) (payload : generationIdOf e = .ok id)
    (accepted : (b.located e hash path).moveGeneration e target hash path id = .ok b') : Applied b e b' := by
  unfold RegistryBuilder.moveGeneration at accepted
  split at accepted
  next => cases accepted
  next generation present =>
    simp only [bind_eq_ok, require_eq_ok, exists_const] at accepted
    obtain ⟨⟨same, -⟩, previous, -, legal, restore, restored, ⟨champion, current⟩, decided, result⟩ := accepted
    cases result
    exact .moved hash path id target generation restore champion current started named later candidate payload
      present same previous.symm legal restored decided

theorem applyGeneration_applied {target : GenerationState} (started : b.currentChampionHash ≠ none)
    (named : e.transition.generationTarget = some target)
    (accepted : (b.opened e).applyGeneration e target = .ok b') : Applied b e b' := by
  simp only [RegistryBuilder.applyGeneration, bind_eq_ok] at accepted
  obtain ⟨⟨hash, path⟩, valid, id, payload, accepted⟩ := accepted
  obtain ⟨candidate, -⟩ := validateCandidateIdentity_eq_ok valid
  split at accepted
  next intent =>
    subst intent
    exact applyIntent_applied (transition_eq_intent named) candidate accepted
  next later => exact moveGeneration_applied started named later candidate payload accepted

theorem applyPin_applied (named : e.transition = .referencePinned)
    (accepted : (b.opened e).applyPin e = .ok b') : Applied b e b' := by
  simp only [RegistryBuilder.applyPin, bind_eq_ok, require_eq_ok, exists_const] at accepted
  obtain ⟨-, champion, id, -, hash, -, kind, -, owner, -, -, result⟩ := accepted
  cases result
  exact .pinned id _ named champion.symm

theorem applyUnpin_applied (named : e.transition = .referenceUnpinned)
    (accepted : (b.opened e).applyUnpin e = .ok b') : Applied b e b' := by
  simp only [RegistryBuilder.applyUnpin, bind_eq_ok, require_eq_ok, exists_const] at accepted
  obtain ⟨-, champion, id, -, hash, -, accepted⟩ := accepted
  split at accepted
  next => cases accepted
  next existing present =>
    simp only [bind_eq_ok, require_eq_ok, exists_const] at accepted
    obtain ⟨-, result⟩ := accepted
    cases result
    exact .unpinned id named champion.symm

theorem apply_applied (accepted : b.apply e = .ok b') : Applied b e b' := by
  simp only [RegistryBuilder.apply, bind_eq_ok, require_eq_ok, exists_const] at accepted
  obtain ⟨-, accepted⟩ := accepted
  split at accepted
  next named => exact applyBootstrap_applied named accepted
  next =>
    simp only [bind_eq_ok, require_eq_ok, exists_const, RegistryBuilder.dispatch] at accepted
    obtain ⟨started, accepted⟩ := accepted
    split at accepted
    next target named => exact applyCandidate_applied named accepted
    next target named => exact applyGeneration_applied started named accepted
    next =>
      split at accepted
      next named => exact applyPin_applied named accepted
      next =>
        split at accepted
        next named => exact applyUnpin_applied named accepted
        next => cases accepted

end KataGo.Promotion
