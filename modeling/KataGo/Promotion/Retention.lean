import KataGo.Promotion.Coherence
import Mathlib.Data.List.Dedup
import Mathlib.Data.List.Sort
import Mathlib.Data.String.Basic

/-! Which content hashes the registry keeps, and when a hash that it releases can still
become champion. -/

namespace KataGo.Promotion
open KataGo.Lib

/-- A complete projection of a log of events. -/
structure RegistryState (F : Type) where
  events : List (PromotionEvent F)
  candidates : Dict String CandidateRecord
  generations : Dict String GenerationRecord
  pins : Dict String ReferencePin
  currentChampionHash : Option String
  currentGenerationId : Option String
  originalHash : Option String
  lastSequence : Int
  lastEventHash : String

def genesisHash : String := String.ofList (List.replicate 64 '0')

variable {F : Type}

def stateFromEvents (events : List (PromotionEvent F)) : Checked (RegistryState F) := do
  let b ← rebuild events
  return {
    events := events
    candidates := b.candidates
    generations := b.generations
    pins := b.pins
    currentChampionHash := b.currentChampionHash
    currentGenerationId := b.currentGenerationId
    originalHash := b.originalHash
    lastSequence := (events.getLast?.map PromotionEvent.sequence).getD 0
    lastEventHash := (events.getLast?.map PromotionEvent.eventHash).getD genesisHash }

/-- The candidate states that keep a candidate's network. -/
def CandidateState.isProtected : CandidateState → Bool
  | discovered | claimed | evaluatingIntegrity | evaluatingScreen | evaluatingFinalist | evaluatingConfirmation
  | quarantined => true
  | _ => false

def GenerationState.isLive : GenerationState → Bool
  | rolledBack => false
  | _ => true

structure RetentionStatus where
  referenceHash : String
  reasons : List String

def RetentionStatus.pinned (status : RetentionStatus) : Bool := ¬status.reasons.isEmpty

def RetentionStatus.safeToDelete (status : RetentionStatus) : Bool := status.reasons.isEmpty

namespace RegistryState

def candidateReasons (referenceHash : String) (candidate : CandidateRecord) : List String :=
  if candidate.candidateHash = referenceHash ∧ (candidate.state.isProtected = true ∨
      (candidate.state = .confirmed ∧ candidate.generationId = none)) then
    [s!"candidate:{candidate.state.value}"]
  else []

/-- A generation that is active without being the current one gives no reason. -/
def generationReasons (s : RegistryState F) (referenceHash : String) (generation : GenerationRecord) : List String :=
  if generation.state.isLive = false then []
  else if generation.state = .active ∧ some generation.generationId ≠ s.currentGenerationId then []
  else
    (if generation.candidateHash = referenceHash then [s!"generation:{generation.generationId}:candidate"] else []) ++
    (if generation.previousChampionHash = some referenceHash then
      [s!"generation:{generation.generationId}:rollback-champion"] else [])

def pinReasons (referenceHash : String) (pin : ReferencePin) : List String :=
  if pin.referenceHash = referenceHash then [s!"pin:{pin.pinId}:{pin.kind}:{pin.owner}"] else []

def reasons (s : RegistryState F) (referenceHash : String) : List String :=
  (if s.originalHash = some referenceHash then ["immutable-original"] else []) ++
  (if s.currentChampionHash = some referenceHash then ["current-champion"] else []) ++
  s.candidates.values.flatMap (candidateReasons referenceHash) ++
  s.generations.values.flatMap (s.generationReasons referenceHash) ++
  s.pins.values.flatMap (pinReasons referenceHash)

def retentionStatus (s : RegistryState F) (referenceHash : String) : Checked RetentionStatus := do
  let _ ← requireSha256 (.str referenceHash : Json F) "reference_hash"
  return ⟨referenceHash, (s.reasons referenceHash).dedup.insertionSort (· ≤ ·)⟩

def canDelete (s : RegistryState F) (referenceHash : String) : Checked Bool := do
  let status ← s.retentionStatus referenceHash
  return status.safeToDelete

end RegistryState

variable {s : RegistryState F} {h : String}

theorem reasons_of_canDelete (deletable : s.canDelete h = .ok true) : s.reasons h = [] := by
  simp only [RegistryState.canDelete, RegistryState.retentionStatus, bind_eq_ok] at deletable
  obtain ⟨status, ⟨_, -, made⟩, safe⟩ := deletable
  cases made
  have sorted : ((s.reasons h).dedup.insertionSort (· ≤ ·)).isEmpty = true := Except.ok.inj safe
  have length := congrArg List.length (List.isEmpty_iff.mp sorted)
  rw [List.length_insertionSort] at length
  exact (List.dedup_eq_nil _).mp (List.length_eq_zero_iff.mp length)

/-- What a hash that may be deleted is not. -/
structure Released (s : RegistryState F) (h : String) : Prop where
  champion : s.currentChampionHash ≠ some h
  candidate : ∀ record ∈ s.candidates.values, record.candidateHash = h →
    record.state.isProtected = false ∧ (record.state = .confirmed → record.generationId ≠ none)
  generation : ∀ generation ∈ s.generations.values, generation.candidateHash = h ∨
      generation.previousChampionHash = some h →
    generation.state = .rolledBack ∨
      (generation.state = .active ∧ some generation.generationId ≠ s.currentGenerationId)

theorem released_of_canDelete (deletable : s.canDelete h = .ok true) : Released s h := by
  have none := reasons_of_canDelete deletable
  simp only [RegistryState.reasons, List.append_eq_nil_iff, List.flatMap_eq_nil_iff] at none
  obtain ⟨⟨⟨⟨-, champion⟩, candidates⟩, generations⟩, -⟩ := none
  refine ⟨?_, fun record member same => ?_, fun generation member named => ?_⟩
  · intro same
    simp [same] at champion
  · have free := candidates record member
    simpa [RegistryState.candidateReasons, same] using free
  · have free := generations generation member
    rw [RegistryState.generationReasons] at free
    split at free
    next gone =>
      left
      cases state : generation.state <;> simp_all [GenerationState.isLive]
    next live =>
      split at free
      next historical => exact .inr historical
      next current =>
        simp only [List.append_eq_nil_iff] at free
        rcases named with candidate | previous
        · simp [candidate] at free
        · simp [previous] at free

/-- An event that can bring back a hash that was released in `s`: a bootstrap of the hash in
an empty registry, or the rollback of a generation that was active in `s` without being
the current one and that had replaced the hash. -/
def BringsBack (s : RegistryState F) (h : String) (e : PromotionEvent F) : Prop :=
  (e.transition = .championBootstrapped ∧ e.championHash = h) ∨
  (e.transition = .generationRolledBack ∧ ∃ id generation, generationIdOf e = .ok id ∧
    s.generations.get id = some generation ∧ generation.state = .active ∧ s.currentGenerationId ≠ some id ∧
    generation.previousChampionHash = some h)

/-- A state from which no legal transition leads back to an activation. -/
def GenerationState.Past (state : GenerationState) : Prop :=
  state = .rolledBack ∨ state = .active ∨ state = .rollbackPending ∨ state = .quarantined

/-- What stays true of a released hash along the events after `s`. -/
structure Unreachable (s : RegistryState F) (h : String) (b : RegistryBuilder) : Prop where
  champion : b.currentChampionHash ≠ some h
  candidate : ∀ record, b.candidates.get h = some record → record.state.legalTransitions = [] ∧
    (record.state = .confirmed → record.generationId ≠ none)
  candidates : ∀ id generation, b.generations.get id = some generation → generation.candidateHash = h →
    generation.state.Past
  previous : ∀ id generation, b.generations.get id = some generation → generation.previousChampionHash = some h →
    generation.state = .rolledBack ∨ ∃ old, s.generations.get id = some old ∧ old.state = .active ∧
      s.currentGenerationId ≠ some id ∧ old.previousChampionHash = some h

variable {b b' : RegistryBuilder} {e : PromotionEvent F} {id : String} {generation : GenerationRecord}

theorem legalTransitions_eq_nil {state : CandidateState} (free : state.isProtected = false) :
    state.legalTransitions = [] := by
  cases state <;> first | rfl | cases free

theorem past_step {state target : GenerationState} (past : state.Past) (legal : target ∈ state.legalTransitions) :
    target.Past := by
  rcases past with rfl | rfl | rfl | rfl
  · cases legal
  · rw [List.mem_singleton.mp legal]
    exact .inr (.inr (.inl rfl))
  · rcases List.mem_pair.mp legal with rfl | rfl
    · exact .inl rfl
    · exact .inr (.inr (.inr rfl))
  · cases legal

/-- A generation set anew must satisfy what is asked of every generation. -/
theorem Unreachable.set (unreachable : Unreachable s h b) {record : GenerationRecord}
    (champion : b'.currentChampionHash ≠ some h)
    (candidate : ∀ record, b'.candidates.get h = some record → record.state.legalTransitions = [] ∧
      (record.state = .confirmed → record.generationId ≠ none))
    (generations : b'.generations = b.generations.set id record) (past : record.candidateHash = h → record.state.Past)
    (previous : record.previousChampionHash = some h → record.state = .rolledBack ∨
      ∃ old, s.generations.get id = some old ∧ old.state = .active ∧ s.currentGenerationId ≠ some id ∧
        old.previousChampionHash = some h) : Unreachable s h b' := by
  refine ⟨champion, candidate, fun id' found there => ?_, fun id' found there => ?_⟩
  · rw [generations] at there
    by_cases same : id' = id
    · subst same
      cases (Dict.get_set_self _ _ _).symm.trans there
      exact past
    · exact unreachable.candidates id' found ((Dict.get_set_ne _ _ same).symm.trans there)
  · rw [generations] at there
    by_cases same : id' = id
    · subst same
      cases (Dict.get_set_self _ _ _).symm.trans there
      exact previous
    · exact unreachable.previous id' found ((Dict.get_set_ne _ _ same).symm.trans there)

theorem Unreachable.candidate_set (unreachable : Unreachable s h b) {hash : String} {record : CandidateRecord}
    (other : hash ≠ h) : ∀ found, (b.candidates.set hash record).get h = some found →
      found.state.legalTransitions = [] ∧ (found.state = .confirmed → found.generationId ≠ none) := by
  intro found there
  exact unreachable.candidate found ((Dict.get_set_ne _ _ other.symm).symm.trans there)

/-- What one event preserves, if it is not one that brings the hash back. -/
theorem Unreachable.apply (unreachable : Unreachable s h b) (accepted : b.apply e = .ok b')
    (undiscovered : e.transition = .candidateDiscovered → e.candidateHash ≠ some h)
    (safe : ¬BringsBack s h e) : Unreachable s h b' := by
  cases apply_applied accepted with
  | bootstrapped id named =>
    have other : e.championHash ≠ h := fun same => safe (.inl ⟨named, same⟩)
    refine unreachable.set ?_ unreachable.candidate rfl (fun same => absurd same other) fun same => by cases same
    exact fun same => other (Option.some.inj same)
  | discovered hash path named candidate champion absent =>
    have other : hash ≠ h := fun same => undiscovered named (same ▸ candidate)
    exact ⟨unreachable.champion, unreachable.candidate_set other, unreachable.candidates, unreachable.previous⟩
  | advanced hash path target current tested key named later candidate champion present legal evaluation =>
    have other : hash ≠ h := by
      rintro rfl
      rw [(unreachable.candidate current present).1] at legal
      cases legal
    exact ⟨unreachable.champion, unreachable.candidate_set other, unreachable.candidates, unreachable.previous⟩
  | intended hash path id record named candidate champion present confirmed fresh free =>
    have other : hash ≠ h := by
      rintro rfl
      exact (unreachable.candidate record present).2 confirmed free
    refine unreachable.set unreachable.champion (unreachable.candidate_set other) rfl (fun same => absurd same other) ?_
    intro previous
    exact absurd (champion.trans previous) unreachable.champion
  | moved hash path id target generation restore champion current started named later candidate payload present same
      previous legal restored decided =>
    have earlier := unreachable.previous id generation present
    refine unreachable.set ?_ unreachable.candidate rfl
      (fun same => past_step (unreachable.candidates id generation present same) legal) fun replaced => ?_
    · show champion ≠ some h
      by_cases activated : target = .active
      · subst activated
        rw [(championAfter_active decided).2.1]
        intro becomes
        have past := unreachable.candidates id generation present (Option.some.inj becomes)
        rw [state_before_active legal] at past
        rcases past with past | past | past | past <;> cases past
      by_cases rolledBack : target = .rolledBack
      · subst rolledBack
        rw [(championAfter_rolledBack decided).1, restoreAfter_rolledBack restored]
        intro becomes
        rcases earlier becomes with gone | ⟨old, there, active, notCurrent, replaced⟩
        · rw [gone] at legal
          cases legal
        · exact safe (.inr ⟨transition_eq_rolledBack named, id, old, payload, there, active, notCurrent, replaced⟩)
      · rw [(championAfter_other activated rolledBack decided).1]
        exact unreachable.champion
    · rcases earlier replaced with gone | historical
      · rw [gone] at legal
        cases legal
      · exact .inr historical
  | _ => exact ⟨unreachable.champion, unreachable.candidate, unreachable.candidates, unreachable.previous⟩

/-- Candidates are filed under their own hash. -/
theorem rebuild_filed {log : List (PromotionEvent F)} (accepted : rebuild log = .ok b) :
    ∀ c record, b.candidates.get c = some record → record.candidateHash = c := by
  refine replay_invariant (fun (_ : List (PromotionEvent F)) b => ∀ c record, b.candidates.get c = some record →
    record.candidateHash = c) (fun c record present => by cases present) ?_ accepted
  intro log e b₁ b₂ filed step c record present
  cases apply_applied step with
  | discovered hash path =>
    by_cases same : c = hash
    · subst same
      cases (Dict.get_set_self _ _ _).symm.trans present
      rfl
    · exact filed c record ((Dict.get_set_ne _ _ same).symm.trans present)
  | advanced hash path target current tested key named later candidate champion found =>
    by_cases same : c = hash
    · subst same
      cases (Dict.get_set_self _ _ _).symm.trans present
      exact filed c current found
    · exact filed c record ((Dict.get_set_ne _ _ same).symm.trans present)
  | intended hash path id current named candidate champion found =>
    by_cases same : c = hash
    · subst same
      cases (Dict.get_set_self _ _ _).symm.trans present
      exact filed c current found
    · exact filed c record ((Dict.get_set_ne _ _ same).symm.trans present)
  | _ => exact filed c record present

theorem stateFromEvents_eq_ok {log : List (PromotionEvent F)} (made : stateFromEvents log = .ok s) :
    ∃ b, rebuild log = .ok b ∧ s.candidates = b.candidates ∧ s.generations = b.generations ∧
      s.currentChampionHash = b.currentChampionHash ∧ s.currentGenerationId = b.currentGenerationId := by
  rw [stateFromEvents, bind_eq_ok] at made
  obtain ⟨b, accepted, result⟩ := made
  cases result
  exact ⟨b, accepted, rfl, rfl, rfl, rfl⟩

/-- A hash that may be deleted cannot be reached yet. -/
theorem Released.unreachable {log : List (PromotionEvent F)} (released : Released s h)
    (accepted : rebuild log = .ok b) (candidates : s.candidates = b.candidates)
    (generations : s.generations = b.generations) (champion : s.currentChampionHash = b.currentChampionHash) :
    Unreachable s h b := by
  have ids := (rebuild_coherent accepted).ids
  refine ⟨champion ▸ released.champion, fun record present => ?_, fun id generation present same => ?_,
    fun id generation present same => ?_⟩
  · have member := Dict.mem_values_iff.mpr ⟨h, candidates ▸ present⟩
    obtain ⟨free, assigned⟩ := released.candidate record member (rebuild_filed accepted h record present)
    exact ⟨legalTransitions_eq_nil free, assigned⟩
  · have member := Dict.mem_values_iff.mpr ⟨id, generations ▸ present⟩
    rcases released.generation generation member (.inl same) with gone | ⟨active, -⟩
    · exact .inl gone
    · exact .inr (.inl active)
  · have member := Dict.mem_values_iff.mpr ⟨id, generations ▸ present⟩
    rcases released.generation generation member (.inr same) with gone | ⟨active, historical⟩
    · exact .inl gone
    · rw [ids id generation present] at historical
      exact .inr ⟨generation, generations ▸ present, active, Ne.symm historical, same⟩

theorem Unreachable.replay {rest : List (PromotionEvent F)} (unreachable : Unreachable s h b)
    (undiscovered : ∀ e ∈ rest, e.transition = .candidateDiscovered → e.candidateHash ≠ some h)
    (safe : ∀ e ∈ rest, ¬BringsBack s h e) (accepted : replay RegistryBuilder.apply b rest = .ok b') :
    Unreachable s h b' := by
  induction rest generalizing b with
  | nil =>
    cases accepted
    exact unreachable
  | cons e rest ih =>
    obtain ⟨b₁, step, accepted⟩ := replay_cons.mp accepted
    have next := unreachable.apply step (undiscovered e List.mem_cons_self) (safe e List.mem_cons_self)
    exact ih next (fun e member => undiscovered e (List.mem_cons_of_mem _ member))
      (fun e member => safe e (List.mem_cons_of_mem _ member)) accepted

/-- The champion that a generation replaces never changes. -/
theorem keeps_previous (accepted : b.apply e = .ok b') (present : b.generations.get id = some generation) :
    ∃ next, b'.generations.get id = some next ∧ next.previousChampionHash = generation.previousChampionHash := by
  cases apply_applied accepted with
  | bootstrapped id' named first none => cases (none id).symm.trans present
  | intended hash path id' record named candidate champion found confirmed fresh =>
    have different : id ≠ id' := by
      rintro rfl
      cases fresh.symm.trans present
    exact ⟨generation, (Dict.get_set_ne _ _ different).trans present, rfl⟩
  | moved hash path id' target old restore champion current started named later candidate payload found =>
    by_cases same : id = id'
    · subst same
      cases present.symm.trans found
      exact ⟨_, Dict.get_set_self _ _ _, rfl⟩
    · exact ⟨generation, (Dict.get_set_ne _ _ same).trans present, rfl⟩
  | _ => exact ⟨generation, present, rfl⟩

theorem replay_keeps_previous {rest : List (PromotionEvent F)}
    (accepted : replay RegistryBuilder.apply b rest = .ok b') (present : b.generations.get id = some generation) :
    ∃ next, b'.generations.get id = some next ∧ next.previousChampionHash = generation.previousChampionHash := by
  induction rest generalizing b generation with
  | nil =>
    cases accepted
    exact ⟨generation, present, rfl⟩
  | cons e rest ih =>
    obtain ⟨b₁, step, accepted⟩ := replay_cons.mp accepted
    obtain ⟨next, there, same⟩ := keeps_previous step present
    obtain ⟨last, found, previous⟩ := ih accepted there
    exact ⟨last, found, previous.trans same⟩

/-- An accepted rollback restores the champion that its generation had replaced. -/
theorem champion_of_rolledBack (accepted : b.apply e = .ok b') (named : e.transition = .generationRolledBack)
    (payload : generationIdOf e = .ok id) (present : b.generations.get id = some generation) :
    b'.currentChampionHash = generation.previousChampionHash := by
  cases apply_applied accepted with
  | moved hash path id' target old restore champion current started target' later candidate payload' found same
      previous legal restored decided =>
    rw [named] at target'
    cases target'
    cases payload.symm.trans payload'
    cases present.symm.trans found
    exact (championAfter_rolledBack decided).1.trans (restoreAfter_rolledBack restored)
  | advanced hash path target current tested key target' =>
    rw [named] at target'
    cases target'
  | bootstrapped id named' => cases named.symm.trans named'
  | discovered hash path named' => cases named.symm.trans named'
  | intended hash path id record named' => cases named.symm.trans named'
  | pinned id pin named' => cases named.symm.trans named'
  | unpinned id named' => cases named.symm.trans named'

theorem champion_of_bootstrapped (accepted : b.apply e = .ok b') (named : e.transition = .championBootstrapped) :
    b'.currentChampionHash = some e.championHash := by
  cases apply_applied accepted with
  | bootstrapped => rfl
  | moved hash path id' target old restore champion current started target' =>
    rw [named] at target'
    cases target'
  | advanced hash path target current tested key target' =>
    rw [named] at target'
    cases target'
  | discovered hash path named' => cases named.symm.trans named'
  | intended hash path id record named' => cases named.symm.trans named'
  | pinned id pin named' => cases named.symm.trans named'
  | unpinned id named' => cases named.symm.trans named'

/-- A hash that may be deleted, and that is not discovered again, becomes champion in a
continuation exactly when the continuation has an event that brings it back. -/
theorem deletion_safe_iff {log rest : List (PromotionEvent F)} (made : stateFromEvents log = .ok s)
    (deletable : s.canDelete h = .ok true) (accepted : rebuild (log ++ rest) = .ok b)
    (undiscovered : ∀ e ∈ rest, e.transition = .candidateDiscovered → e.candidateHash ≠ some h) :
    (∀ before after b₁, rest = before ++ after → rebuild (log ++ before) = .ok b₁ →
      b₁.currentChampionHash ≠ some h) ↔ ∀ e ∈ rest, ¬BringsBack s h e := by
  obtain ⟨b₀, start, candidates, generations, champion, -⟩ := stateFromEvents_eq_ok made
  constructor
  · intro never e member brings
    obtain ⟨before, after, rfl⟩ := List.append_of_mem member
    rw [← List.append_assoc] at accepted
    obtain ⟨b₁, first, tail⟩ := replay_append.mp accepted
    obtain ⟨b₂, step, -⟩ := replay_cons.mp tail
    have reached : rebuild (log ++ (before ++ [e])) = .ok b₂ := by
      rw [← List.append_assoc]
      exact replay_concat.mpr ⟨b₁, first, step⟩
    apply never (before ++ [e]) after b₂ (by simp) reached
    rcases brings with ⟨named, same⟩ | ⟨named, id, generation, payload, there, -, -, replaced⟩
    · rw [champion_of_bootstrapped step named, same]
    · obtain ⟨b₀', start', middle⟩ := replay_append.mp first
      cases start.symm.trans start'
      obtain ⟨next, found, previous⟩ := replay_keeps_previous middle (generations ▸ there)
      rw [champion_of_rolledBack step named payload found, previous, replaced]
  · intro safe before after b₁ split reached
    obtain ⟨b₀', start', middle⟩ := replay_append.mp reached
    cases start.symm.trans start'
    have unreachable := (released_of_canDelete deletable).unreachable start candidates generations champion
    apply (unreachable.replay _ _ middle).champion
    · exact fun e member => undiscovered e (split ▸ List.mem_append_left after member)
    · exact fun e member => safe e (split ▸ List.mem_append_left after member)

section Sample

/-- Two promotions, one over the other. -/
def lineage : List (PromotionEvent Empty) :=
  bootstrap (digest 'a') "g0" :: promotion 2 (digest 'a') (digest 'b') "g1" ++
    promotion 13 (digest 'b') (digest 'c') "g2"

/-- Both promotions rolled back, the later one first. -/
def unwound : List (PromotionEvent Empty) :=
  [rollback 24 .generationRollbackStarted (digest 'b') (digest 'c') "g2",
    rollback 25 .generationRolledBack (digest 'b') (digest 'c') "g2",
    rollback 26 .generationRollbackStarted (digest 'a') (digest 'b') "g1",
    rollback 27 .generationRolledBack (digest 'a') (digest 'b') "g1"]

/-- The first champion may be deleted after two promotions, and two rollbacks make it
champion again without any discovery. -/
theorem deletable_champion_restored :
    ∃ s b, stateFromEvents lineage = .ok s ∧ s.canDelete (digest 'a') = .ok true ∧
      rebuild (lineage ++ unwound) = .ok b ∧ b.currentChampionHash = some (digest 'a') ∧
      ∀ e ∈ unwound, e.transition ≠ .candidateDiscovered := by
  obtain ⟨s, made, deletable⟩ := exists_ok_map (x := stateFromEvents lineage)
    (fun s => (s.canDelete (digest 'a')).toOption) (y := some true) (by decide +kernel)
  obtain ⟨b, accepted, champion⟩ := exists_ok_map (x := rebuild (lineage ++ unwound))
    RegistryBuilder.currentChampionHash (y := some (digest 'a')) (by decide +kernel)
  obtain ⟨answer, asked, yes⟩ := exists_ok_map (x := s.canDelete (digest 'a')) id (by simpa using deletable)
  exact ⟨s, b, made, yes ▸ asked, accepted, champion, by decide⟩

/-- After the first of the two rollbacks the deleted hash is still not champion. -/
theorem deletion_safe_iff_one_rollback :
    ∃ s b, stateFromEvents lineage = .ok s ∧ s.canDelete (digest 'a') = .ok true ∧
      rebuild (lineage ++ unwound.take 2) = .ok b ∧
      ((∀ before after b₁, unwound.take 2 = before ++ after → rebuild (lineage ++ before) = .ok b₁ →
        b₁.currentChampionHash ≠ some (digest 'a')) ↔ ∀ e ∈ unwound.take 2, ¬BringsBack s (digest 'a') e) := by
  obtain ⟨s, made, deletable⟩ := exists_ok_map (x := stateFromEvents lineage)
    (fun s => (s.canDelete (digest 'a')).toOption) (y := some true) (by decide +kernel)
  obtain ⟨answer, asked, yes⟩ := exists_ok_map (x := s.canDelete (digest 'a')) id (by simpa using deletable)
  obtain ⟨b, accepted⟩ : ∃ b, rebuild (lineage ++ unwound.take 2) = .ok b := exists_ok (by decide +kernel)
  refine ⟨s, b, made, yes ▸ asked, accepted, deletion_safe_iff made (yes ▸ asked) accepted ?_⟩
  intro e member discovered
  exact absurd discovered (by revert e; decide)

end Sample

end KataGo.Promotion
