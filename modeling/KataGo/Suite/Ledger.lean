import KataGo.Suite.Calls
import KataGo.Suite.Replays

/-! What holds of a state that `reconstruct` has read, and which files it does not depend on. -/

namespace KataGo.Suite
open KataGo.Lib

namespace Registry

variable {c : Registry} {store : Store} {s s' s₁ : RegistryState} {current : Champion} {active : String} {e : RegistryEvent}

theorem validateModelEvent_facts {m champion : ModelBinding} (valid : c.validateModelEvent m = .ok champion) :
    isSha256 champion.sha256 = true := by
  simp only [validateModelEvent, bind_eq_ok, require_eq_ok, exists_const, requireSha256_eq_ok] at valid
  obtain ⟨-, _, ⟨hash, -⟩, path, -, result⟩ := valid
  cases result
  exact hash

/-- What each payload keeps of the facts about a state. -/
structure Facts (s : RegistryState) : Prop where
  champion : ∀ current, s.currentChampion = some current →
    isSha256 current.sha256 = true ∧ isSafeId current.generationId = true
  both : s.currentChampion.isSome = s.activeSuiteId.isSome
  version : ∀ active, s.activeSuiteId = some active → (s.versions.get active).isSome = true
  registered : ∀ suiteId, (s.registrations.get suiteId).isSome = true → (s.versions.get suiteId).isSome = true

/-- What a payload adds to the facts that events have left. -/
structure Added (s s₁ : RegistryState) (e : RegistryEvent) : Prop where
  events : s₁.events = s.events
  last : s₁.lastSequence = s.lastSequence
  activation : s₁.activeSuiteId = s.activeSuiteId ∧ s₁.activeActivationSequence = s.activeActivationSequence ∨
    s₁.activeActivationSequence = e.sequence
  request : ∀ requestId, (s₁.requests.get requestId).isSome = true → (s.requests.get requestId).isSome = true ∨
    ∃ p, e.payload = .requested p ∧ p.requestId = requestId

theorem Added.same {s₁ : RegistryState} (events : s₁.events = s.events) (last : s₁.lastSequence = s.lastSequence)
    (active : s₁.activeSuiteId = s.activeSuiteId) (activation : s₁.activeActivationSequence = s.activeActivationSequence)
    (requests : s₁.requests = s.requests) : Added s s₁ e :=
  ⟨events, last, .inl ⟨active, activation⟩, fun _ found => .inl (requests ▸ found)⟩

theorem isSome_set {ν : Type} {d : Dict String ν} {k k' : String} {v : ν} :
    ((d.set k v).get k').isSome = true ↔ k' = k ∨ (d.get k').isSome = true := by
  rw [Dict.get_set]
  split_ifs with same
  · simp [same]
  · simp [same]

section Kept

variable (facts : Facts s)
include facts

theorem applyBootstrap_kept {p : Bootstrap} (run : c.applyBootstrap store s e p = .ok s₁) : Facts s₁ ∧ Added s s₁ e := by
  obtain ⟨-, version, champion, -, valid, safe, -, -, rfl⟩ := applyBootstrap_eq_ok.mp run
  refine ⟨⟨?_, rfl, ?_, ?_⟩, rfl, rfl, .inr rfl, fun _ found => .inl found⟩
  · rintro _ ⟨⟩
    exact ⟨validateModelEvent_facts valid, safe⟩
  · rintro _ ⟨⟩
    exact isSome_set.mpr (.inl rfl)
  · exact fun suiteId found => isSome_set.mpr (.inr (facts.registered suiteId found))

theorem applyAcceptance_kept {p : Acceptance} (bootstrapped : s.activeSuiteId = some active)
    (run : c.applyAcceptance s current e p = .ok s₁) : Facts s₁ ∧ Added s s₁ e := by
  obtain ⟨champion, valid, safe, -, -, -, rfl⟩ := applyAcceptance_eq_ok.mp run
  refine ⟨⟨?_, ?_, facts.version, facts.registered⟩, .same rfl rfl rfl rfl rfl⟩
  · rintro _ ⟨⟩
    exact ⟨validateModelEvent_facts valid, safe⟩
  · rw [bootstrapped]
    rfl

theorem applyRequest_kept {p : Request} (run : c.applyRequest store s current active e p = .ok s₁)
    (payload : e.payload = .requested p) : Facts s₁ ∧ Added s s₁ e := by
  obtain ⟨-, -, -, -, rfl⟩ := applyRequest_eq_ok.mp run
  refine ⟨⟨facts.champion, facts.both, facts.version, facts.registered⟩, rfl, rfl, .inl ⟨rfl, rfl⟩, fun requestId found => ?_⟩
  exact (isSome_set.mp found).elim (fun same => .inr ⟨p, payload, same.symm⟩) .inl

theorem applyRegistration_kept {p : Registration} (run : c.applyRegistration store s e p = .ok s₁) :
    Facts s₁ ∧ Added s s₁ e := by
  obtain ⟨-, -, request, version, -, -, -, -, rfl⟩ := applyRegistration_eq_ok.mp run
  refine ⟨⟨facts.champion, facts.both, fun active found => ?_, fun suiteId found => ?_⟩, .same rfl rfl rfl rfl rfl⟩
  · exact isSome_set.mpr (.inr (facts.version active found))
  · exact isSome_set.mpr ((isSome_set.mp found).imp_right (facts.registered suiteId))

theorem applyActivation_kept {p : Activation} (bootstrapped : s.currentChampion = some current)
    (run : applyActivation s current active e p = .ok s₁) : Facts s₁ ∧ Added s s₁ e := by
  obtain ⟨-, -, ⟨registration, -, -, -, registered, -⟩, rfl⟩ := applyActivation_eq_ok.mp run
  refine ⟨⟨facts.champion, ?_, ?_, facts.registered⟩, rfl, rfl, .inr rfl, fun _ found => .inl found⟩
  · rw [bootstrapped]
    rfl
  · rintro _ ⟨⟩
    exact facts.registered p.suiteId (by rw [registered]; rfl)

/-- A payload that leaves champions, suites and requests as they are. -/
theorem Facts.other {s₁ : RegistryState} (events : s₁.events = s.events) (last : s₁.lastSequence = s.lastSequence)
    (champion : s₁.currentChampion = s.currentChampion) (active : s₁.activeSuiteId = s.activeSuiteId)
    (activation : s₁.activeActivationSequence = s.activeActivationSequence) (versions : s₁.versions = s.versions)
    (registrations : s₁.registrations = s.registrations) (requests : s₁.requests = s.requests) :
    Facts s₁ ∧ Added s s₁ e := by
  refine ⟨⟨?_, ?_, ?_, ?_⟩, .same events last active activation requests⟩
  · rw [champion]
    exact facts.champion
  · rw [champion, active]
    exact facts.both
  · rw [active, versions]
    exact facts.version
  · rw [registrations, versions]
    exact facts.registered

theorem applyCurrent_kept {payload : Payload} (named : e.payload = payload) (champion : s.currentChampion = some current)
    (suite : s.activeSuiteId = some active) (run : c.applyCurrent store s current active e payload = .ok s₁) :
    Facts s₁ ∧ Added s s₁ e := by
  cases payload with
  | bootstrapped p => exact applyBootstrap_kept facts run
  | accepted p => exact applyAcceptance_kept facts suite run
  | pinned p =>
    obtain ⟨-, -, rfl⟩ := applyPin_eq_ok.mp run
    exact facts.other rfl rfl rfl rfl rfl rfl rfl rfl
  | unpinned p =>
    obtain ⟨-, -, rfl⟩ := applyUnpin_eq_ok.mp run
    exact facts.other rfl rfl rfl rfl rfl rfl rfl rfl
  | requested p => exact applyRequest_kept facts run named
  | registered p => exact applyRegistration_kept facts run
  | continuity p =>
    obtain ⟨-, -, -, -, rfl⟩ := applyContinuity_eq_ok.mp run
    exact facts.other rfl rfl rfl rfl rfl rfl rfl rfl
  | boundary p =>
    obtain ⟨-, -, rfl⟩ := applyBoundary_eq_ok.mp run
    exact facts.other rfl rfl rfl rfl rfl rfl rfl rfl
  | activated p => exact applyActivation_kept facts champion run

theorem applyPayload_kept {payload : Payload} (named : e.payload = payload) (run : c.applyPayload store s e payload = .ok s₁) :
    Facts s₁ ∧ Added s s₁ e := by
  by_cases first : ∃ p, payload = .bootstrapped p
  · obtain ⟨p, rfl⟩ := first
    exact applyBootstrap_kept facts run
  · obtain ⟨current, active, champion, suite, run⟩ := (applyPayload_eq_ok fun p same => first ⟨p, same⟩).mp run
    exact applyCurrent_kept facts named champion suite run

end Kept

/-- What holds of the state that a log is read into. -/
structure Ledger (log : List (Nat × RegistryEvent)) (s : RegistryState) : Prop extends Facts s where
  events : s.events = log.map Prod.snd
  last : s.lastSequence = log.length
  numbers : ∀ file ∈ log, file.1 ≤ log.length ∧ file.2.sequence = file.1
  hash : isSha256 s.lastEventSha256 = true
  times : (log.map fun file => file.2.timestamp).Pairwise (· ≤ ·)
  activation : ∀ active, s.activeSuiteId = some active → ∃ e ∈ s.events, e.sequence = s.activeActivationSequence
  requested : ∀ requestId, (s.requests.get requestId).isSome = true →
    ∃ e ∈ s.events, ∃ p, e.payload = .requested p ∧ p.requestId = requestId

theorem ledger_initial (c : Registry) : Ledger [] c.initialState where
  champion := by
    rintro _ ⟨⟩
  both := rfl
  version := by
    rintro _ ⟨⟩
  registered := by
    rintro _ ⟨⟩
  events := rfl
  last := rfl
  numbers := by simp
  hash := (by decide : isSha256 genesisHash = true)
  times := by simp
  activation := by
    rintro _ ⟨⟩
  requested := by
    rintro _ ⟨⟩

/-- No time of an ordered log is after its last one. -/
theorem le_of_getLast {times : List Int} {t : Int} (sorted : times.Pairwise (· ≤ ·)) (bound : ∀ last ∈ times.getLast?, last ≤ t) :
    ∀ x ∈ times, x ≤ t := by
  induction times using List.reverseRecOn with
  | nil => exact fun x member => absurd member List.not_mem_nil
  | append_singleton before last =>
    have final : last ≤ t := bound last (by simp)
    intro x member
    rcases List.mem_append.mp member with earlier | own
    · exact ((List.pairwise_append.mp sorted).2.2 x earlier last (List.mem_singleton_self last)).trans final
    · exact List.mem_singleton.mp own ▸ final

theorem Ledger.concat {log : List (Nat × RegistryEvent)} {file : Nat × RegistryEvent} (ledger : Ledger log s)
    (accepted : c.applyEvent store s file = .ok s') : Ledger (log ++ [file]) s' := by
  obtain ⟨n, e⟩ := file
  obtain ⟨number, sequence, hash, -, -, -, ordered, s₁, run, rfl⟩ := applyEvent_eq_ok.mp accepted
  obtain ⟨facts, added⟩ := applyPayload_kept ledger.toFacts rfl run
  have members : s₁.events ++ [e] = (log ++ [(n, e)]).map Prod.snd := by
    rw [added.events, ledger.events, List.map_append]
    rfl
  refine ⟨⟨facts.champion, facts.both, facts.version, facts.registered⟩, members, ?_, ?_, hash, ?_, ?_, ?_⟩
  · show s₁.lastSequence + 1 = _
    rw [added.last, ledger.last, List.length_append]
    rfl
  · intro file member
    rw [List.length_append]
    rcases List.mem_append.mp member with before | last
    · exact ⟨Nat.le_succ_of_le (ledger.numbers file before).1, (ledger.numbers file before).2⟩
    · obtain rfl := List.mem_singleton.mp last
      rw [ledger.last] at number
      exact ⟨number.le, sequence⟩
  · rw [List.map_append, List.pairwise_append]
    refine ⟨ledger.times, List.pairwise_singleton _ _, fun t member last lastMember => ?_⟩
    obtain rfl := List.mem_singleton.mp lastMember
    refine le_of_getLast ledger.times (fun last found => ?_) t member
    have shape : log.map (fun file => file.2.timestamp) = s.events.map RegistryEvent.timestamp := by
      rw [ledger.events, List.map_map]
      rfl
    rw [shape, List.getLast?_map, Option.mem_map] at found
    obtain ⟨x, found, rfl⟩ := found
    exact ordered x found
  · intro active found
    rcases added.activation with ⟨same, sameSequence⟩ | own
    · rw [same] at found
      obtain ⟨x, member, named⟩ := ledger.activation active found
      exact ⟨x, List.mem_append_left _ (added.events ▸ member), named.trans sameSequence.symm⟩
    · exact ⟨e, List.mem_append_right _ (List.mem_singleton_self e), own.symm⟩
  · intro requestId found
    rcases added.request requestId found with before | ⟨p, payload, named⟩
    · obtain ⟨x, member, rest⟩ := ledger.requested requestId before
      exact ⟨x, List.mem_append_left _ (added.events ▸ member), rest⟩
    · exact ⟨e, List.mem_append_right _ (List.mem_singleton_self e), p, payload, named⟩

theorem reconstruct_eq_ok : c.reconstruct store = .ok s ↔
    c.assertFrozenInputs = .ok () ∧ replay (c.applyEvent store) c.initialState store.events = .ok s := by
  rw [reconstruct, bind_eq_ok]
  exact ⟨fun ⟨_, frozen, run⟩ => ⟨frozen, run⟩, fun ⟨frozen, run⟩ => ⟨(), frozen, run⟩⟩

theorem ledger_of_reconstruct (read : c.reconstruct store = .ok s) : Ledger store.events s :=
  replay_invariant Ledger (ledger_initial c) (fun _ _ _ _ ledger run => ledger.concat run) (reconstruct_eq_ok.mp read).2

end Registry
end KataGo.Suite
