import KataGo.Suite.Standing

/-! What each event needs to be read, and what the replay knows after it. -/

namespace KataGo.Suite
open KataGo.Lib

namespace Registry

variable {c : Registry} {store : Store} {s s' : RegistryState} {current : Champion} {active : String} {e : RegistryEvent}

section Checks

theorem requireId_eq_ok {value role name : String} : requireId value role = .ok name ↔ isSafeId value = true ∧ name = value := by
  simp only [requireId, bind_eq_ok, require_eq_ok, exists_const]
  exact and_congr_right fun _ => ⟨fun same => (Except.ok.inj same).symm, fun same => congrArg Except.ok same.symm⟩

theorem requireSha256_eq_ok {value role hash : String} :
    requireSha256 value role = .ok hash ↔ isSha256 value = true ∧ hash = value := by
  simp only [requireSha256, bind_eq_ok, require_eq_ok, exists_const]
  exact and_congr_right fun _ => ⟨fun same => (Except.ok.inj same).symm, fun same => congrArg Except.ok same.symm⟩

theorem applyAcceptance_eq_ok {p : Acceptance} : c.applyAcceptance s current e p = .ok s' ↔ ∃ champion,
    c.validateModelEvent p.champion = .ok champion ∧ isSafeId p.generationId = true ∧
    isSha256 p.previousChampionSha256 = true ∧
    (p.previousChampionSha256 = current.sha256 ∧ champion.sha256 ≠ p.previousChampionSha256) ∧
    (∀ item ∈ s.championHistory.values, item.generationId ≠ p.generationId) ∧
    s' = { s with
      previousChampionSha256 := some p.previousChampionSha256
      currentChampion := some ⟨champion, p.generationId⟩
      championHistory := s.championHistory.set champion.sha256 ⟨champion, p.generationId⟩
      acceptedChampionTimestamps := s.acceptedChampionTimestamps ++ [e.timestamp] } := by
  simp only [applyAcceptance, bind_eq_ok, require_eq_ok, exists_const, requireId_eq_ok, requireSha256_eq_ok]
  constructor
  · rintro ⟨champion, valid, _, ⟨generation, rfl⟩, _, ⟨previous, rfl⟩, swaps, fresh, result⟩
    cases result
    exact ⟨champion, valid, generation, previous, swaps, fresh, rfl⟩
  · rintro ⟨champion, valid, generation, previous, swaps, fresh, rfl⟩
    exact ⟨champion, valid, _, ⟨generation, rfl⟩, _, ⟨previous, rfl⟩, swaps, fresh, rfl⟩

theorem applyPin_eq_ok {p : Pin} : applyPin s current active e p = .ok s' ↔ isSafeId p.evaluationId = true ∧
    (s.pins.get p.evaluationId = none ∧ p.suiteId = active ∧ p.championSha256 = current.sha256 ∧
      p.generationId = current.generationId) ∧
    s' = { s with pins := s.pins.set p.evaluationId ⟨p, e.sequence⟩ } := by
  simp only [applyPin, bind_eq_ok, require_eq_ok, exists_const, requireId_eq_ok]
  constructor
  · rintro ⟨_, ⟨safe, rfl⟩, fits, result⟩
    cases result
    exact ⟨safe, fits, rfl⟩
  · rintro ⟨safe, fits, rfl⟩
    exact ⟨_, ⟨safe, rfl⟩, fits, rfl⟩

theorem applyUnpin_eq_ok {p : Pin} : applyUnpin s p = .ok s' ↔ isSafeId p.evaluationId = true ∧
    (∃ pin, s.pins.get p.evaluationId = some pin ∧ p.suiteId = pin.payload.suiteId ∧
      p.championSha256 = pin.payload.championSha256 ∧ p.generationId = pin.payload.generationId) ∧
    s' = { s with pins := s.pins.erase p.evaluationId } := by
  simp only [applyUnpin, bind_eq_ok, requireId_eq_ok]
  constructor
  · rintro ⟨_, ⟨safe, rfl⟩, rest⟩
    cases found : s.pins.get p.evaluationId with
    | none =>
      rw [found] at rest
      cases rest
    | some pin =>
      rw [found] at rest
      simp only [bind_eq_ok, require_eq_ok, exists_const] at rest
      obtain ⟨fits, result⟩ := rest
      cases result
      exact ⟨safe, ⟨pin, rfl, fits⟩, rfl⟩
  · rintro ⟨safe, ⟨pin, found, fits⟩, rfl⟩
    refine ⟨_, ⟨safe, rfl⟩, ?_⟩
    rw [found]
    simp only [bind_eq_ok, require_eq_ok, exists_const]
    exact ⟨fits, rfl⟩

theorem applyRequest_eq_ok {p : Request} : c.applyRequest store s current active e p = .ok s' ↔
    isSafeId p.requestId = true ∧ s.requests.get p.requestId = none ∧
    (p.baseSuiteId = active ∧ p.championSha256 = current.sha256 ∧ p.generationId = current.generationId) ∧
    (∃ request, c.validateRequestBinding store p.requestManifest p.requestId = .ok request ∧
      (rotationEligibility s.activeSuiteActivatedAt s.acceptedChampionTimestamps e.timestamp).eligible = true ∧
      p.triggerAt = (rotationEligibility s.activeSuiteActivatedAt s.acceptedChampionTimestamps e.timestamp).triggerAt ∧
      request.baseSuiteId = active ∧ request.champion.sha256 = current.sha256) ∧
    s' = { s with requests := s.requests.set p.requestId ⟨p, e.sequence⟩ } := by
  simp only [applyRequest, bind_eq_ok, require_eq_ok, exists_const, requireId_eq_ok]
  constructor
  · rintro ⟨_, ⟨safe, rfl⟩, fresh, current, request, valid, fits, result⟩
    cases result
    exact ⟨safe, fresh, current, ⟨request, valid, fits⟩, rfl⟩
  · rintro ⟨safe, fresh, current, ⟨request, valid, fits⟩, rfl⟩
    exact ⟨_, ⟨safe, rfl⟩, fresh, current, request, valid, fits, rfl⟩

theorem applyRegistration_eq_ok {p : Registration} : c.applyRegistration store s e p = .ok s' ↔
    isSha256 p.suiteId = true ∧ isSafeId p.requestId = true ∧ ∃ request version, s.requests.get p.requestId = some request ∧
    s.registrations.get p.suiteId = none ∧ c.loadVersion store p.suiteId = .ok version ∧
    (p.versionSha256 = version.versionSha256 ∧ p.manifestSha256 = version.manifestSha256 ∧
      p.manifestIdentity = version.manifestIdentity ∧ p.curationChampionSha256 = request.payload.championSha256 ∧
      version.championSha256 = request.payload.championSha256) ∧
    s' = { s with
      versions := s.versions.set p.suiteId version
      registrations := s.registrations.set p.suiteId ⟨p, e.sequence⟩ } := by
  simp only [applyRegistration, bind_eq_ok, requireId_eq_ok, requireSha256_eq_ok]
  constructor
  · rintro ⟨_, ⟨hash, rfl⟩, _, ⟨safe, rfl⟩, rest⟩
    cases found : s.requests.get p.requestId with
    | none =>
      rw [found] at rest
      cases rest
    | some request =>
      rw [found] at rest
      simp only [bind_eq_ok, require_eq_ok, exists_const] at rest
      obtain ⟨fresh, version, loaded, fits, result⟩ := rest
      cases result
      exact ⟨hash, safe, request, version, rfl, fresh, loaded, fits, rfl⟩
  · rintro ⟨hash, safe, request, version, found, fresh, loaded, fits, rfl⟩
    refine ⟨_, ⟨hash, rfl⟩, _, ⟨safe, rfl⟩, ?_⟩
    rw [found]
    simp only [bind_eq_ok, require_eq_ok, exists_const]
    exact ⟨fresh, version, loaded, fits, rfl⟩

theorem applyContinuity_eq_ok {p : Continuity} : c.applyContinuity store s current e p = .ok s' ↔
    isSha256 p.suiteId = true ∧ isSafeId p.requestId = true ∧
    ((s.registrations.get p.suiteId).map (fun r => r.payload.requestId) = some p.requestId ∧
      s.continuity.get p.suiteId = none ∧ p.currentChampionSha256 = current.sha256 ∧
      p.previousChampionSha256 = s.previousChampionSha256) ∧
    (∃ request, s.requests.get p.requestId = some request ∧ ∃ receipt, c.validateContinuityBinding store p.manifest
      p.requestId p.suiteId request.payload.baseSuiteId current.sha256 s.previousChampionSha256 = .ok receipt) ∧
    s' = { s with continuity := s.continuity.set p.suiteId ⟨p, e.sequence⟩ } := by
  simp only [applyContinuity, bind_eq_ok, require_eq_ok, exists_const, requireId_eq_ok, requireSha256_eq_ok]
  constructor
  · rintro ⟨_, ⟨hash, rfl⟩, _, ⟨safe, rfl⟩, fits, rest⟩
    cases found : s.requests.get p.requestId with
    | none =>
      rw [found] at rest
      cases rest
    | some request =>
      rw [found] at rest
      simp only [bind_eq_ok] at rest
      obtain ⟨receipt, valid, result⟩ := rest
      cases result
      exact ⟨hash, safe, fits, ⟨request, rfl, receipt, valid⟩, rfl⟩
  · rintro ⟨hash, safe, fits, ⟨request, found, receipt, valid⟩, rfl⟩
    refine ⟨_, ⟨hash, rfl⟩, _, ⟨safe, rfl⟩, fits, ?_⟩
    rw [found]
    simp only [bind_eq_ok]
    exact ⟨receipt, valid, rfl⟩

theorem applyBoundary_eq_ok {p : Boundary} : applyBoundary s current e p = .ok s' ↔ isSafeId p.boundaryId = true ∧
    (s.boundaries.get p.boundaryId = none ∧ p.championSha256 = current.sha256 ∧
      p.generationId = current.generationId ∧ p.clean = true) ∧
    s' = { s with boundaries := s.boundaries.set p.boundaryId ⟨p, e.sequence⟩ } := by
  simp only [applyBoundary, bind_eq_ok, require_eq_ok, exists_const, requireId_eq_ok]
  constructor
  · rintro ⟨_, ⟨safe, rfl⟩, fits, result⟩
    cases result
    exact ⟨safe, fits, rfl⟩
  · rintro ⟨safe, fits, rfl⟩
    exact ⟨_, ⟨safe, rfl⟩, fits, rfl⟩

theorem applyActivation_eq_ok {p : Activation} : applyActivation s current active e p = .ok s' ↔
    isSha256 p.suiteId = true ∧ isSafeId p.requestId = true ∧ (∃ registration receipt request boundary,
      s.registrations.get p.suiteId = some registration ∧ s.continuity.get p.suiteId = some receipt ∧
      s.requests.get p.requestId = some request ∧ s.boundaries.get p.boundaryId = some boundary ∧
      registration.payload.requestId = p.requestId ∧ receipt.payload.requestId = p.requestId ∧
      p.previousSuiteId = active ∧ request.payload.baseSuiteId = active ∧ p.expectedChampionSha256 = current.sha256 ∧
      p.generationId = current.generationId ∧ boundary.payload.championSha256 = current.sha256 ∧
      boundary.payload.generationId = current.generationId ∧ receipt.sequence < boundary.sequence ∧
      s.pins.isEmpty = true ∧ p.continuityManifestSha256 = receipt.payload.manifest.sha256) ∧
    s' = { s with
      activeSuiteId := some p.suiteId
      activeSuiteActivatedAt := some e.timestamp
      activeActivationSequence := e.sequence
      acceptedChampionTimestamps := [] } := by
  simp only [applyActivation, bind_eq_ok, requireId_eq_ok, requireSha256_eq_ok]
  constructor
  · rintro ⟨_, ⟨hash, rfl⟩, _, ⟨safe, rfl⟩, rest⟩
    split at rest
    next registration receipt request boundary registered recorded requested observed =>
      simp only [bind_eq_ok, require_eq_ok, exists_const] at rest
      obtain ⟨fits, result⟩ := rest
      cases result
      exact ⟨hash, safe, ⟨registration, receipt, request, boundary, registered, recorded, requested, observed, fits⟩, rfl⟩
    next => cases rest
  · rintro ⟨hash, safe, ⟨registration, receipt, request, boundary, registered, recorded, requested, observed, fits⟩, rfl⟩
    refine ⟨_, ⟨hash, rfl⟩, _, ⟨safe, rfl⟩, ?_⟩
    rw [registered, recorded, requested, observed]
    simp only [bind_eq_ok, require_eq_ok, exists_const]
    exact ⟨fits, rfl⟩

/-- What an event changes once the registry has been bootstrapped. -/
def applyCurrent (c : Registry) (store : Store) (s : RegistryState) (current : Champion) (active : String) (e : RegistryEvent) :
    Payload → Except Error RegistryState
  | .bootstrapped p => c.applyBootstrap store s e p
  | .accepted p => c.applyAcceptance s current e p
  | .pinned p => applyPin s current active e p
  | .unpinned p => applyUnpin s p
  | .requested p => c.applyRequest store s current active e p
  | .registered p => c.applyRegistration store s e p
  | .continuity p => c.applyContinuity store s current e p
  | .boundary p => applyBoundary s current e p
  | .activated p => applyActivation s current active e p

/-- An event before the bootstrap is not read. -/
theorem applyPayload_eq_ok {payload : Payload} (later : ∀ p, payload ≠ .bootstrapped p) :
    c.applyPayload store s e payload = .ok s' ↔ ∃ current active, s.currentChampion = some current ∧
      s.activeSuiteId = some active ∧ c.applyCurrent store s current active e payload = .ok s' := by
  have early (absent : s.currentChampion = none ∨ s.activeSuiteId = none) :
      c.applyPayload store s e payload = .error (.corruption "registry bootstrap must be first") := by
    cases payload with
    | bootstrapped p => exact absurd rfl (later p)
    | _ =>
      rw [applyPayload]
      · split
        · simp_all
        · rfl
      · simp
  cases champion : s.currentChampion with
  | none =>
    rw [early (.inl champion)]
    constructor
    · intro failed
      cases failed
    · rintro ⟨_, _, found, -⟩
      cases found
  | some current =>
    cases suite : s.activeSuiteId with
    | none =>
      rw [early (.inr suite)]
      constructor
      · intro failed
        cases failed
      · rintro ⟨_, _, -, found, -⟩
        cases found
    | some active =>
      have unfolded : c.applyPayload store s e payload = c.applyCurrent store s current active e payload := by
        cases payload with
        | bootstrapped p => exact absurd rfl (later p)
        | _ => simp only [applyPayload, applyCurrent, champion, suite]
      rw [unfolded]
      constructor
      · intro run
        exact ⟨current, active, rfl, rfl, run⟩
      · rintro ⟨_, _, ⟨⟩, ⟨⟩, run⟩
        exact run

theorem applyBootstrap_eq_ok {p : Bootstrap} : c.applyBootstrap store s e p = .ok s' ↔
    (s.events = [] ∧ s.activeSuiteId = none) ∧ ∃ version champion, c.loadVersion store p.suiteId = .ok version ∧
    c.validateModelEvent p.champion = .ok champion ∧ isSafeId p.generationId = true ∧
    (∀ previous ∈ p.previousChampionSha256, isSha256 previous = true ∧ previous ≠ champion.sha256) ∧
    (p.versionSha256 = version.versionSha256 ∧ p.manifestSha256 = version.manifestSha256 ∧
      p.manifestIdentity = version.manifestIdentity ∧ champion.sha256 = c.spec.initialChampion.sha256 ∧
      champion.path = c.spec.initialChampion.path ∧ p.generationId = c.spec.initialChampion.generationId ∧
      version.championSha256 = c.spec.curationChampion.sha256 ∧ p.activatedAt = e.timestamp) ∧
    s' = { s with
      versions := s.versions.set p.suiteId version
      currentChampion := some ⟨champion, p.generationId⟩
      championHistory := s.championHistory.set champion.sha256 ⟨champion, p.generationId⟩
      previousChampionSha256 := p.previousChampionSha256
      activeSuiteId := some p.suiteId
      activeSuiteActivatedAt := some e.timestamp
      activeActivationSequence := e.sequence
      acceptedChampionTimestamps := [] } := by
  obtain ⟨suiteId, versionSha256, manifestSha256, manifestIdentity, model, previous, generationId, activatedAt⟩ := p
  cases previous with
  | none =>
    simp only [applyBootstrap, bind_eq_ok, require_eq_ok, exists_const, requireId_eq_ok]
    constructor
    · rintro ⟨first, version, loaded, champion, valid, _, ⟨safe, rfl⟩, fits, result⟩
      cases result
      exact ⟨first, version, champion, loaded, valid, safe, fun _ none => (nomatch none), fits, rfl⟩
    · rintro ⟨first, version, champion, loaded, valid, safe, -, fits, rfl⟩
      exact ⟨first, version, loaded, champion, valid, _, ⟨safe, rfl⟩, fits, rfl⟩
  | some previous =>
    simp only [applyBootstrap, bind_eq_ok, require_eq_ok, exists_const, requireId_eq_ok, requireSha256_eq_ok]
    constructor
    · rintro ⟨first, version, loaded, champion, valid, _, ⟨safe, rfl⟩, _, ⟨hash, rfl⟩, different, fits, result⟩
      cases result
      refine ⟨first, version, champion, loaded, valid, safe, ?_, fits, rfl⟩
      rintro _ ⟨⟩
      exact ⟨hash, different⟩
    · rintro ⟨first, version, champion, loaded, valid, safe, every, fits, rfl⟩
      obtain ⟨hash, different⟩ := every previous rfl
      exact ⟨first, version, loaded, champion, valid, _, ⟨safe, rfl⟩, _, ⟨hash, rfl⟩, different, fits, rfl⟩

/-- What is asked of an event file besides what its payload needs. -/
theorem applyEvent_eq_ok {n : Nat} : c.applyEvent store s (n, e) = .ok s' ↔
    n = s.lastSequence + 1 ∧ e.sequence = n ∧ isSha256 e.eventSha256 = true ∧
    e.eventSha256 = c.canonicalSha256 (e.bodyJson c) ∧ isSha256 e.previousEventSha256 = true ∧
    e.previousEventSha256 = s.lastEventSha256 ∧ (∀ last ∈ s.events.getLast?, last.timestamp ≤ e.timestamp) ∧
    ∃ s₁, c.applyPayload store s e e.payload = .ok s₁ ∧
      s' = { s₁ with
        events := s₁.events ++ [e]
        lastSequence := s₁.lastSequence + 1
        lastEventSha256 := e.eventSha256 } := by
  simp only [applyEvent, parseEvent, bind_eq_ok, require_eq_ok, exists_const, requireSha256_eq_ok]
  constructor
  · rintro ⟨number, _, ⟨⟨sequence, hash, own⟩, _, ⟨previous, rfl⟩, -⟩, chained, ordered, s₁, run, result⟩
    cases result
    exact ⟨number, sequence, hash, own, previous, chained, ordered, s₁, run, rfl⟩
  · rintro ⟨number, sequence, hash, own, previous, chained, ordered, s₁, run, rfl⟩
    exact ⟨number, (), ⟨⟨sequence, hash, own⟩, _, ⟨previous, rfl⟩, rfl⟩, chained, ordered, s₁, run, rfl⟩

end Checks

end Registry
end KataGo.Suite
