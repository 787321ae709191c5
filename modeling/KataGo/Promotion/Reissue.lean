import KataGo.Promotion.Answers
import KataGo.Promotion.Progress

/-! Requests that are issued again: a request that was recorded is not recorded a second time,
except where a candidate goes back to an evaluation key that its confirmation has left. -/

namespace KataGo.Promotion
open KataGo.Lib

variable {F : Type} [Runtime F] {registry : EventRegistry} {state : RegistryState F} {now : String}

section Reentry

open EventRegistry

variable {request : CandidateRequest F} {existing : CandidateRecord} {merged : JsonObject F}

/-- The path that the payload of a request says the candidate comes from. -/
def CandidateRequest.suppliedPath (request : CandidateRequest F) : Json F :=
  match request.payload with
  | .obj fields => Json.get fields "previous_candidate_path"
  | _ => .null

/-- The candidate is being confirmed under another key than that of the request, whose champion is
still the current one and whose payload does not contradict the path of the candidate. -/
structure CandidateRequest.Reenters (request : CandidateRequest F) (state : RegistryState F)
    (existing : CandidateRecord) : Prop where
  present : state.candidates.get request.candidateHash = some existing
  reentry : request.confirmationReentry existing
  champion : state.currentChampionHash = some request.championHash
  path : request.suppliedPath.isNull = true ∨
    existing.candidatePath ≠ request.candidatePath ∧ request.suppliedPath.isStr existing.candidatePath = true
  room : state.lastSequence + 1 < 10 ^ eventSequenceWidth

theorem JsonObject.copy_eq_ok {value : Json F} {keyed : value.keyed = true} {object : JsonObject F} :
    JsonObject.copy value keyed = .ok object ↔ copyJsonObject value = .ok object.fields := by
  unfold JsonObject.copy
  split
  next e failed => simp [failed]
  next fields copied =>
    constructor
    · intro same
      cases same
      exact copied
    · intro same
      obtain ⟨fields', keyed'⟩ := object
      cases copied.symm.trans same
      rfl

/-- A copied payload has the supplied path. -/
theorem copy_suppliedPath {copied : JsonObject F} (copy : JsonObject.copy request.payload request.keyed = .ok copied) :
    Json.get copied.fields "previous_candidate_path" = request.suppliedPath.sorted := by
  replace copy := JsonObject.copy_eq_ok.mp copy
  have keyed := request.keyed
  have writable : request.payload.isNull = false → request.payload.encodable = true := by
    intro present
    obtain ⟨data, bytes, -⟩ := bind_eq_ok.mp copy
    rw [present] at bytes
    exact (canonicalJsonBytes_eq_ok.mp bytes).1
  unfold CandidateRequest.suppliedPath
  cases payload : request.payload with
  | null =>
    rw [payload] at copy
    have empty : copyJsonObject (.null : Json F) = .ok [] := (copy_copied copied_nil)
    rw [← Except.ok.inj (empty.symm.trans copy)]
    rfl
  | obj fields =>
    rw [payload] at copy keyed
    exact get_copy keyed copy
  | _ =>
    rw [payload] at copy keyed writable
    rw [copyJsonObject_eq rfl (writable rfl) keyed] at copy
    cases copy

/-- The registry that a readable log leads to, and what an accepted event does to it. -/
theorem apply_of_accepted {transition : String} {args : EventArgs F} {timestampUtc : Option String} {t : Transition}
    {timestamp : String} {b : RegistryBuilder} (accepted : rebuild state.events = .ok b)
    (legal : Accepted registry state transition args timestampUtc now t timestamp) :
    ∃ payload eventHash b', copyJsonObject args.payload = .ok payload ∧
      state.lastSequence + 1 < 10 ^ eventSequenceWidth ∧
      b.apply (args.event (state.lastSequence + 1) state.lastEventHash timestamp t payload eventHash) = .ok b' := by
  obtain ⟨event, next, built, made⟩ := legal.legal
  obtain ⟨payload, eventHash, copy, -, -, rfl, -, -, short⟩ := build_eq_ok built
  obtain ⟨b', rebuilt, -⟩ := stateFromEvents_eq_ok made
  obtain ⟨b₁, before, step⟩ := replay_concat.mp rebuilt
  cases accepted.symm.trans before
  exact ⟨payload, eventHash, b', copy, short, step⟩

omit [Runtime F] in
/-- The payload that a request is merged to, and its path. -/
theorem mergePreviousPath_eq_ok {recorded path : String} {copied : JsonObject F} :
    mergePreviousPath recorded path copied = .ok merged ↔
      if recorded = path then merged = copied
      else ((Json.get copied.fields "previous_candidate_path").isNull = true ∨
        (Json.get copied.fields "previous_candidate_path").isStr recorded = true) ∧
          merged = copied.setStr "previous_candidate_path" recorded := by
  unfold mergePreviousPath
  by_cases same : recorded = path
  · simp [same, eq_comm]
  · rw [if_pos same, if_neg same]
    simp only [bind_eq_ok, require_eq_ok, exists_const]
    constructor
    · rintro ⟨fits, result⟩
      cases result
      exact ⟨fits, rfl⟩
    · rintro ⟨fits, rfl⟩
      exact ⟨fits, rfl⟩

/-- The arguments that a candidate request appends with. -/
def CandidateRequest.eventArgs (request : CandidateRequest F) (merged : JsonObject F) : EventArgs F :=
  request.args (some (request.candidateHash, request.candidatePath)) request.evaluationKey merged

omit [Runtime F] in
/-- What a candidate event checks of the path that the candidate comes from. -/
theorem checkMove_of_apply {b b' : RegistryBuilder} {e : PromotionEvent F} {target : CandidateState}
    (named : e.transition.candidateTarget = some target) (accepted : b.apply e = .ok b') {hash path : String}
    (candidate : e.candidateHash = some hash) (located : e.candidatePath = some path) :
    RegistryBuilder.checkMove (b.candidates.get hash) hash path (Json.get e.payload "previous_candidate_path") = .ok () ∧
      b.currentChampionHash = some e.championHash := by
  obtain ⟨-, -, accepted⟩ := (apply_candidate_iff named).mp accepted
  simp only [RegistryBuilder.applyCandidate, bind_eq_ok, require_eq_ok, exists_const] at accepted
  obtain ⟨identity, valid, champion, -⟩ := accepted
  simp only [RegistryBuilder.validateCandidateIdentity, candidate, located, bind_eq_ok, require_eq_ok,
    exists_const] at valid
  obtain ⟨-, _, move, -⟩ := valid
  exact ⟨move, champion.symm⟩

/-- A request that repeats an event of the log is accepted only as a reentry. -/
theorem reenters_of_accepted {event : PromotionEvent F} {timestampUtc : Option String}
    {t : Transition} {timestamp : String} (made : stateFromEvents state.events = .ok state)
    (member : event ∈ state.events) (named : event.transition = request.target.transition)
    (candidate : event.candidateHash = some request.candidateHash) (merges : request.Merges state merged)
    (accepted : Accepted registry state request.target.transition.value (request.eventArgs merged) timestampUtc now t
      timestamp) :
    ∃ existing, request.Reenters state existing := by
  obtain rfl := accepted_transition accepted
  obtain ⟨b, rebuilt, candidates, -, champion, -⟩ := stateFromEvents_eq_ok made
  obtain ⟨payload, eventHash, b', copy, room, step⟩ := apply_of_accepted rebuilt accepted
  have target := candidateTarget_transition request.target
  obtain ⟨confirming, existing, present, same⟩ := candidate_repeats rebuilt member (by rw [named]; exact target)
    candidate target (show _ = some request.candidateHash from rfl) step
  obtain ⟨move, current⟩ := checkMove_of_apply target step (show _ = some request.candidateHash from rfl)
    (show _ = some request.candidatePath from rfl)
  obtain ⟨copied, supplied, merge⟩ := merges
  rw [candidates, present] at merge
  obtain ⟨moves, merge⟩ := merge
  have path : Json.get payload "previous_candidate_path" = (Json.get merged.fields "previous_candidate_path").sorted :=
    get_copy merged.keyed copy
  have reentry : request.confirmationReentry existing := by
    by_contra other
    exact moves ⟨same, other⟩
  refine ⟨existing, by rw [candidates]; exact present, reentry, champion.trans current, ?_, room⟩
  rw [mergePreviousPath_eq_ok, copy_suppliedPath supplied] at merge
  rw [present, RegistryBuilder.checkMove] at move
  by_cases moved : existing.candidatePath = request.candidatePath
  · rw [if_pos moved] at merge
    subst merge
    rw [if_neg (not_not.mpr moved.symm), require_eq_ok] at move
    have null : (Json.get payload "previous_candidate_path").isNull = true := move
    rw [path, copy_suppliedPath supplied] at null
    exact .inl (by simpa using null)
  · rw [if_neg moved] at merge
    obtain ⟨fits, -⟩ := merge
    rcases fits with null | given
    · exact .inl (by simpa using null)
    · exact .inr ⟨moved, by simpa using given⟩

/-- The payload of a reentry can be merged, and what it then says about the path is accepted. -/
theorem CandidateRequest.Reenters.merges {copied : JsonObject F} (reenters : request.Reenters state existing)
    (copy : JsonObject.copy request.payload request.keyed = .ok copied) :
    ∃ merged, request.Merges state merged ∧
      mergePreviousPath existing.candidatePath request.candidatePath copied = .ok merged ∧
      ∀ hash, RegistryBuilder.checkMove (some existing) hash request.candidatePath
        (Json.get merged.fields "previous_candidate_path").sorted = .ok () := by
  have supplied := copy_suppliedPath copy
  have moves : ¬(existing.state = request.target ∧ ¬request.confirmationReentry existing) :=
    fun stays => stays.2 reenters.reentry
  by_cases moved : existing.candidatePath = request.candidatePath
  · have merge : mergePreviousPath existing.candidatePath request.candidatePath copied = .ok copied := by
      rw [mergePreviousPath_eq_ok, if_pos moved]
    refine ⟨copied, ⟨copied, copy, by rw [reenters.present]; exact ⟨moves, merge⟩⟩, merge, ?_⟩
    intro hash
    have null : request.suppliedPath.isNull = true := reenters.path.resolve_right fun other => other.1 moved
    rw [RegistryBuilder.checkMove, if_neg (not_not.mpr moved.symm), require_eq_ok, isNull_sorted, supplied, isNull_sorted]
    exact null
  · have merge : mergePreviousPath existing.candidatePath request.candidatePath copied =
        .ok (copied.setStr "previous_candidate_path" existing.candidatePath) := by
      rw [mergePreviousPath_eq_ok, if_neg moved, supplied, isNull_sorted, isStr_sorted]
      exact ⟨reenters.path.imp_right And.right, rfl⟩
    refine ⟨_, ⟨copied, copy, by rw [reenters.present]; exact ⟨moves, merge⟩⟩, merge, ?_⟩
    intro hash
    have set : Json.get (copied.setStr "previous_candidate_path" existing.candidatePath).fields
        "previous_candidate_path" = .str existing.candidatePath := (get_setField _ _ _ _).trans (if_pos rfl)
    rw [RegistryBuilder.checkMove, if_pos (Ne.symm moved), require_eq_ok, set]
    exact Json.isStr_iff.mpr rfl

omit [Runtime F] in
/-- The event that moves a candidate on, with the registry after it. -/
theorem apply_advance {b : RegistryBuilder} {e : PromotionEvent F} {hash path : String} {target : CandidateState}
    {tested key : Option String} (named : e.transition.candidateTarget = some target) (later : target ≠ .discovered)
    (candidate : e.candidateHash = some hash) (located : e.candidatePath = some path)
    (original : b.originalHash = some e.originalHash) (known : b.pathToHash.get path = some hash)
    (champion : b.currentChampionHash = some e.championHash) (present : b.candidates.get hash = some existing)
    (legal : target ∈ existing.state.legalTransitions)
    (evaluation : RegistryBuilder.evaluationAfter existing target e = .ok (tested, key))
    (move : RegistryBuilder.checkMove (some existing) hash path (Json.get e.payload "previous_candidate_path") = .ok ()) :
    b.apply e = .ok { b.located e hash path with
      candidates := b.candidates.set hash { existing with
        candidatePath := path
        state := target
        testedChampionHash := tested
        evaluationKey := key
        lastSequence := e.sequence } } := by
  have valid : (b.opened e).validateCandidateIdentity e = .ok (hash, path) := by
    simp only [RegistryBuilder.validateCandidateIdentity, candidate, located, bind_eq_ok, require_eq_ok, exists_const]
    refine ⟨.inr known, (), ?_, rfl⟩
    rw [show (b.opened e).candidates.get hash = some existing from present]
    exact move
  refine (apply_candidate_iff named).mpr ⟨.inr original, by rw [champion]; exact Option.some_ne_none _, ?_⟩
  rw [RegistryBuilder.applyCandidate]
  refine bind_eq_ok.mpr ⟨_, valid, bind_eq_ok.mpr ⟨(), require_eq_ok.mpr champion.symm, ?_⟩⟩
  rw [if_neg later]
  unfold RegistryBuilder.advanceCandidate
  rw [show ((b.opened e).recordPath hash path).candidates.get hash = some existing from present]
  exact bind_eq_ok.mpr ⟨(), require_eq_ok.mpr legal, bind_eq_ok.mpr ⟨_, evaluation, rfl⟩⟩

omit [Runtime F] in
theorem evaluationAfter_of_evaluating {target : CandidateState} {e : PromotionEvent F}
    (evaluating : target.isEvaluating = true) (key : e.evaluationKey ≠ none) :
    RegistryBuilder.evaluationAfter existing target e = .ok (some e.championHash, e.evaluationKey) := by
  rw [RegistryBuilder.evaluationAfter, if_pos evaluating]
  exact bind_eq_ok.mpr ⟨(), require_eq_ok.mpr key, rfl⟩

/-- The directory of a log that is not empty can be written to. -/
theorem path_of_mem {event : PromotionEvent F} (readable : registry.reconstruct = .ok state)
    (member : event ∈ state.events) : registry.path ≠ .notADirectory := by
  intro path
  simp only [reconstruct, eventPaths, path, bind_eq_ok] at readable
  obtain ⟨files, none, events, read, made⟩ := readable
  cases none
  cases read
  rw [stateFromEvents, bind_eq_ok] at made
  obtain ⟨b, -, result⟩ := made
  cases result
  cases member

theorem setStr_encodable {object : JsonObject F} {key value : String}
    (writable : (Json.obj object.fields).encodable = true) :
    (Json.obj (object.setStr key value).fields).encodable = true := by
  have fields := Json.encodableFields_iff.mp writable
  apply Json.encodableFields_iff.mpr
  intro field member
  replace member : field ∈ setField object.fields key (.str value) := member
  unfold setField at member
  split at member
  next =>
    obtain ⟨old, present, rfl⟩ := List.mem_map.mp member
    split
    next => rfl
    next => exact fields old present
  next =>
    rcases List.mem_append.mp member with old | new
    · exact fields field old
    · rw [List.mem_singleton.mp new]
      rfl

theorem merged_encodable {recorded path : String} {copied : JsonObject F}
    (copy : JsonObject.copy request.payload request.keyed = .ok copied)
    (merge : mergePreviousPath recorded path copied = .ok merged) : (Json.obj merged.fields).encodable = true := by
  have writable := (copied_of_copy request.keyed (JsonObject.copy_eq_ok.mp copy)).writable
  rw [mergePreviousPath_eq_ok] at merge
  split at merge
  next =>
    rw [merge]
    exact writable
  next =>
    rw [merge.2]
    exact setStr_encodable writable

/-- Arguments that were accepted once pass the checks that do not look at the registry at any time. -/
theorem checkArguments_later {transition : String} {args : EventArgs F} {timestampUtc : Option String}
    {later timestamp : String} {t : Transition}
    (before : checkArguments transition args timestampUtc now = .ok (t, timestamp))
    (clock : validateUtcTimestamp (.str later : Json F) "timestamp_utc" = .ok later) :
    ∃ timestamp', checkArguments transition args timestampUtc later = .ok (t, timestamp') ∧
      validateUtcTimestamp (.str timestamp' : Json F) "timestamp_utc" = .ok timestamp' := by
  cases known : Transition.ofValue transition with
  | none =>
    rw [checkArguments, known] at before
    cases before
  | some named =>
  rw [checkArguments, known] at before ⊢
  simp only [bind_eq_ok] at before ⊢
  obtain ⟨normalized, known, _, champion, _, reason, _, actor, _, candidate, _, path, result⟩ := before
  cases timestampUtc with
  | none =>
    cases result
    exact ⟨later, ⟨_, known, _, champion, _, reason, _, actor, _, candidate, _, path, rfl⟩, clock⟩
  | some given =>
    obtain ⟨valid, time, result⟩ := bind_eq_ok.mp result
    cases result
    cases validateUtcTimestamp_returns _ _ _ time
    exact ⟨_, ⟨_, known, _, champion, _, reason, _, actor, _, candidate, _, path, bind_eq_ok.mpr ⟨_, time, rfl⟩⟩, time⟩

/-- A request that was recorded is accepted again as a reentry. -/
theorem accepted_of_reenters {before : EventRegistry} {old : RegistryState F} {first : JsonObject F}
    {event : PromotionEvent F} {timestampUtc : Option String} {timestamp earlier later : String}
    (numbers : Json.withinDigits F eventSequenceWidth = true)
    (clock : validateUtcTimestamp (.str later : Json F) "timestamp_utc" = .ok later)
    (recorded : Accepted before old request.target.transition.value (request.eventArgs first) timestampUtc earlier
      request.target.transition timestamp)
    (built : build (request.eventArgs first) (old.lastSequence + 1) old.lastEventHash timestamp
      request.target.transition = .ok event)
    (readable : registry.reconstruct = .ok state) (member : event ∈ state.events)
    (reenters : request.Reenters state existing) (merges : request.Merges state merged) :
    ∃ timestamp', Accepted registry state request.target.transition.value (request.eventArgs merged) timestampUtc later
      request.target.transition timestamp' := by
  obtain ⟨-, -, -, made, -⟩ := reconstruct_eq_ok readable
  obtain ⟨b, rebuilt, candidates, -, champion, -⟩ := stateFromEvents_eq_ok made
  obtain ⟨payload, eventHash, -, -, -, rfl, -⟩ := build_eq_ok built
  obtain ⟨original, paths⟩ := identities_kept rebuilt member
  have target := candidateTarget_transition request.target
  have known := paths request.target request.candidateHash request.candidatePath target rfl rfl
  obtain ⟨same, confirming, key, -⟩ := reenters.reentry
  have fit := fit_of_build built
  obtain ⟨timestamp', arguments, time⟩ := checkArguments_later recorded.arguments clock
  obtain ⟨copied, copy, -⟩ := id merges
  obtain ⟨merged', merges', merge, move⟩ := reenters.merges copy
  obtain rfl : merged' = merged := by
    obtain ⟨copied', copy', result⟩ := merges
    rw [reenters.present] at result
    cases copy.symm.trans copy'
    exact Except.ok.inj (merge.symm.trans result.2)
  have copy' : copyJsonObject (request.eventArgs merged').payload = .ok (sortFields merged'.fields) :=
    copyJsonObject_eq rfl (merged_encodable copy merge) merged'.keyed
  have positive : 1 ≤ state.lastSequence + 1 := by
    obtain ⟨found, -, read, -⟩ := reconstruct_eq_ok readable
    rw [(next_number read made).1]
    omega
  obtain ⟨eventHash', built'⟩ := build_of_fit (t := request.target.transition)
    (show Fit (request.eventArgs merged') from ⟨fit.champion, fit.reason, fit.actor, fit.key, fit.both, fit.candidate,
      fit.path⟩) numbers copy' positive reenters.room (lastEventHash_isSha256 readable) time
  have sorted : Json.get (sortFields merged'.fields) "previous_candidate_path" =
      (Json.get merged'.fields "previous_candidate_path").sorted := get_sortFields merged'.keyed _
  have legal : request.target ∈ existing.state.legalTransitions := by
    rw [same, confirming]
    decide
  have step := apply_advance (b := b) (e := (request.eventArgs merged').event (state.lastSequence + 1)
      state.lastEventHash timestamp' request.target.transition (sortFields merged'.fields) eventHash')
    target (by rw [confirming]; decide) rfl rfl original known (champion.symm.trans reenters.champion)
    (by rw [← candidates]; exact reenters.present) legal
    (evaluationAfter_of_evaluating (by rw [confirming]; rfl) key) (by
      show RegistryBuilder.checkMove _ _ _ (Json.get (sortFields merged'.fields) _) = _
      rw [sorted]
      exact move _)
  have legal : ∃ next, stateFromEvents (state.events ++ [(request.eventArgs merged').event (state.lastSequence + 1)
      state.lastEventHash timestamp' request.target.transition (sortFields merged'.fields) eventHash']) = .ok next :=
    ⟨_, bind_eq_ok.mpr ⟨_, replay_concat.mpr ⟨b, rebuilt, step⟩, rfl⟩⟩
  obtain ⟨next, legal⟩ := legal
  exact ⟨timestamp', arguments, ⟨_, next, built', legal⟩, path_of_mem readable member⟩

end Reentry

section Reissue

open EventRegistry

variable [NumberEq F] {request : Request F} {others : List (Request F × String)} {later : String}

/-- Issuing the request records nothing: it returns an event of the log, or it raises an error. -/
def RecordsNothing (request : Request F) (registry : EventRegistry) (now : String) : Prop :=
  (request.issue registry now).2 = registry ∧
    ∀ returned, (request.issue registry now).1 = .ok returned →
      ∃ (state : RegistryState F) (event : PromotionEvent F), registry.reconstruct = .ok state ∧
        event ∈ state.events ∧ returned = some event

/-- The requests that move a candidate or a generation, pin a reference or bootstrap the champion. -/
def Request.isRetryable : Request F → Bool
  | .bootstrap _ | .candidate _ | .generation _ | .pin _ => true
  | .unpin _ | .direct _ _ _ => false

/-- The request takes a candidate back to an evaluation key that its confirmation has left. -/
def Request.Reenters (request : Request F) (registry : EventRegistry) : Prop :=
  match request with
  | .candidate request => ∃ (state : RegistryState F) (existing : CandidateRecord),
      registry.reconstruct = .ok state ∧ request.Reenters state existing
  | _ => False

/-- A retryable request reads the registry before it answers. -/
theorem readable_of_answered {answer : Answer F} (retryable : request.isRetryable = true)
    (answered : request.answer registry = .ok answer) :
    ∃ state : RegistryState F, registry.reconstruct = .ok state := by
  cases request with
  | bootstrap request =>
    simp only [Request.answer, BootstrapRequest.answer, bind_eq_ok] at answered
    obtain ⟨state, readable, -⟩ := answered
    exact ⟨state, readable⟩
  | candidate request =>
    simp only [Request.answer, CandidateRequest.answer, bind_eq_ok] at answered
    obtain ⟨state, readable, -⟩ := answered
    exact ⟨state, readable⟩
  | generation request =>
    simp only [Request.answer, GenerationRequest.answer, bind_eq_ok] at answered
    obtain ⟨-, -, state, readable, -⟩ := answered
    exact ⟨state, readable⟩
  | pin request =>
    simp only [Request.answer, PinRequest.answer, bind_eq_ok] at answered
    obtain ⟨state, readable, -⟩ := answered
    exact ⟨state, readable⟩
  | unpin request => cases retryable
  | direct transition args timestampUtc => cases retryable

theorem recordsNothing_of_error {e : PromotionError} (failed : (request.issue registry now) = (.error e, registry)) :
    RecordsNothing request registry now := by
  rw [RecordsNothing, failed]
  refine ⟨rfl, ?_⟩
  intro returned same
  cases same

theorem recordsNothing_of_unreadable (retryable : request.isRetryable = true)
    (unreadable : ∀ state : RegistryState F, registry.reconstruct ≠ .ok state) :
    RecordsNothing request registry now := by
  cases answered : request.answer registry with
  | error e => exact recordsNothing_of_error (e := e) (by rw [Request.issue, answered])
  | ok answer =>
    obtain ⟨state, readable⟩ := readable_of_answered retryable answered
    exact absurd readable (unreadable state)

/-- A request whose answers are events of the log, or events that are refused, records nothing. -/
theorem recordsNothing_of_answers {described : Transition → EventArgs F → Prop}
    (readable : registry.reconstruct = .ok state)
    (answers : ∀ answer, request.answer registry = .ok answer → Answers state described answer)
    (refused : ∀ t args, described t args → ∀ t' timestamp,
      ¬Accepted registry state t.value args request.timestampUtc now t' timestamp) :
    RecordsNothing request registry now := by
  cases answered : request.answer registry with
  | error e => exact recordsNothing_of_error (e := e) (by rw [Request.issue, answered])
  | ok answer =>
    cases answers answer answered with
    | recorded member =>
      rw [RecordsNothing, Request.issue, answered]
      refine ⟨rfl, ?_⟩
      intro returned same
      cases same
      exact ⟨state, _, readable, member, rfl⟩
    | @append t args as =>
      obtain ⟨error, result⟩ := append_rejected readable (refused t args as)
      apply recordsNothing_of_error (e := error)
      rw [Request.issue, answered]
      show ((registry.appendEvent t.value args request.timestampUtc now).1.map some,
        (registry.appendEvent t.value args request.timestampUtc now).2) = _
      rw [result]
      rfl

/-- Once the log has an event there is a champion. -/
theorem bootstrap_recordsNothing {request : BootstrapRequest} {event : PromotionEvent F}
    (readable : registry.reconstruct = .ok state) (member : event ∈ state.events) :
    RecordsNothing (.bootstrap request : Request F) registry now := by
  refine recordsNothing_of_answers readable (fun answer => request.answers readable) ?_
  rintro t args ⟨unset, -⟩
  obtain ⟨-, -, -, made, -⟩ := reconstruct_eq_ok readable
  obtain ⟨b, rebuilt, -, -, champion, -⟩ := stateFromEvents_eq_ok made
  rw [champion] at unset
  exact absurd unset (champion_of_nonempty rebuilt (List.ne_nil_of_mem member))

/-- The event of a pin is found by its identifier. -/
theorem pin_recordsNothing {request : PinRequest} {event : PromotionEvent F}
    (readable : registry.reconstruct = .ok state) (member : event ∈ state.events)
    (named : event.transition = .referencePinned)
    (pinned : (Json.get event.payload "pin_id").isStr request.pinId = true) :
    RecordsNothing (.pin request : Request F) registry now := by
  refine recordsNothing_of_answers readable (fun answer => request.answers readable) ?_
  rintro t args ⟨unused, -⟩
  rw [RegistryState.lastPin, RegistryState.lastEvent, List.find?_eq_none] at unused
  have missed := unused event (List.mem_reverse.mpr member)
  simp [named, pinned] at missed

/-- A generation that the log has brought to the target is not brought there again. -/
theorem generation_recordsNothing {request : GenerationRequest F} {event : PromotionEvent F}
    (readable : registry.reconstruct = .ok state) (member : event ∈ state.events)
    (named : event.transition = request.target.transition)
    (generation : Json.get event.payload "generation_id" = .str request.generationId) :
    RecordsNothing (.generation request) registry now := by
  refine recordsNothing_of_answers readable (fun answer => request.answers readable) ?_
  rintro t args ⟨merged, given, appended⟩ t' timestamp accepted
  cases appended
  obtain rfl := accepted_transition accepted
  obtain ⟨-, -, -, made, -⟩ := reconstruct_eq_ok readable
  obtain ⟨b, rebuilt, -⟩ := stateFromEvents_eq_ok made
  obtain ⟨payload, eventHash, b', copy, -, step⟩ := apply_of_accepted rebuilt accepted
  have target := generationTarget_transition request.target
  have copied : Json.get payload "generation_id" = .str request.generationId := by
    rw [get_copy merged.keyed copy, given]
    rfl
  obtain ⟨-, -, applied⟩ := (apply_generation_iff target).mp step
  simp only [RegistryBuilder.applyGeneration, bind_eq_ok] at applied
  obtain ⟨-, -, id, identified, -⟩ := applied
  have repeated : generationIdOf event = .ok id := by
    rw [← identified, generationIdOf, generationIdOf, generation]
    show _ = (requireNonempty (Json.get payload "generation_id") _).reraise _
    rw [copied]
  exact generation_not_repeated rebuilt member (by rw [named]; exact target) repeated target identified step

/-- The event that a recorded request appended, by its kind. -/
theorem Recorded.event_args {event : PromotionEvent F} (recorded : Recorded request registry now state event)
    {described : Transition → EventArgs F → Prop}
    (answers : ∀ answer, request.answer registry = .ok answer → Answers state described answer) :
    ∃ t args timestamp payload eventHash, described t args ∧
      Accepted registry state t.value args request.timestampUtc now t timestamp ∧
      build args (state.lastSequence + 1) state.lastEventHash timestamp t = .ok event ∧
      copyJsonObject args.payload = .ok payload ∧
      event = args.event (state.lastSequence + 1) state.lastEventHash timestamp t payload eventHash := by
  obtain ⟨t, args, timestamp, answered, accepted, built⟩ := recorded.appends
  obtain ⟨payload, eventHash, copy, -, -, same, -⟩ := build_eq_ok built
  cases answers _ answered with
  | append as => exact ⟨t, args, timestamp, payload, eventHash, as, accepted, built, copy, same⟩

/-- The payload of a request that was recorded can be copied. -/
theorem CandidateRequest.copied_of_recorded {request : CandidateRequest F} {event : PromotionEvent F}
    (recorded : Recorded (.candidate request) registry now state event) :
    ∃ copied, JsonObject.copy request.payload request.keyed = .ok copied := by
  obtain ⟨t, args, timestamp, payload, eventHash, ⟨merged, ⟨copied, copy, -⟩, -⟩, -⟩ :=
    recorded.event_args fun answer => request.answers recorded.readable
  exact ⟨copied, copy⟩

/-- A candidate request that was recorded records nothing again unless it reenters. -/
theorem candidate_recordsNothing_iff {request : CandidateRequest F} {before : EventRegistry} {old : RegistryState F}
    {event : PromotionEvent F} (numbers : Json.withinDigits F eventSequenceWidth = true)
    (clock : validateUtcTimestamp (.str later : Json F) "timestamp_utc" = .ok later)
    (recorded : Recorded (.candidate request) before now old event) (readable : registry.reconstruct = .ok state)
    (member : event ∈ state.events) :
    RecordsNothing (.candidate request) registry later ↔ ¬∃ existing, request.Reenters state existing := by
  obtain ⟨t, args, timestamp, payload, eventHash, ⟨first, -, appended⟩, accepted, built, -, same⟩ :=
    recorded.event_args fun answer => request.answers recorded.readable
  cases appended
  obtain ⟨-, -, -, made, -⟩ := reconstruct_eq_ok readable
  constructor
  · rintro nothing ⟨existing, reenters⟩
    obtain ⟨copied, copy⟩ := CandidateRequest.copied_of_recorded recorded
    obtain ⟨merged, merges, merge, -⟩ := reenters.merges copy
    obtain ⟨timestamp', again⟩ := accepted_of_reenters numbers clock accepted built readable member reenters merges
    have answered : request.answer registry = .ok (request.append merged) := by
      simp only [CandidateRequest.answer, bind_eq_ok]
      refine ⟨state, readable, copied, copy, ?_⟩
      rw [reenters.present]
      simp only [reenters.reentry, not_true_eq_false, and_false, if_false]
      exact bind_eq_ok.mpr ⟨merged, merge, rfl⟩
    obtain ⟨event', written, result, -, last⟩ := append_recorded readable again
    have changed : (Request.issue (.candidate request) registry later).2 = written := by
      rw [Request.issue, show Request.answer (.candidate request) registry = _ from answered]
      show (registry.appendEvent request.target.transition.value (request.eventArgs merged) request.timestampUtc
        later).2 = written
      rw [show registry.appendEvent request.target.transition.value (request.eventArgs merged) request.timestampUtc
        later = _ from result]
    have same : written = registry := changed.symm.trans nothing.1
    have longer := last state (by rw [same]; exact readable)
    simp at longer
  · intro stays
    refine recordsNothing_of_answers readable (fun answer => request.answers readable) ?_
    rintro t args ⟨merged, merges, appended⟩ t' timestamp accepted
    cases appended
    exact stays (reenters_of_accepted made member (by rw [same]; rfl) (by rw [same]; rfl) merges accepted)

/-- A request that was recorded, issued again after any others, records nothing exactly when it does not
take its candidate back to an evaluation key that the confirmation has left. -/
theorem reissue_recordsNothing_iff (retryable : request.isRetryable = true)
    (numbers : Json.withinDigits F eventSequenceWidth = true)
    (clock : validateUtcTimestamp (.str later : Json F) "timestamp_utc" = .ok later)
    (recorded : (request.issue registry now).2 ≠ registry) :
    RecordsNothing request (Request.issueAll (request.issue registry now).2 others) later ↔
      ¬request.Reenters (Request.issueAll (request.issue registry now).2 others) := by
  obtain ⟨old, event, recorded⟩ := recorded_of_changed recorded
  by_cases readable : ∃ state : RegistryState F,
      (Request.issueAll (request.issue registry now).2 others).reconstruct = .ok state
  · obtain ⟨state, readable⟩ := readable
    have member := recorded.member readable
    cases request with
    | bootstrap request => exact iff_of_true (bootstrap_recordsNothing readable member) id
    | candidate request =>
      rw [candidate_recordsNothing_iff numbers clock recorded readable member, not_iff_not]
      constructor
      · rintro ⟨existing, reenters⟩
        exact ⟨state, existing, readable, reenters⟩
      · rintro ⟨state', existing, readable', reenters⟩
        cases readable.symm.trans readable'
        exact ⟨existing, reenters⟩
    | generation request =>
      obtain ⟨t, args, timestamp, payload, eventHash, ⟨merged, given, appended⟩, -, -, copy, same⟩ :=
        recorded.event_args fun answer => request.answers recorded.readable
      cases appended
      refine iff_of_true (generation_recordsNothing readable member (by rw [same]; rfl) ?_) id
      rw [same]
      show Json.get payload "generation_id" = _
      rw [get_copy merged.keyed copy, given]
      rfl
    | pin request =>
      obtain ⟨t, args, timestamp, payload, eventHash, ⟨-, rfl, rfl⟩, -, -, copy, same⟩ :=
        recorded.event_args fun answer => request.answers recorded.readable
      refine iff_of_true (pin_recordsNothing readable member (by rw [same]; rfl) ?_) id
      rw [same]
      show (Json.get payload "pin_id").isStr _ = true
      rw [get_copy request.payload.keyed copy, isStr_sorted]
      exact Json.isStr_iff.mpr rfl
    | unpin request => cases retryable
    | direct transition args timestampUtc => cases retryable
  · push Not at readable
    refine iff_of_true (recordsNothing_of_unreadable retryable readable) ?_
    intro reenters
    cases request with
    | candidate request =>
      obtain ⟨state, existing, again, -⟩ := reenters
      exact readable state again
    | _ => exact reenters

end Reissue

section Sample

open EventRegistry

instance plainNumberEq : NumberEq Unit where
  same _ _ := true
  sameInt _ n := n = 0

def sampleBase : RequestBase where
  provenance := sampleProvenance
  championHash := digest 'a'
  reason := "sample"
  actor := "controller"
  timestampUtc := some sampleTime

def sampleRequest (target : CandidateState) (key : Option String) : CandidateRequest Unit :=
  { sampleBase with
    candidateHash := digest 'b'
    candidatePath := "b"
    target := target
    evaluationKey := key
    payload := .null
    keyed := rfl }

def sampleBootstrap : Request Unit := .bootstrap { sampleBase with generationId := "g0" }

def noPayload : JsonObject Unit := ⟨[], rfl⟩

/-- The registry has brought the sample candidate to this record. -/
structure Stage (registry : EventRegistry) (existing : CandidateRecord) (number : Int) : Prop where
  log : ∃ (state : RegistryState Unit) (b : RegistryBuilder), registry.reconstruct = .ok state ∧
    rebuild state.events = .ok b ∧ state.lastSequence = number ∧ b.originalHash = some (digest '0') ∧
    b.pathToHash.get "b" = some (digest 'b') ∧ b.currentChampionHash = some (digest 'a') ∧
    b.candidates.get (digest 'b') = some existing
  path : existing.candidatePath = "b"
  directory : registry.path ≠ .notADirectory

theorem append_stage {state : RegistryState Unit} {args : EventArgs Unit} {payload : List (String × Json Unit)}
    {t : Transition} {b b' : RegistryBuilder} (fit : Fit args) (copy : copyJsonObject args.payload = .ok payload)
    (readable : registry.reconstruct = .ok state) (rebuilt : rebuild state.events = .ok b)
    (directory : registry.path ≠ .notADirectory) (room : state.lastSequence + 1 < 10 ^ eventSequenceWidth)
    (step : ∀ previousHash eventHash,
      b.apply (args.event (state.lastSequence + 1) previousHash sampleTime t payload eventHash) = .ok b')
    (small : ∀ previousHash, isSha256 previousHash = true →
      recordSize args (state.lastSequence + 1) previousHash sampleTime t + 81 ≤ maxJsonBytes) :
    ∃ (event : PromotionEvent Unit) (written : EventRegistry) (next : RegistryState Unit),
      registry.appendEvent t.value args (some sampleTime) sampleTime = (.ok event, written) ∧
      written.reconstruct = .ok next ∧ rebuild next.events = .ok b' ∧ next.lastSequence = state.lastSequence + 1 ∧
      written.path ≠ .notADirectory := by
  have positive : 1 ≤ state.lastSequence + 1 := by
    obtain ⟨found, -, read, made, -⟩ := reconstruct_eq_ok readable
    rw [(next_number read made).1]
    omega
  obtain ⟨eventHash, built⟩ := build_of_fit (t := t) fit rfl copy positive room (lastEventHash_isSha256 readable)
    sampleTime_utc
  have legal : ∃ next, stateFromEvents (state.events ++ [args.event (state.lastSequence + 1) state.lastEventHash
      sampleTime t payload eventHash]) = .ok next :=
    ⟨_, bind_eq_ok.mpr ⟨b', replay_concat.mpr ⟨b, rebuilt, step _ _⟩, rfl⟩⟩
  obtain ⟨next, legal⟩ := legal
  have accepted : Accepted registry state t.value args (some sampleTime) sampleTime t sampleTime :=
    ⟨checkArguments_of_fit fit sampleTime_utc, ⟨_, next, built, legal⟩, directory⟩
  obtain ⟨event, next', written, result, again, events⟩ := append_fits readable accepted
    (small _ (lastEventHash_isSha256 readable))
  obtain ⟨event', written', result', built', -⟩ := append_recorded readable accepted
  cases result.symm.trans result'
  cases built.symm.trans built'
  obtain ⟨-, -, -, made, -⟩ := reconstruct_eq_ok again
  refine ⟨_, written, next', result, again, ?_, ?_, ?_⟩
  · rw [events]
    exact replay_concat.mpr ⟨b, rebuilt, step _ _⟩
  · rw [(lastSequence_eq made).1, events, List.getLast?_concat]
    rfl
  · exact path_of_mem again (by rw [events]; exact List.mem_append_right _ List.mem_cons_self)

theorem sample_fit (target : CandidateState) {key : Option String}
    (given : optionally (fun value => requireNonempty value "evaluation_key") (optional key : Json Unit) = .ok key) :
    Fit ((sampleRequest target key).eventArgs noPayload) where
  champion := isSha256_digest rfl
  reason := (requireNonempty_sample _).1
  actor := (requireNonempty_sample _).2
  key := given
  both := rfl
  candidate := by
    show (requireSha256 (.str (digest 'b') : Json Unit) _ >>= fun hash => .ok (some hash)) = _
    rw [requireSha256_valid (isSha256_digest rfl)]
    rfl
  path := by
    show optionally _ (.str "b" : Json Unit) = .ok (some "b")
    decide +kernel

theorem sample_text : Utf8.size (Json.quoted sampleTime) ≤ 100 ∧ Utf8.size (Json.quoted "sample") ≤ 100 ∧
    Utf8.size (Json.quoted "controller") ≤ 100 ∧ Utf8.size (Json.quoted "b") ≤ 100 := by
  decide +kernel

theorem transition_text (target : CandidateState) : Utf8.size (Json.quoted target.transition.value) ≤ 100 := by
  cases target <;> decide +kernel

theorem sample_small (target : CandidateState) (key : Option String) {number : Int} {previousHash : String}
    (previous : isSha256 previousHash = true) (keyed : Utf8.size (Json.text (optional key : Json Unit)) ≤ 100)
    (numbered : Utf8.size (Json.intText number) ≤ 100) :
    recordSize ((sampleRequest target key).eventArgs noPayload) number previousHash sampleTime target.transition + 81 ≤
      maxJsonBytes := by
  obtain ⟨time, reason, actor, path⟩ := sample_text
  have transition := transition_text target
  have candidate := size_quoted_sha256 (isSha256_digest (c := 'b') rfl)
  have bound := recordSize_le ((sampleRequest target key).eventArgs noPayload) number sampleTime target.transition
    (copy_copied copied_nil) previous (isSha256_digest (c := 'a') rfl)
  replace bound : recordSize ((sampleRequest target key).eventArgs noPayload) number previousHash sampleTime
      target.transition ≤ 2000 + (Utf8.size (Json.intText number) + Utf8.size (Json.quoted sampleTime) +
        Utf8.size (Json.quoted (digest 'b')) + Utf8.size (Json.quoted "b") +
        Utf8.size (Json.quoted target.transition.value) + Utf8.size (Json.text (optional key : Json Unit)) +
        Utf8.size (Json.quoted "sample") + Utf8.size (Json.quoted "controller") + 2) := bound
  rw [maxJsonBytes]
  omega

/-- A request that moves the sample candidate on is recorded. -/
theorem stage_advance (target : CandidateState) (key : Option String) {existing : CandidateRecord} {number : Int}
    {tested key' : Option String} (stage : Stage registry existing number)
    (given : optionally (fun value => requireNonempty value "evaluation_key") (optional key : Json Unit) = .ok key)
    (later : target ≠ .discovered) (legal : target ∈ existing.state.legalTransitions)
    (moves : existing.state = target → (sampleRequest target key).confirmationReentry existing)
    (evaluation : ∀ e : PromotionEvent Unit, e.evaluationKey = key → e.championHash = digest 'a' →
      RegistryBuilder.evaluationAfter existing target e = .ok (tested, key'))
    (room : number + 1 < 10 ^ eventSequenceWidth)
    (keyed : Utf8.size (Json.text (optional key : Json Unit)) ≤ 100)
    (numbered : Utf8.size (Json.intText (number + 1)) ≤ 100) :
    Stage (Request.issue (.candidate (sampleRequest target key)) registry sampleTime).2 { existing with
        state := target
        testedChampionHash := tested
        evaluationKey := key'
        lastSequence := number + 1 } (number + 1) ∧
      (Request.issue (.candidate (sampleRequest target key)) registry sampleTime).2 ≠ registry := by
  obtain ⟨state, b, readable, rebuilt, rfl, original, known, champion, present⟩ := stage.log
  obtain ⟨-, -, -, made, -⟩ := reconstruct_eq_ok readable
  obtain ⟨b₁, rebuilt', candidates, -⟩ := stateFromEvents_eq_ok made
  cases rebuilt.symm.trans rebuilt'
  have copy : JsonObject.copy (.null : Json Unit) rfl = .ok noPayload := JsonObject.copy_eq_ok.mpr (copy_copied copied_nil)
  have answered : (sampleRequest target key).answer registry = .ok ((sampleRequest target key).append noPayload) := by
    simp only [CandidateRequest.answer, bind_eq_ok]
    refine ⟨state, readable, noPayload, copy, ?_⟩
    rw [show state.candidates.get (sampleRequest target key).candidateHash = some existing by
      rw [candidates]; exact present]
    simp only
    rw [if_neg fun stays => stays.2 (moves stays.1)]
    have same : existing.candidatePath = (sampleRequest target key).candidatePath := stage.path
    exact bind_eq_ok.mpr ⟨noPayload, mergePreviousPath_eq_ok.mpr (by rw [if_pos same]), rfl⟩
  have move : RegistryBuilder.checkMove (some existing) (digest 'b') "b"
      (Json.get ([] : List (String × Json Unit)) "previous_candidate_path") = .ok () := by
    rw [RegistryBuilder.checkMove, if_neg (not_not.mpr stage.path.symm)]
    rfl
  have step : ∀ previousHash eventHash, b.apply (((sampleRequest target key).eventArgs noPayload).event
      (state.lastSequence + 1) previousHash sampleTime target.transition [] eventHash) = .ok { b with
        originalHash := some (digest '0')
        pathToHash := b.pathToHash.set "b" (digest 'b')
        candidates := b.candidates.set (digest 'b') { existing with
          candidatePath := "b"
          state := target
          testedChampionHash := tested
          evaluationKey := key'
          lastSequence := state.lastSequence + 1 } } :=
    fun previousHash eventHash => apply_advance (candidateTarget_transition target) later rfl rfl original known champion
      present legal (evaluation _ rfl rfl) move
  obtain ⟨event, written, next, result, again, log, sequence, path⟩ := append_stage (sample_fit target given)
    (copy_copied copied_nil) readable rebuilt stage.directory room step
    (fun previousHash previous => sample_small target key previous keyed numbered)
  have issued : (Request.issue (.candidate (sampleRequest target key)) registry sampleTime).2 = written := by
    rw [Request.issue, show Request.answer (.candidate (sampleRequest target key)) registry = _ from answered]
    exact congrArg Prod.snd result
  rw [issued]
  refine ⟨⟨⟨next, _, again, log, sequence, rfl, ?_, champion, ?_⟩, stage.path, path⟩, ?_⟩
  · exact Dict.get_set_self _ _ _
  · rw [← stage.path]
    exact Dict.get_set_self _ _ _
  · rintro rfl
    cases readable.symm.trans again
    omega

/-- The champion and its generation, in the registry that the first event makes. -/
def bootBuilder : RegistryBuilder where
  currentChampionHash := some (digest 'a')
  currentGenerationId := some "g0"
  originalHash := some (digest '0')
  generations := Dict.empty.set "g0"
    { generationId := "g0"
      candidateHash := digest 'a'
      candidatePath := none
      previousChampionHash := none
      evaluationKey := none
      state := .active
      restoreChampionHash := none
      lastSequence := 1 }

def discoveredCandidate : CandidateRecord where
  candidateHash := digest 'b'
  candidatePath := "b"
  state := .discovered
  parentChampionHash := digest 'a'
  testedChampionHash := none
  evaluationKey := none
  generationId := none
  lastSequence := 2

def bootPayload : List (String × Json Unit) := [("generation_id", .str "g0")]

def bootArgs : EventArgs Unit := sampleBase.args none none ⟨bootPayload, rfl⟩

theorem boot_fit : Fit bootArgs where
  champion := isSha256_digest rfl
  reason := (requireNonempty_sample _).1
  actor := (requireNonempty_sample _).2
  key := rfl
  both := rfl
  candidate := rfl
  path := rfl

/-- The registry with a champion. -/
def bootRegistry : EventRegistry := (sampleBootstrap.issue noRegistry sampleTime).2

omit [Runtime F] in
/-- The event that a candidate is discovered by, with the registry after it. -/
theorem apply_discover {b : RegistryBuilder} {e : PromotionEvent F} {hash path : String}
    (named : e.transition = .candidateDiscovered) (candidate : e.candidateHash = some hash)
    (located : e.candidatePath = some path) (original : b.originalHash = some e.originalHash)
    (known : b.pathToHash.get path = none) (champion : b.currentChampionHash = some e.championHash)
    (absent : b.candidates.get hash = none)
    (move : (Json.get e.payload "previous_candidate_path").isNull = true) :
    b.apply e = .ok { b.located e hash path with
      candidates := b.candidates.set hash (discoveredRecord e hash path) } := by
  have target : e.transition.candidateTarget = some .discovered := by
    rw [named]
    rfl
  have valid : (b.opened e).validateCandidateIdentity e = .ok (hash, path) := by
    simp only [RegistryBuilder.validateCandidateIdentity, candidate, located, bind_eq_ok, require_eq_ok, exists_const]
    refine ⟨.inl known, (), ?_, rfl⟩
    rw [show (b.opened e).candidates.get hash = none from absent]
    exact require_eq_ok.mpr move
  refine (apply_candidate_iff target).mpr ⟨.inr original, by rw [champion]; exact Option.some_ne_none _, ?_⟩
  rw [RegistryBuilder.applyCandidate]
  refine bind_eq_ok.mpr ⟨_, valid, bind_eq_ok.mpr ⟨(), require_eq_ok.mpr champion.symm, ?_⟩⟩
  rw [if_pos rfl, RegistryBuilder.discoverCandidate]
  refine bind_eq_ok.mpr ⟨(), require_eq_ok.mpr ?_, rfl⟩
  rw [show ((b.opened e).recordPath hash path).candidates.get hash = none from absent]
  rfl

theorem boot_small {previousHash : String} (previous : isSha256 previousHash = true) :
    recordSize bootArgs 1 previousHash sampleTime .championBootstrapped + 81 ≤ maxJsonBytes := by
  obtain ⟨time, reason, actor, -⟩ := sample_text
  have texts : Utf8.size (Json.quoted "champion.bootstrapped") ≤ 100 ∧
      Utf8.size (Json.text (.obj bootPayload : Json Unit)) ≤ 100 := by decide +kernel
  have copy : copyJsonObject bootArgs.payload = .ok bootPayload := copy_copied ⟨rfl, rfl, rfl⟩
  have bound := recordSize_le bootArgs 1 sampleTime .championBootstrapped copy previous
    (isSha256_digest (c := 'a') rfl)
  replace bound : recordSize bootArgs 1 previousHash sampleTime .championBootstrapped ≤ 2000 + (1 +
      Utf8.size (Json.quoted sampleTime) + 4 + 4 + Utf8.size (Json.quoted "champion.bootstrapped") + 4 +
      Utf8.size (Json.quoted "sample") + Utf8.size (Json.quoted "controller") +
      Utf8.size (Json.text (.obj bootPayload : Json Unit))) := bound
  rw [maxJsonBytes]
  omega

/-- The registry with a champion. -/
theorem boot_readable : ∃ (registry : EventRegistry) (state : RegistryState Unit),
    (sampleBootstrap.issue noRegistry sampleTime).2 = registry ∧ registry.reconstruct = .ok state ∧
      rebuild state.events = .ok bootBuilder ∧ state.lastSequence = 1 ∧ registry.path ≠ .notADirectory := by
  have answered : sampleBootstrap.answer noRegistry = .ok (.append .championBootstrapped bootArgs) := rfl
  have empty : noRegistry.reconstruct = .ok noEvents := rfl
  have copy : copyJsonObject bootArgs.payload = .ok bootPayload := copy_copied ⟨rfl, rfl, rfl⟩
  have step : ∀ previousHash eventHash, RegistryBuilder.apply {} (bootArgs.event (noEvents.lastSequence + 1) previousHash
      sampleTime .championBootstrapped bootPayload eventHash) = .ok bootBuilder := fun _ _ => rfl
  obtain ⟨event, written, next, result, again, log, sequence, path⟩ := append_stage boot_fit copy empty rfl nofun
    (by decide) step fun previousHash previous => boot_small previous
  have issued := issue_append sampleBootstrap sampleTime answered
  have time : sampleBootstrap.timestampUtc = some sampleTime := rfl
  rw [time, result] at issued
  exact ⟨written, next, issued, again, log, sequence, path⟩

def sampleSetup : List (Request Unit × String) :=
  [(sampleBootstrap, sampleTime), (.candidate (sampleRequest .discovered none), sampleTime)]

/-- The registry with a champion and a discovered candidate. -/
theorem stage_discovered : Stage (Request.issueAll noRegistry sampleSetup) discoveredCandidate 2 := by
  obtain ⟨registry, state, booted, readable, rebuilt, first, directory⟩ := boot_readable
  obtain ⟨-, -, -, made, -⟩ := reconstruct_eq_ok readable
  obtain ⟨b, rebuilt', candidates, -⟩ := stateFromEvents_eq_ok made
  cases rebuilt.symm.trans rebuilt'
  have absent : state.candidates.get (sampleRequest .discovered none).candidateHash = none := by
    rw [candidates]
    rfl
  have copy : JsonObject.copy (.null : Json Unit) rfl = .ok noPayload := JsonObject.copy_eq_ok.mpr (copy_copied copied_nil)
  have answered : (sampleRequest .discovered none).answer registry =
      .ok ((sampleRequest .discovered none).append noPayload) := by
    simp only [CandidateRequest.answer, bind_eq_ok]
    refine ⟨state, readable, noPayload, copy, ?_⟩
    rw [absent]
    rfl
  have step : ∀ previousHash eventHash, bootBuilder.apply (((sampleRequest .discovered none).eventArgs noPayload).event
      (state.lastSequence + 1) previousHash sampleTime .candidateDiscovered [] eventHash) = .ok { bootBuilder with
        pathToHash := bootBuilder.pathToHash.set "b" (digest 'b')
        candidates := bootBuilder.candidates.set (digest 'b') discoveredCandidate } := by
    intro previousHash eventHash
    rw [first]
    exact apply_discover rfl rfl rfl rfl rfl rfl rfl rfl
  obtain ⟨event, written, next, result, again, log, sequence, path⟩ := append_stage (t := .candidateDiscovered)
    (sample_fit .discovered rfl) (copy_copied copied_nil) readable rebuilt directory (by rw [first]; decide) step
    (fun previousHash previous => by
      rw [first]
      exact sample_small .discovered none previous (by decide) (by decide))
  have issued : (Request.issue (.candidate (sampleRequest .discovered none)) registry sampleTime).2 = written :=
    (issue_append (.candidate (sampleRequest .discovered none)) sampleTime answered).trans (congrArg Prod.snd result)
  rw [sampleSetup, issueAll_cons, booted, issueAll_cons, issued]
  exact ⟨⟨next, _, again, log, by rw [sequence, first]; rfl, rfl, Dict.get_set_self _ _ _, rfl,
    Dict.get_set_self _ _ _⟩, rfl, path⟩

/-- A claim and the evaluations before confirmation. -/
def sampleScreening : List (Request Unit × String) :=
  [(.candidate (sampleRequest .claimed none), sampleTime),
    (.candidate (sampleRequest .evaluatingIntegrity (some "k0")), sampleTime),
    (.candidate (sampleRequest .evaluatingScreen (some "k0")), sampleTime),
    (.candidate (sampleRequest .evaluatingFinalist (some "k0")), sampleTime)]

def sampleCandidate (state : CandidateState) (key : String) (number : Int) : CandidateRecord :=
  { discoveredCandidate with
    state := state
    testedChampionHash := some (digest 'a')
    evaluationKey := some key
    lastSequence := number }

/-- One of the evaluations of the sample. -/
theorem stage_evaluate (target : CandidateState) (key : String) {existing : CandidateRecord} {number : Int}
    (stage : Stage registry existing number)
    (given : requireNonempty (.str key : Json Unit) "evaluation_key" = .ok key)
    (evaluating : target.isEvaluating = true) (legal : target ∈ existing.state.legalTransitions)
    (moves : existing.state = target → target = .evaluatingConfirmation ∧ some key ≠ existing.evaluationKey)
    (room : number + 1 < 10 ^ eventSequenceWidth) (keyed : Utf8.size (Json.quoted key) ≤ 100)
    (numbered : Utf8.size (Json.intText (number + 1)) ≤ 100) :
    Stage (Request.issue (.candidate (sampleRequest target (some key))) registry sampleTime).2 { existing with
        state := target
        testedChampionHash := some (digest 'a')
        evaluationKey := some key
        lastSequence := number + 1 } (number + 1) ∧
      (Request.issue (.candidate (sampleRequest target (some key))) registry sampleTime).2 ≠ registry := by
  refine stage_advance target (some key) stage ?_ ?_ legal ?_ ?_ room keyed numbered
  · show (requireNonempty (.str key : Json Unit) "evaluation_key" >>= fun key => .ok (some key)) = _
    rw [given]
    rfl
  · rintro rfl
    cases evaluating
  · intro same
    exact ⟨same, (moves same).1, nofun, (moves same).2⟩
  · intro e named champion
    rw [evaluationAfter_of_evaluating evaluating (by rw [named]; exact nofun), named, champion]

theorem sample_key : requireNonempty (.str "k0" : Json Unit) "evaluation_key" = .ok "k0" ∧
    requireNonempty (.str "k1" : Json Unit) "evaluation_key" = .ok "k1" ∧
    requireNonempty (.str "k2" : Json Unit) "evaluation_key" = .ok "k2" ∧ Utf8.size (Json.quoted "k0") ≤ 100 ∧
    Utf8.size (Json.quoted "k1") ≤ 100 ∧ Utf8.size (Json.quoted "k2") ≤ 100 := by
  decide +kernel

theorem stage_screened : Stage (Request.issueAll (Request.issueAll noRegistry sampleSetup) sampleScreening)
    (sampleCandidate .evaluatingFinalist "k0" 6) 6 := by
  obtain ⟨k0, -, -, size, -⟩ := sample_key
  obtain ⟨claimed, -⟩ := stage_advance .claimed none stage_discovered rfl (by decide) (by decide)
    (by decide) (fun e named _ => by
      rw [RegistryBuilder.evaluationAfter, if_neg (by decide), if_neg (by decide), named]
      rfl) (by decide) (by decide) (by decide)
  obtain ⟨checked, -⟩ := stage_evaluate .evaluatingIntegrity "k0" claimed k0 rfl (by decide) (by decide) (by decide) size
    (by decide)
  obtain ⟨screened, -⟩ := stage_evaluate .evaluatingScreen "k0" checked k0 rfl (by decide) (by decide) (by decide) size
    (by decide)
  obtain ⟨final, -⟩ := stage_evaluate .evaluatingFinalist "k0" screened k0 rfl (by decide) (by decide) (by decide) size
    (by decide)
  rw [sampleScreening, issueAll_cons, issueAll_cons, issueAll_cons, issueAll_cons, issueAll_nil]
  exact final

/-- The sample candidate enters confirmation under a key. -/
def confirmation (key : String) : Request Unit :=
  .candidate (sampleRequest .evaluatingConfirmation (some key))

theorem stage_confirmation :
    Stage ((confirmation "k1").issue (Request.issueAll (Request.issueAll noRegistry sampleSetup) sampleScreening)
      sampleTime).2 (sampleCandidate .evaluatingConfirmation "k1" 7) 7 ∧
    ((confirmation "k1").issue (Request.issueAll (Request.issueAll noRegistry sampleSetup) sampleScreening)
      sampleTime).2 ≠ Request.issueAll (Request.issueAll noRegistry sampleSetup) sampleScreening := by
  obtain ⟨-, k1, -, -, size, -⟩ := sample_key
  exact stage_evaluate .evaluatingConfirmation "k1" stage_screened k1 rfl (by decide) nofun (by decide) size
    (by decide)

/-- A confirmation that is taken up under another key and then requested again is recorded twice. -/
theorem confirmation_recorded_twice :
    ((confirmation "k1").issue (Request.issueAll (Request.issueAll noRegistry sampleSetup) sampleScreening)
      sampleTime).2 ≠ Request.issueAll (Request.issueAll noRegistry sampleSetup) sampleScreening ∧
    ¬RecordsNothing (confirmation "k1") (Request.issueAll ((confirmation "k1").issue
      (Request.issueAll (Request.issueAll noRegistry sampleSetup) sampleScreening) sampleTime).2
        [(confirmation "k2", sampleTime)]) sampleTime := by
  obtain ⟨-, k1, k2, -, size1, size2⟩ := sample_key
  obtain ⟨first, recorded⟩ := stage_confirmation
  refine ⟨recorded, ?_⟩
  obtain ⟨second, -⟩ := stage_evaluate .evaluatingConfirmation "k2" first k2 rfl (by decide)
    (fun _ => ⟨rfl, by decide⟩) (by decide) size2 (by decide)
  obtain ⟨-, again⟩ := stage_evaluate .evaluatingConfirmation "k1" second k1 rfl (by decide)
    (fun _ => ⟨rfl, by decide⟩) (by decide) size1 (by decide)
  rw [issueAll_cons, issueAll_nil]
  intro nothing
  exact again nothing.1

theorem reissue_recordsNothing_iff_confirmation :
    RecordsNothing (confirmation "k1") (Request.issueAll ((confirmation "k1").issue
      (Request.issueAll (Request.issueAll noRegistry sampleSetup) sampleScreening) sampleTime).2
        ([] : List (Request Unit × String))) sampleTime := by
  obtain ⟨stage, recorded⟩ := stage_confirmation
  refine (reissue_recordsNothing_iff (F := Unit) rfl rfl sampleTime_utc recorded).mpr ?_
  rintro ⟨state, existing, readable, reenters⟩
  obtain ⟨state', b, readable', rebuilt, -, -, -, -, present⟩ := stage.log
  rw [issueAll_nil] at readable
  cases readable.symm.trans readable'
  obtain ⟨-, -, -, made, -⟩ := reconstruct_eq_ok readable'
  obtain ⟨b₁, rebuilt', candidates, -⟩ := stateFromEvents_eq_ok made
  cases rebuilt.symm.trans rebuilt'
  have found := reenters.present
  rw [candidates, show b.candidates.get (sampleRequest .evaluatingConfirmation (some "k1")).candidateHash = _ from
    present] at found
  cases found
  exact reenters.reentry.2.2.2 rfl

end Sample

end KataGo.Promotion
