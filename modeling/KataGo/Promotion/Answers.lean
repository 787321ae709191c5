import KataGo.Promotion.Requests

/-! What a request does to the registry: the log only grows, and each kind of request answers
with an event of the log or appends an event of its own kind. -/

namespace KataGo.Promotion
open KataGo.Lib

variable {F : Type} [Runtime F] {registry : EventRegistry} {state : RegistryState F} {now : String}

section Growth

open EventRegistry

variable {transition : String} {args : EventArgs F} {timestampUtc : Option String} {t : Transition} {timestamp : String}

/-- A registry changes only when an event is accepted. -/
theorem accepted_of_changed (changed : (registry.appendEvent transition args timestampUtc now).2 ≠ registry) :
    ∃ (state : RegistryState F) (t : Transition) (timestamp : String), registry.reconstruct = .ok state ∧
      Accepted registry state transition args timestampUtc now t timestamp := by
  cases prepared : registry.prepare transition args timestampUtc now with
  | error e =>
    rw [appendEvent, prepared] at changed
    exact absurd rfl changed
  | ok outcome =>
    obtain ⟨event, made, data⟩ := outcome
    have steps := prepared
    simp only [prepare, bind_eq_ok] at steps
    obtain ⟨checked, -, state, readable, -⟩ := steps
    obtain ⟨t, timestamp, next, accepted, -⟩ := prepare_eq_ok readable prepared
    exact ⟨state, t, timestamp, readable, accepted⟩

/-- What is appended, and what the reader sees of it. -/
theorem append_recorded (readable : registry.reconstruct = .ok state)
    (accepted : Accepted registry state transition args timestampUtc now t timestamp) :
    ∃ event written, registry.appendEvent transition args timestampUtc now = (.ok event, written) ∧
      build args (state.lastSequence + 1) state.lastEventHash timestamp t = .ok event ∧
      ∀ next : RegistryState F, written.reconstruct = .ok next → next.events = state.events ++ [event] := by
  obtain ⟨event, next, written, result, built, -⟩ := append_accepted readable accepted
  refine ⟨event, written, result, built, ?_⟩
  intro next again
  by_cases small : recordSize args (state.lastSequence + 1) state.lastEventHash timestamp t + 81 ≤ maxJsonBytes
  · obtain ⟨event', next', written', result', again', events⟩ := append_fits readable accepted small
    cases result.symm.trans result'
    cases again.symm.trans again'
    exact events
  · obtain ⟨event', written', result', unreadable⟩ :=
      append_overflows readable accepted (Nat.lt_of_not_le small)
    cases result.symm.trans result'
    exact absurd again (unreadable next)

end Growth

section Issue

variable [NumberEq F] {request : Request F}

/-- A request changes the registry only by an event that it appends. -/
theorem appends_of_changed (changed : (request.issue registry now).2 ≠ registry) :
    ∃ transition args, request.answer registry = .ok (.append transition args) ∧
      (registry.appendEvent transition.value args request.timestampUtc now).2 ≠ registry ∧
      request.issue registry now =
        ((registry.appendEvent transition.value args request.timestampUtc now).1.map some,
          (registry.appendEvent transition.value args request.timestampUtc now).2) := by
  unfold Request.issue at changed ⊢
  split
  next error => rw [error] at changed; exact absurd rfl changed
  next event recorded => rw [recorded] at changed; exact absurd rfl changed
  next nothing => rw [nothing] at changed; exact absurd rfl changed
  next transition args appends =>
    rw [appends] at changed
    exact ⟨transition, args, appends, changed, rfl⟩

/-- The event that a request recorded, in the registry before it. -/
structure Recorded (request : Request F) (registry : EventRegistry) (now : String) (state : RegistryState F)
    (event : PromotionEvent F) : Prop where
  readable : registry.reconstruct = .ok state
  returned : (request.issue registry now).1 = .ok (some event)
  appends : ∃ (t : Transition) (args : EventArgs F) (timestamp : String),
    request.answer registry = .ok (.append t args) ∧
    EventRegistry.Accepted registry state t.value args request.timestampUtc now t timestamp ∧
    build args (state.lastSequence + 1) state.lastEventHash timestamp t = .ok event
  last : ∀ next : RegistryState F, (request.issue registry now).2.reconstruct = .ok next →
    next.events = state.events ++ [event]

omit [NumberEq F] in
theorem accepted_transition {t t' : Transition} {args : EventArgs F} {timestampUtc : Option String}
    {timestamp : String} (accepted : EventRegistry.Accepted registry state t.value args timestampUtc now t' timestamp) :
    t' = t := by
  have arguments := accepted.arguments
  rw [EventRegistry.checkArguments, ofValue_value] at arguments
  simp only [bind_eq_ok] at arguments
  obtain ⟨_, known, _, -, _, -, _, -, _, -, _, -, result⟩ := arguments
  cases known
  cases timestampUtc with
  | none => cases result; rfl
  | some given =>
    obtain ⟨_, -, result⟩ := bind_eq_ok.mp result
    cases result
    rfl

/-- A request that changes the registry records an event. -/
theorem recorded_of_changed (changed : (request.issue registry now).2 ≠ registry) :
    ∃ (state : RegistryState F) (event : PromotionEvent F), Recorded request registry now state event := by
  obtain ⟨t, args, answered, appended, result⟩ := appends_of_changed changed
  obtain ⟨state, t', timestamp, readable, accepted⟩ := accepted_of_changed appended
  obtain rfl := accepted_transition accepted
  obtain ⟨event, written, outcome, built, last⟩ := append_recorded readable accepted
  rw [outcome] at result
  refine ⟨state, event, readable, by rw [result]; rfl, ⟨_, args, timestamp, answered, accepted, built⟩, ?_⟩
  rw [result]
  exact last

/-- The log of a registry only grows, and a registry that cannot be read stays as it is. -/
theorem issue_grows {next : RegistryState F} (again : (request.issue registry now).2.reconstruct = .ok next) :
    ∃ state : RegistryState F, registry.reconstruct = .ok state ∧ state.events <+: next.events := by
  by_cases same : (request.issue registry now).2 = registry
  · rw [same] at again
    exact ⟨next, again, List.prefix_refl _⟩
  · obtain ⟨state, event, recorded⟩ := recorded_of_changed same
    refine ⟨state, recorded.readable, ?_⟩
    rw [recorded.last next again]
    exact List.prefix_append _ _

theorem issueAll_grows {requests : List (Request F × String)} {next : RegistryState F}
    (again : (Request.issueAll registry requests).reconstruct = .ok next) :
    ∃ state : RegistryState F, registry.reconstruct = .ok state ∧ state.events <+: next.events := by
  induction requests generalizing registry with
  | nil => exact ⟨next, again, List.prefix_refl _⟩
  | cons request requests ih =>
    obtain ⟨middle, readable, later⟩ := ih again
    obtain ⟨state, first, before⟩ := issue_grows readable
    exact ⟨state, first, before.trans later⟩

theorem issueAll_cons (request : Request F) (requests : List (Request F × String)) :
    Request.issueAll registry ((request, now) :: requests) =
      Request.issueAll (request.issue registry now).2 requests := rfl

theorem issueAll_nil : Request.issueAll registry ([] : List (Request F × String)) = registry := rfl

theorem issue_append (request : Request F) (now : String) {t : Transition} {args : EventArgs F}
    (answered : request.answer registry = .ok (.append t args)) :
    (request.issue registry now).2 = (registry.appendEvent t.value args request.timestampUtc now).2 := by
  rw [Request.issue, answered]

/-- A recorded event is in every later log that can be read. -/
theorem Recorded.member {event : PromotionEvent F} {requests : List (Request F × String)} {next : RegistryState F}
    (recorded : Recorded request registry now state event)
    (again : (Request.issueAll (request.issue registry now).2 requests).reconstruct = .ok next) :
    event ∈ next.events := by
  obtain ⟨after, readable, later⟩ := issueAll_grows again
  apply later.subset
  rw [recorded.last after readable]
  simp

end Issue

section Payloads

omit [Runtime F] in
theorem get_replaced (fields : List (String × Json F)) (key other : String) (v : Json F) :
    Json.get (Dict.replaced fields key v) other =
      if other = key ∧ key ∈ fields.map Prod.fst then v else Json.get fields other := by
  induction fields with
  | nil => simp [Dict.replaced, Json.get]
  | cons field fields ih =>
    obtain ⟨name, w⟩ := field
    by_cases same : other = name
    · subst same
      by_cases here : other = key
      · subst here
        simp [Dict.replaced, Json.get]
      · simp [Dict.replaced, Json.get, here]
    · have different : (other == name) = false := by simpa using same
      have skipped : Json.get (Dict.replaced ((name, w) :: fields) key v) other =
          Json.get (Dict.replaced fields key v) other := by
        by_cases here : name = key
        · simp [Dict.replaced, Json.get, List.lookup_cons, here, here ▸ different]
        · simp [Dict.replaced, Json.get, List.lookup_cons, here, different]
      have below : Json.get ((name, w) :: fields) other = Json.get fields other := by
        simp [Json.get, List.lookup_cons, different]
      have listed : (other = key ∧ key ∈ ((name, w) :: fields).map Prod.fst) ↔
          (other = key ∧ key ∈ fields.map Prod.fst) := by
        constructor
        · rintro ⟨rfl, member⟩
          exact ⟨rfl, by simpa [same] using member⟩
        · rintro ⟨rfl, member⟩
          exact ⟨rfl, List.mem_cons_of_mem _ member⟩
      rw [skipped, ih, below]
      simp only [listed]

omit [Runtime F] in
theorem get_setField (fields : List (String × Json F)) (key other : String) (v : Json F) :
    Json.get (setField fields key v) other = if other = key then v else Json.get fields other := by
  unfold setField
  by_cases present : key ∈ fields.map Prod.fst
  · rw [if_pos present, get_replaced]
    simp [present]
  · rw [if_neg present]
    have absent : fields.lookup key = none := by
      rw [List.lookup_eq_none_iff]
      intro field member
      rw [bne_iff_ne]
      rintro rfl
      exact present (List.mem_map_of_mem member)
    by_cases same : other = key
    · subst same
      simp [Json.get, List.lookup_append, absent]
    · have apart : (other == key) = false := by simpa using same
      simp [Json.get, List.lookup_append, List.lookup_cons, apart, same]

end Payloads

section Answers

variable {answer : Answer F}

omit [Runtime F] in
theorem lastEvent_mem {described : PromotionEvent F → Bool} {event : PromotionEvent F}
    (found : state.lastEvent described = some event) : event ∈ state.events :=
  List.mem_reverse.mp (List.mem_of_find?_eq_some found)

/-- The answer is an event of the log, or it appends an event as described. -/
inductive Answers (state : RegistryState F) (described : Transition → EventArgs F → Prop) : Answer F → Prop where
  | recorded {event : PromotionEvent F} (member : event ∈ state.events) : Answers state described (.recorded event)
  | append {t : Transition} {args : EventArgs F} (as : described t args) : Answers state described (.append t args)

theorem BootstrapRequest.answers {request : BootstrapRequest} (readable : registry.reconstruct = .ok state)
    (answered : request.answer registry = .ok answer) :
    Answers state (fun t args => state.currentChampionHash = none ∧ t = .championBootstrapped ∧
      args = request.args none none request.payload) answer := by
  simp only [BootstrapRequest.answer, readable, bind_eq_ok] at answered
  obtain ⟨_, same, answered⟩ := answered
  cases same
  split at answered
  next =>
    split at answered
    next first head =>
      split at answered
      next => cases answered; exact .recorded (List.mem_of_mem_head? head)
      next => cases answered
    next => cases answered
  next unset =>
    cases answered
    exact .append ⟨not_not.mp unset, rfl, rfl⟩

theorem PinRequest.answers {request : PinRequest} (readable : registry.reconstruct = .ok state)
    (answered : request.answer registry = .ok answer) :
    Answers state (fun t args => state.lastPin request.pinId = none ∧ t = .referencePinned ∧
      args = request.args none none request.payload) answer := by
  simp only [PinRequest.answer, readable, bind_eq_ok] at answered
  obtain ⟨_, same, answered⟩ := answered
  cases same
  split at answered
  next existing present =>
    simp only [PinRequest.retry, bind_eq_ok, require_eq_ok, exists_const] at answered
    obtain ⟨-, answered⟩ := answered
    split at answered
    next => cases answered
    next event found =>
      simp only [bind_eq_ok, require_eq_ok, exists_const] at answered
      obtain ⟨-, result⟩ := answered
      cases result
      exact .recorded (lastEvent_mem found)
  next =>
    split at answered
    next event found =>
      simp only [bind_eq_ok, require_eq_ok, exists_const] at answered
      obtain ⟨-, result⟩ := answered
      cases result
      exact .recorded (lastEvent_mem found)
    next unused =>
      cases answered
      exact .append ⟨unused, rfl, rfl⟩

variable [NumberEq F]

/-- The payload that a candidate request appends with. -/
def CandidateRequest.Merges (request : CandidateRequest F) (state : RegistryState F) (merged : JsonObject F) : Prop :=
  ∃ copied, JsonObject.copy request.payload request.keyed = .ok copied ∧
    match state.candidates.get request.candidateHash with
    | none => merged = copied
    | some existing => ¬(existing.state = request.target ∧ ¬request.confirmationReentry existing) ∧
        mergePreviousPath existing.candidatePath request.candidatePath copied = .ok merged

theorem CandidateRequest.answers {request : CandidateRequest F} (readable : registry.reconstruct = .ok state)
    (answered : request.answer registry = .ok answer) :
    Answers state (fun t args => ∃ merged, request.Merges state merged ∧ .append t args = request.append merged)
      answer := by
  simp only [CandidateRequest.answer, readable, bind_eq_ok] at answered
  obtain ⟨_, same, copied, copy, answered⟩ := answered
  cases same
  split at answered
  next absent =>
    cases answered
    exact .append ⟨copied, ⟨copied, copy, by rw [absent]⟩, rfl⟩
  next existing present =>
    split at answered
    next =>
      simp only [CandidateRequest.retry, bind_eq_ok, require_eq_ok, exists_const] at answered
      obtain ⟨-, answered⟩ := answered
      split at answered
      next => cases answered
      next event found =>
        simp only [bind_eq_ok, require_eq_ok, exists_const] at answered
        obtain ⟨-, result⟩ := answered
        cases result
        exact .recorded (lastEvent_mem found)
    next moves =>
      obtain ⟨merged, merge, result⟩ := bind_eq_ok.mp answered
      cases result
      exact .append ⟨merged, ⟨copied, copy, by rw [present]; exact ⟨moves, merge⟩⟩, rfl⟩

omit [Runtime F] [NumberEq F] in
theorem mergePreviousPath_get {recorded path key : String} {copied merged : JsonObject F}
    (merge : mergePreviousPath recorded path copied = .ok merged) (other : key ≠ "previous_candidate_path") :
    Json.get merged.fields key = Json.get copied.fields key := by
  unfold mergePreviousPath at merge
  split at merge
  next =>
    simp only [bind_eq_ok, require_eq_ok, exists_const] at merge
    obtain ⟨-, result⟩ := merge
    cases result
    exact (get_setField _ _ _ _).trans (if_neg other)
  next => cases merge; rfl

omit [NumberEq F] in
theorem GenerationRequest.merge_get {request : GenerationRequest F} {merged : JsonObject F}
    (merge : request.merge = .ok merged) : Json.get merged.fields "generation_id" = .str request.generationId := by
  simp only [GenerationRequest.merge, bind_eq_ok, require_eq_ok, exists_const] at merge
  obtain ⟨copied, -, -, merge⟩ := merge
  have set : Json.get (copied.setStr "generation_id" request.generationId).fields "generation_id" =
      .str request.generationId := (get_setField _ _ _ _).trans (if_pos rfl)
  split at merge
  next =>
    split at merge
    next => cases merge
    next restore given =>
      simp only [bind_eq_ok, require_eq_ok, exists_const] at merge
      obtain ⟨-, result⟩ := merge
      cases result
      exact ((get_setField _ _ _ _).trans (if_neg (by decide))).trans set
  next => cases merge; exact set

theorem GenerationRequest.answers {request : GenerationRequest F} (readable : registry.reconstruct = .ok state)
    (answered : request.answer registry = .ok answer) :
    Answers state (fun t args => ∃ merged : JsonObject F,
      Json.get merged.fields "generation_id" = .str request.generationId ∧
        .append t args = request.append merged) answer := by
  simp only [GenerationRequest.answer, readable, bind_eq_ok] at answered
  obtain ⟨copied, merge, _, same, answered⟩ := answered
  cases same
  have named := request.merge_get merge
  split at answered
  next =>
    split at answered
    next => cases answered; exact .append ⟨copied, named, rfl⟩
    next candidate =>
      obtain ⟨merged, path, result⟩ := bind_eq_ok.mp answered
      cases result
      exact .append ⟨merged, (mergePreviousPath_get path (by decide)).trans named, rfl⟩
  next existing present =>
    split at answered
    next =>
      simp only [GenerationRequest.retry, bind_eq_ok, require_eq_ok, exists_const] at answered
      obtain ⟨-, answered⟩ := answered
      split at answered
      next => cases answered
      next event found =>
        simp only [bind_eq_ok, require_eq_ok, exists_const] at answered
        obtain ⟨-, result⟩ := answered
        cases result
        exact .recorded (lastEvent_mem found)
    next => cases answered; exact .append ⟨copied, named, rfl⟩

end Answers

section Chain

open EventRegistry

theorem verify_eventHash {raw : RawEvent F} {event : PromotionEvent F} (verified : raw.verify = .ok event) :
    isSha256 event.eventHash = true := by
  simp only [RawEvent.verify, bind_eq_ok, require_eq_ok, exists_const] at verified
  obtain ⟨version, -, sequence, -, checked, fields, _, -, _, -, -, result⟩ := verified
  cases result
  replace fields := Checked.reraise_eq_ok.mp fields
  simp only [checkFields, bind_eq_ok, require_eq_ok, exists_const] at fields
  obtain ⟨_, -, _, -, _, -, _, -, _, -, _, -, _, -, _, -, _, -, _, hash, _, -, _, -, _, -, -, _, -, _, -, _, -,
    result⟩ := fields
  cases result
  exact isSha256_of_requireSha256 hash

theorem readEvents_eventHash {dir : String} {expected : Nat} {previousHash : String} {files : List NumberedFile}
    {events : List (PromotionEvent F)} (read : readEvents dir expected previousHash files = .ok events) :
    ∀ event ∈ events, isSha256 event.eventHash = true := by
  induction files generalizing expected previousHash events with
  | nil => cases read; simp
  | cons file files ih =>
    simp only [readEvents, bind_eq_ok] at read
    obtain ⟨first, head, rest, others, result⟩ := read
    cases result
    intro event member
    rcases List.mem_cons.mp member with rfl | later
    · simp only [readEvent, bind_eq_ok, require_eq_ok, exists_const] at head
      obtain ⟨-, _, -, value, -, _, parsed, _, -, _, -, -, -, -, result⟩ := head
      cases result
      unfold fromDict at parsed
      split at parsed
      next fields =>
        simp only [bind_eq_ok, require_eq_ok, exists_const] at parsed
        obtain ⟨-, parsed⟩ := parsed
        split at parsed
        next => cases parsed
        next => exact verify_eventHash parsed
      next => cases parsed
    · exact ih others event later

/-- The hash that the next event is chained to. -/
theorem lastEventHash_isSha256 (readable : registry.reconstruct = .ok state) :
    isSha256 state.lastEventHash = true := by
  obtain ⟨found, -, read, made, -⟩ := reconstruct_eq_ok readable
  rw [(lastSequence_eq made).2, lastHash]
  cases last : state.events.getLast? with
  | none => exact isSha256_digest (c := '0') rfl
  | some event => exact readEvents_eventHash read event (List.mem_of_getLast? last)

/-- What the checks of an event say about its arguments. -/
structure Fit (args : EventArgs F) : Prop where
  champion : isSha256 args.championHash = true
  reason : requireNonempty (.str args.reason : Json F) "reason" = .ok args.reason
  actor : requireNonempty (.str args.actor : Json F) "actor" = .ok args.actor
  key : optionally (fun value => requireNonempty value "evaluation_key") (optional args.evaluationKey : Json F) =
    .ok args.evaluationKey
  both : (optional args.candidateHash : Json F).isNull = (optional args.candidatePath : Json F).isNull
  candidate : optionally (fun value => requireSha256 value "candidate_hash") (optional args.candidateHash : Json F) =
    .ok args.candidateHash
  path : optionally (fun value => requireNonempty value "candidate_path") (optional args.candidatePath : Json F) =
    .ok args.candidatePath

theorem fit_of_build {args : EventArgs F} {sequence : Int} {previousHash timestampUtc : String} {t : Transition}
    {event : PromotionEvent F} (built : build args sequence previousHash timestampUtc t = .ok event) : Fit args := by
  obtain ⟨payload, eventHash, -, -, -, rfl, verified, -⟩ := build_eq_ok built
  simp only [RawEvent.verify, bind_eq_ok, require_eq_ok, exists_const] at verified
  obtain ⟨version, -, number, -, checked, fields, -⟩ := verified
  replace fields := Checked.reraise_eq_ok.mp fields
  simp only [checkFields, bind_eq_ok, require_eq_ok, exists_const] at fields
  obtain ⟨_, -, _, -, _, -, _, -, champ, champion, _, -, _, -, _, -, _, -, _, -, why, reason, who, actor, k, key, both,
    h, candidate, p, path, -⟩ := fields
  cases requireNonempty_returns _ _ _ reason
  cases requireNonempty_returns _ _ _ actor
  cases requireSha256_returns _ _ _ champion
  cases optionally_returns (requireNonempty_returns _) key
  cases optionally_returns (requireSha256_returns _) candidate
  cases optionally_returns (requireNonempty_returns _) path
  exact ⟨isSha256_of_requireSha256 champion, reason, actor, key, both, candidate, path⟩

theorem withinDigits_of_short {n : Int} (numbers : Json.withinDigits F eventSequenceWidth = true) (positive : 1 ≤ n)
    (short : n < 10 ^ eventSequenceWidth) : (Json.int n : Json F).encodable = true := by
  have small : n.natAbs < 10 ^ eventSequenceWidth := by
    zify
    rw [abs_of_nonneg (by omega)]
    exact short
  have length := decimal_length small
  show Json.withinDigits F (Json.decimal n.natAbs).length = true
  simp only [Json.withinDigits, decide_eq_true_eq] at numbers ⊢
  omega

/-- Arguments that fit make an event at any place of a log. -/
theorem build_of_fit {args : EventArgs F} {sequence : Int} {previousHash timestampUtc : String} {t : Transition}
    {payload : List (String × Json F)} (fit : Fit args) (numbers : Json.withinDigits F eventSequenceWidth = true)
    (copy : copyJsonObject args.payload = .ok payload) (positive : 1 ≤ sequence)
    (short : sequence < 10 ^ eventSequenceWidth) (previous : isSha256 previousHash = true)
    (time : validateUtcTimestamp (.str timestampUtc : Json F) "timestamp_utc" = .ok timestampUtc) :
    ∃ eventHash, build args sequence previousHash timestampUtc t =
      .ok (args.event sequence previousHash timestampUtc t payload eventHash) := by
  have copied := copied_of_copy args.keyed copy
  have writable : (Json.obj (args.bodyFields sequence previousHash timestampUtc t payload)).encodable = true := by
    apply Json.encodableFields_iff.mpr
    have one := withinDigits_of_short (n := 1) numbers (by decide) (by decide)
    have number := withinDigits_of_short numbers positive short
    have payload := copied.writable
    have given : ∀ o : Option String, (optional o : Json F).encodable = true := by
      intro o
      cases o <;> rfl
    simp only [EventArgs.bodyFields, List.forall_mem_cons, given]
    exact ⟨one, number, rfl, rfl, rfl, rfl, trivial, trivial, rfl, rfl, rfl, trivial, rfl, rfl, rfl, rfl, rfl, payload,
      by simp⟩
  obtain ⟨hash, hashed, valid⟩ : ∃ hash,
      canonicalSha256 (.obj (args.bodyFields sequence previousHash timestampUtc t payload)) = .ok hash ∧
        isSha256 hash = true :=
    ⟨_, bind_eq_ok.mpr ⟨_, canonicalJsonBytes_eq_ok.mpr ⟨writable, rfl⟩, rfl⟩, isSha256_sha256Bytes _⟩
  have provenance : ∀ hash ∈ [args.provenance.controllerHash, args.provenance.sourceHash,
      args.provenance.originalHash, args.provenance.configHash, args.provenance.scheduleHash,
      args.provenance.policyHash], ∀ field, requireSha256 (.str hash : Json F) field = .ok hash :=
    fun hash member => requireSha256_valid (args.provenance.sha256 hash member)
  refine ⟨hash, ?_⟩
  simp only [build, bind_eq_ok]
  refine ⟨_, copy, _, hashed, ?_⟩
  simp only [RawEvent.verify, bind_eq_ok, require_eq_ok, exists_const, Checked.reraise_eq_ok, checkFields]
  refine ⟨eventSchemaVersion, rfl, sequence, ?_, _, ⟨_, requireSha256_valid previous _, _, time, _,
    provenance _ (by simp) _, _, provenance _ (by simp) _, _, requireSha256_valid fit.champion _, _,
    provenance _ (by simp) _, _, provenance _ (by simp) _, _, provenance _ (by simp) _, _, provenance _ (by simp) _, _,
    requireSha256_valid valid _, _, fit.reason, _, fit.actor, _, fit.key, fit.both, _, fit.candidate, _, fit.path, _,
    copy_copied copied, rfl⟩, _, ?_, _, hashed, rfl, rfl⟩
  · show checkSequence (.int sequence : Json F) = _
    rw [checkSequence, if_neg (by omega), if_neg (by omega)]
  · show (copyJsonObject (.obj payload) >>= _) = _
    rw [copy_copied copied]
    rfl

theorem checkArguments_of_fit {args : EventArgs F} {t : Transition} {timestamp : String} (fit : Fit args)
    (time : validateUtcTimestamp (.str timestamp : Json F) "timestamp_utc" = .ok timestamp) :
    checkArguments t.value args (some timestamp) now = .ok (t, timestamp) := by
  rw [checkArguments, ofValue_value]
  simp only [bind_eq_ok]
  exact ⟨_, rfl, _, requireSha256_valid fit.champion _, _, fit.reason, _, fit.actor, _, fit.candidate, _, fit.path, _,
    time, rfl⟩

omit [Runtime F] in
theorem names_size (name : String) (member : name ∈ expectedFields) : Utf8.size (Json.quoted name) ≤ 30 := by
  revert name
  decide +kernel

/-- How much space an event takes besides its texts. -/
theorem recordSize_le (args : EventArgs F) (sequence : Int) (timestampUtc : String) (t : Transition)
    {previousHash : String} {payload : List (String × Json F)} (copy : copyJsonObject args.payload = .ok payload)
    (previous : isSha256 previousHash = true) (champion : isSha256 args.championHash = true) :
    recordSize args sequence previousHash timestampUtc t ≤ 2000 + (Utf8.size (Json.intText sequence) +
      Utf8.size (Json.quoted timestampUtc) + Utf8.size (Json.text (optional args.candidateHash : Json F)) +
      Utf8.size (Json.text (optional args.candidatePath : Json F)) + Utf8.size (Json.quoted t.value) +
      Utf8.size (Json.text (optional args.evaluationKey : Json F)) + Utf8.size (Json.quoted args.reason) +
      Utf8.size (Json.quoted args.actor) + Utf8.size (Json.text (.obj payload : Json F))) := by
  have ordered : (Json.obj payload).sorted = .obj payload :=
    congrArg Json.obj (copied_of_copy args.keyed copy).ordered
  have fixed : Json.sortedFields (args.bodyFields sequence previousHash timestampUtc t payload) =
      args.bodyFields sequence previousHash timestampUtc t payload := by
    simp only [EventArgs.bodyFields, Json.sortedFields, optional_sorted, ordered]
    rfl
  have hash : ∀ hash ∈ [args.provenance.controllerHash, args.provenance.sourceHash,
      args.provenance.originalHash, args.provenance.configHash, args.provenance.scheduleHash,
      args.provenance.policyHash], Utf8.size (Json.quoted hash) = 66 :=
    fun hash member => size_quoted_sha256 (args.provenance.sha256 hash member)
  simp only [List.forall_mem_cons] at hash
  obtain ⟨controller, source, original, config, schedule, policy, -⟩ := hash
  have names := names_size
  simp only [expectedFields, List.forall_mem_cons] at names
  have some : args.bodyFields sequence previousHash timestampUtc t payload ≠ [] := List.cons_ne_nil _ _
  have text : ∀ s : String, Json.text (.str s : Json F) = Json.quoted s := fun _ => rfl
  have whole : ∀ n : Int, Json.text (.int n : Json F) = Json.intText n := fun _ => rfl
  have one : Utf8.size (Json.intText eventSchemaVersion) = 1 := by decide
  rw [recordSize, copy]
  show Utf8.size (Json.text (Json.obj (args.bodyFields sequence previousHash timestampUtc t payload)).sorted) ≤ _
  rw [Json.size_text_sorted some fixed]
  simp only [EventArgs.bodyFields, List.map_cons, List.map_nil, List.sum_cons, List.sum_nil, Json.fieldSize_eq, text,
    whole, one, size_quoted_sha256 previous, size_quoted_sha256 champion, controller, source, original, config, schedule,
    policy]
  omega

end Chain

end KataGo.Promotion
