import KataGo.Promotion.Registry

/-! The event that a checked file holds is the event that was written to it. -/

namespace KataGo.Promotion
open KataGo.Lib

variable {F : Type} [Runtime F]

theorem canonicalJsonBytes_eq_ok {value : Json F} {data : ByteArray} :
    canonicalJsonBytes value = .ok data ↔
      value.encodable = true ∧ data = Utf8.encode (Json.text value.sorted) := by
  unfold canonicalJsonBytes Json.canonical
  by_cases writable : value.encodable = true
  · simp only [writable, if_true, true_and]
    constructor
    · intro same
      exact (Except.ok.inj same).symm
    · rintro rfl
      rfl
  · simp [writable]

/-- What is copied is the value with its keys in order. -/
theorem copyJsonObject_eq {value : Json F} (present : value.isNull = false) (writable : value.encodable = true)
    (distinct : value.keyed = true) : copyJsonObject value = fieldsOf (some value.sorted) := by
  have bytes := canonicalJsonBytes_eq_ok.mpr ⟨writable, rfl⟩
  have loaded := Json.loads_text plainHooks_faithful value.sorted
    (by rw [Json.encodable_sorted]; exact writable) (by rw [Json.keyed_sorted]; exact distinct) (.inl rfl)
  rw [List.append_nil] at loaded
  rw [copyJsonObject, present]
  show (canonicalJsonBytes value).bind _ = _
  rw [bytes]
  show fieldsOf ((Utf8.decode (Utf8.encode _)).bind _) = _
  rw [Utf8.decode_encode, Option.bind_some, loaded]

/-- What a successful copy returns. -/
theorem copied_of_copy {value : Json F} {fields : List (String × Json F)} (distinct : value.keyed = true)
    (copy : copyJsonObject value = .ok fields) : Copied fields := by
  have writable : value.isNull = false → value.encodable = true := by
    intro present
    obtain ⟨data, bytes, -⟩ := bind_eq_ok.mp copy
    rw [present] at bytes
    exact (canonicalJsonBytes_eq_ok.mp bytes).1
  cases value with
  | null =>
    have same : copyJsonObject (.null : Json F) = copyJsonObject (.obj []) := rfl
    rw [same, copyJsonObject_eq rfl rfl rfl] at copy
    cases copy
    exact copied_nil
  | obj old =>
    rw [copyJsonObject_eq rfl (writable rfl) distinct] at copy
    cases copy
    exact copied_sortFields (writable rfl) distinct
  | _ =>
    rw [copyJsonObject_eq rfl (writable rfl) distinct] at copy
    cases copy

theorem copy_copied {fields : List (String × Json F)} (copied : Copied fields) :
    copyJsonObject (.obj fields) = .ok fields := by
  rw [copyJsonObject_eq rfl copied.writable copied.distinct]
  show Except.ok (sortFields fields) = _
  rw [copied.ordered]

/-- What a copy has under a key. -/
theorem get_copy {fields payload : List (String × Json F)} {key : String} (distinct : (Json.obj fields).keyed = true) (copy : copyJsonObject (.obj fields) = .ok payload) :
    Json.get payload key = (Json.get fields key).sorted := by
  obtain ⟨data, bytes, -⟩ := bind_eq_ok.mp copy
  have writable : (Json.obj fields).encodable = true := (canonicalJsonBytes_eq_ok.mp bytes).1
  have sorted := copyJsonObject_eq rfl writable distinct
  cases copy.symm.trans sorted
  exact get_sortFields distinct key

omit [Runtime F] in
theorem digitChar_of_isHexDigit {c : Char} (hex : isHexDigit c = true) : ∃ n < 16, c = Nat.digitChar n := by
  have table : ∀ m < 103, 48 ≤ m ∧ m ≤ 57 ∨ 97 ≤ m → ∃ n < 16, Char.ofNat m = Nat.digitChar n := by decide
  have bounds : 48 ≤ c.toNat ∧ c.toNat ≤ 57 ∨ 97 ≤ c.toNat ∧ c.toNat ≤ 102 := by
    simpa [isHexDigit, Char.le_def, UInt32.le_iff_toNat_le] using hex
  obtain ⟨n, small, same⟩ := table c.toNat (by omega) (by omega)
  exact ⟨n, small, (Char.ofNat_toNat c).symm.trans same⟩

omit [Runtime F] in
theorem size_quoted_sha256 {hash : String} (valid : isSha256 hash = true) : Utf8.size (Json.quoted hash) = 66 := by
  simp only [isSha256, decide_eq_true_eq, List.all_eq_true] at valid
  have whole := Json.size_quoted_digits fun c member => digitChar_of_isHexDigit (valid.2 c member)
  rw [String.ofList_toList, valid.1] at whole
  exact whole

/-- An event with its fields as they stand in its file. -/
def PromotionEvent.raw (e : PromotionEvent F) : RawEvent F where
  schemaVersion := .int e.schemaVersion
  sequence := .int e.sequence
  previousHash := .str e.previousHash
  timestampUtc := .str e.timestampUtc
  controllerHash := .str e.controllerHash
  sourceHash := .str e.sourceHash
  candidateHash := optional e.candidateHash
  candidatePath := optional e.candidatePath
  championHash := .str e.championHash
  originalHash := .str e.originalHash
  transition := e.transition
  evaluationKey := optional e.evaluationKey
  configHash := .str e.configHash
  scheduleHash := .str e.scheduleHash
  policyHash := .str e.policyHash
  reason := .str e.reason
  actor := .str e.actor
  payload := .obj e.payload
  eventHash := .str e.eventHash

/-- A check that returns the string it was given. -/
def Returns (check : Json F → Checked String) : Prop := ∀ s x, check (.str s) = .ok x → x = s

omit [Runtime F] in
theorem requireSha256_returns (field : String) : Returns fun value : Json F => requireSha256 value field := by
  intro s x passed
  simp only [requireSha256] at passed
  split at passed
  · exact (Except.ok.inj passed).symm
  · cases passed

omit [Runtime F] in
theorem isSha256_of_requireSha256 {value : Json F} {field hash : String}
    (passed : requireSha256 value field = .ok hash) : isSha256 hash = true := by
  unfold requireSha256 at passed
  split at passed
  next s =>
    split at passed
    next valid => cases passed; exact valid
    next => cases passed
  next => cases passed

omit [Runtime F] in
theorem requireSha256_valid {hash : String} (valid : isSha256 hash = true) (field : String) :
    requireSha256 (.str hash : Json F) field = .ok hash := if_pos valid

omit [Runtime F] in
theorem requireNonempty_returns (field : String) : Returns fun value : Json F => requireNonempty value field := by
  intro s x passed
  simp only [requireNonempty] at passed
  split at passed
  · cases passed
  · split at passed
    · cases passed
    · exact (Except.ok.inj passed).symm

theorem validateUtcTimestamp_returns (field : String) :
    Returns fun value : Json F => validateUtcTimestamp value field := by
  intro s x passed
  simp only [validateUtcTimestamp] at passed
  split at passed
  · split at passed
    · cases passed
    · split at passed
      · exact (Except.ok.inj passed).symm
      · cases passed
  · cases passed

omit [Runtime F] in
theorem optionally_returns {check : Json F → Checked String} (returns : Returns check) {o x : Option String}
    (passed : optionally check (optional o) = .ok x) : x = o := by
  cases o with
  | none => exact (Except.ok.inj passed).symm
  | some s =>
    obtain ⟨y, found, result⟩ := bind_eq_ok.mp (show (check (.str s) >>= fun y => .ok (some y)) = .ok x from passed)
    cases result
    rw [returns s y found]

/-- An event that passes its checks comes back from them as it was. -/
theorem checkFields_raw {e e' : PromotionEvent F} (copied : Copied e.payload)
    (passed : checkFields e.raw e.schemaVersion e.sequence = .ok e') : e' = e := by
  simp only [checkFields, bind_eq_ok, require_eq_ok, exists_const] at passed
  obtain ⟨_, previous, _, timestamp, _, controller, _, source, _, champion, _, original, _, config, _, schedule,
    _, policy, _, hash, _, reason, _, actor, _, key, -, _, candidate, _, path, _, payload, result⟩ := passed
  cases result
  have copy : _ = e.payload := Except.ok.inj (payload.symm.trans (copy_copied copied))
  rw [requireSha256_returns _ _ _ previous, validateUtcTimestamp_returns _ _ _ timestamp,
    requireSha256_returns _ _ _ controller, requireSha256_returns _ _ _ source,
    requireSha256_returns _ _ _ champion, requireSha256_returns _ _ _ original, requireSha256_returns _ _ _ config,
    requireSha256_returns _ _ _ schedule, requireSha256_returns _ _ _ policy, requireSha256_returns _ _ _ hash,
    requireNonempty_returns _ _ _ reason, requireNonempty_returns _ _ _ actor,
    optionally_returns (requireNonempty_returns _) key, optionally_returns (requireSha256_returns _) candidate,
    optionally_returns (requireNonempty_returns _) path, copy]
  rfl

omit [Runtime F] in
theorem checkSequence_int {n m : Int} (passed : checkSequence (.int n : Json F) = .ok m) :
    m = n ∧ 1 ≤ n ∧ n < 10 ^ eventSequenceWidth := by
  simp only [checkSequence] at passed
  split at passed
  next => cases passed
  next positive =>
    split at passed
    next => cases passed
    next short =>
      cases passed
      exact ⟨rfl, by omega, by omega⟩

theorem checkSchemaVersion_int {n m : Int} (passed : checkSchemaVersion (.int n : Json F) = .ok m) : m = n := by
  simp only [checkSchemaVersion] at passed
  split at passed
  · exact (Except.ok.inj passed).symm
  · cases passed

theorem verify_raw {e e' : PromotionEvent F} (copied : Copied e.payload) (passed : e.raw.verify = .ok e') :
    e' = e ∧ 1 ≤ e.sequence ∧ e.sequence < 10 ^ eventSequenceWidth := by
  simp only [RawEvent.verify, bind_eq_ok, require_eq_ok, exists_const] at passed
  obtain ⟨version, schema, sequence, number, checked, fields, _, _, _, _, _, result⟩ := passed
  cases result
  obtain rfl := checkSchemaVersion_int schema
  obtain ⟨rfl, positive, short⟩ := checkSequence_int number
  exact ⟨checkFields_raw copied (Checked.reraise_eq_ok.mp fields), positive, short⟩

/-- The event that the arguments make at a place in the log. -/
def EventArgs.event (args : EventArgs F) (sequence : Int) (previousHash timestampUtc : String) (transition : Transition)
    (payload : List (String × Json F)) (eventHash : String) : PromotionEvent F where
  schemaVersion := eventSchemaVersion
  sequence := sequence
  previousHash := previousHash
  timestampUtc := timestampUtc
  controllerHash := args.provenance.controllerHash
  sourceHash := args.provenance.sourceHash
  candidateHash := args.candidateHash
  candidatePath := args.candidatePath
  championHash := args.championHash
  originalHash := args.provenance.originalHash
  transition := transition
  evaluationKey := args.evaluationKey
  configHash := args.provenance.configHash
  scheduleHash := args.provenance.scheduleHash
  policyHash := args.provenance.policyHash
  reason := args.reason
  actor := args.actor
  payload := payload
  eventHash := eventHash

/-- What a built event is: it carries its arguments, a copy of the payload and the hash of its
own fields, and it passes its own checks. -/
theorem build_eq_ok {args : EventArgs F} {sequence : Int} {previousHash timestampUtc : String}
    {transition : Transition} {e : PromotionEvent F}
    (built : build args sequence previousHash timestampUtc transition = .ok e) :
    ∃ payload eventHash, copyJsonObject args.payload = .ok payload ∧ Copied payload ∧
      canonicalSha256 (.obj (args.bodyFields sequence previousHash timestampUtc transition payload)) = .ok eventHash ∧
      e = args.event sequence previousHash timestampUtc transition payload eventHash ∧ e.raw.verify = .ok e ∧
      1 ≤ sequence ∧ sequence < 10 ^ eventSequenceWidth := by
  simp only [build, bind_eq_ok] at built
  obtain ⟨payload, copy, eventHash, hashed, verified⟩ := built
  have copied := copied_of_copy args.keyed copy
  have same : args.raw sequence previousHash timestampUtc transition payload eventHash =
      (args.event sequence previousHash timestampUtc transition payload eventHash).raw := rfl
  rw [same] at verified
  obtain ⟨rfl, positive, short⟩ := verify_raw copied verified
  exact ⟨payload, eventHash, copy, copied, hashed, rfl, verified, positive, short⟩

/-- The fields of an event in its file, before they are put in order. -/
def PromotionEvent.fields (e : PromotionEvent F) : List (String × Json F) :=
  e.bodyFields e.payload ++ [("event_hash", .str e.eventHash)]

theorem toDict_copied {e : PromotionEvent F} (copied : Copied e.payload) : e.toDict = .ok e.fields := by
  rw [PromotionEvent.toDict, PromotionEvent.bodyDict, copy_copied copied]
  rfl

omit [Runtime F] in
theorem fields_names (e : PromotionEvent F) : e.fields.map Prod.fst = 
    ["schema_version", "sequence", "previous_hash", "timestamp_utc", "controller_hash", "source_hash",
      "candidate_hash", "candidate_path", "champion_hash", "original_hash", "transition", "evaluation_key",
      "config_hash", "schedule_hash", "policy_hash", "reason", "actor", "payload", "event_hash"] := rfl

omit [Runtime F] in
theorem fields_distinct (e : PromotionEvent F) : (e.fields.map Prod.fst).Nodup := by
  rw [fields_names]
  decide

omit [Runtime F] in
theorem optional_keyed (o : Option String) : (optional o : Json F).keyed = true := by
  cases o <;> rfl

omit [Runtime F] in
theorem optional_sorted (o : Option String) : (optional o : Json F).sorted = optional o := by
  cases o <;> rfl

omit [Runtime F] in
theorem fields_keyed {e : PromotionEvent F} (distinct : (Json.obj e.payload).keyed = true) :
    (Json.obj e.fields).keyed = true := by
  rw [Json.keyed, Bool.and_eq_true]
  refine ⟨decide_eq_true (fields_distinct e), ?_⟩
  simp [PromotionEvent.fields, PromotionEvent.bodyFields, Json.keyedFields, optional_keyed, Json.keyed]
  simpa [Json.keyed] using distinct

theorem sortFields_fields {e : PromotionEvent F} (copied : Copied e.payload) :
    sortFields e.fields = e.fields.insertionSort Json.keyLe := by
  have payload : (Json.obj e.payload).sorted = .obj e.payload := congrArg Json.obj copied.ordered
  have fixed : Json.sortedFields e.fields = e.fields := by
    simp only [PromotionEvent.fields, PromotionEvent.bodyFields, List.cons_append, List.nil_append, Json.sortedFields,
      optional_sorted, payload]
    rfl
  rw [sortFields, fixed]

theorem ofValue_value (t : Transition) : Transition.ofValue t.value = some t := by
  cases t <;> decide

omit [Runtime F] in
theorem missingFields_perm {e : PromotionEvent F} {fields : List (String × Json F)} (perm : fields.Perm e.fields) :
    missingFields fields = [] ∧ extraFields fields = [] := by
  have names : (fields.map Prod.fst).Perm expectedFields := perm.map Prod.fst
  constructor
  · apply List.filter_eq_nil_iff.mpr
    intro name member
    simpa using names.mem_iff.mpr member
  · apply List.filter_eq_nil_iff.mpr
    intro name member
    simpa using names.mem_iff.mp member

/-- Reading the fields of an event checks the event. -/
theorem fromDict_perm {e : PromotionEvent F} {fields : List (String × Json F)} (perm : fields.Perm e.fields) :
    fromDict (.obj fields) = e.raw.verify := by
  have same : ∀ key, Json.get fields key = Json.get e.fields key := Json.get_perm (fields_distinct e) perm
  have transition : namedTransition fields = some e.transition := by
    rw [namedTransition, same]
    exact ofValue_value e.transition
  have raw : rawOfFields fields e.transition = e.raw := by
    simp only [rawOfFields, same]
    rfl
  rw [fromDict, require, if_pos (missingFields_perm perm)]
  simp only [bind, Except.bind, transition]
  exact congrArg RawEvent.verify raw

end KataGo.Promotion
