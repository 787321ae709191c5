import KataGo.Lib.HashChain
import KataGo.Promotion.Append

/-! The chain of hashes in the registry: the hash of the last event stands for all the event files. -/

namespace KataGo.Promotion
open KataGo.Lib

variable {F : Type} [Runtime F] {e e' : PromotionEvent F}

section Bodies

/-- The bytes that the hash of an event is taken of. -/
def PromotionEvent.message (e : PromotionEvent F) : List UInt8 :=
  (Utf8.encode (Json.text (Json.obj (e.bodyFields e.payload)).sorted)).data.toList

omit [Runtime F] in
theorem body_distinct (e : PromotionEvent F) : ((e.bodyFields e.payload).map Prod.fst).Nodup := by
  have whole := fields_distinct e
  rw [PromotionEvent.fields, List.map_append] at whole
  exact whole.of_append_left

omit [Runtime F] in
theorem body_keyed (distinct : (Json.obj e.payload).keyed = true) : (Json.obj (e.bodyFields e.payload)).keyed = true := by
  have whole := fields_keyed distinct
  rw [Json.keyed, Bool.and_eq_true, Json.keyedFields_iff] at whole ⊢
  exact ⟨decide_eq_true (body_distinct e), fun field member => whole.2 field (List.mem_append_left _ member)⟩

omit [Runtime F] in
theorem optional_injective {o o' : Option String} (same : (optional o : Json F) = optional o') : o = o' := by
  cases o <;> cases o' <;> simp_all [optional]

/-- The body of an event is read back from its canonical text. -/
theorem bodyFields_of_message (copied : Copied e.payload) (copied' : Copied e'.payload)
    (writable : (Json.obj (e.bodyFields e.payload)).encodable = true)
    (writable' : (Json.obj (e'.bodyFields e'.payload)).encodable = true) (same : e.message = e'.message) :
    (Json.obj (e.bodyFields e.payload)).sorted = (Json.obj (e'.bodyFields e'.payload)).sorted := by
  have bytes : Utf8.encode (Json.text (Json.obj (e.bodyFields e.payload)).sorted) =
      Utf8.encode (Json.text (Json.obj (e'.bodyFields e'.payload)).sorted) :=
    ByteArray.ext (Array.toList_inj.mp same)
  have text : Json.text (Json.obj (e.bodyFields e.payload)).sorted =
      Json.text (Json.obj (e'.bodyFields e'.payload)).sorted := by
    have decoded := congrArg Utf8.decode bytes
    rw [Utf8.decode_encode, Utf8.decode_encode] at decoded
    exact Option.some.inj decoded
  have loaded := Json.loads_text (uniqueHooks_faithful (F := F)) (Json.obj (e.bodyFields e.payload)).sorted
    (by rw [Json.encodable_sorted]; exact writable) (by rw [Json.keyed_sorted]; exact body_keyed copied.distinct) (.inl rfl)
  have loaded' := Json.loads_text (uniqueHooks_faithful (F := F)) (Json.obj (e'.bodyFields e'.payload)).sorted
    (by rw [Json.encodable_sorted]; exact writable') (by rw [Json.keyed_sorted]; exact body_keyed copied'.distinct)
    (.inl rfl)
  rw [text] at loaded
  exact Option.some.inj (loaded.symm.trans loaded')

/-- Events with the same body and the same hash are the same. -/
theorem eq_of_body (copied : Copied e.payload) (copied' : Copied e'.payload)
    (sorted : (Json.obj (e.bodyFields e.payload)).sorted = (Json.obj (e'.bodyFields e'.payload)).sorted)
    (hash : e.eventHash = e'.eventHash) : e = e' := by
  have get : ∀ key, (Json.get (e.bodyFields e.payload) key).sorted = (Json.get (e'.bodyFields e'.payload) key).sorted := by
    intro key
    rw [← get_sortFields_of_nodup (body_distinct e), ← get_sortFields_of_nodup (body_distinct e')]
    exact congrArg (Json.get · key) (Json.obj.inj sorted)
  have plain : ∀ {o o' : Option String}, (optional o : Json F).sorted = (optional o' : Json F).sorted → o = o' := by
    intro o o' same
    rw [optional_sorted, optional_sorted] at same
    exact optional_injective same
  have version : e.schemaVersion = e'.schemaVersion := Json.int.inj (get "schema_version")
  have sequence : e.sequence = e'.sequence := Json.int.inj (get "sequence")
  have previous : e.previousHash = e'.previousHash := Json.str.inj (get "previous_hash")
  have timestamp : e.timestampUtc = e'.timestampUtc := Json.str.inj (get "timestamp_utc")
  have controller : e.controllerHash = e'.controllerHash := Json.str.inj (get "controller_hash")
  have source : e.sourceHash = e'.sourceHash := Json.str.inj (get "source_hash")
  have candidate : e.candidateHash = e'.candidateHash := plain (get "candidate_hash")
  have path : e.candidatePath = e'.candidatePath := plain (get "candidate_path")
  have champion : e.championHash = e'.championHash := Json.str.inj (get "champion_hash")
  have original : e.originalHash = e'.originalHash := Json.str.inj (get "original_hash")
  have transition : e.transition = e'.transition := by
    have value : e.transition.value = e'.transition.value := Json.str.inj (get "transition")
    have found := ofValue_value e.transition
    rw [value, ofValue_value] at found
    exact (Option.some.inj found).symm
  have key : e.evaluationKey = e'.evaluationKey := plain (get "evaluation_key")
  have config : e.configHash = e'.configHash := Json.str.inj (get "config_hash")
  have schedule : e.scheduleHash = e'.scheduleHash := Json.str.inj (get "schedule_hash")
  have policy : e.policyHash = e'.policyHash := Json.str.inj (get "policy_hash")
  have reason : e.reason = e'.reason := Json.str.inj (get "reason")
  have actor : e.actor = e'.actor := Json.str.inj (get "actor")
  have payload : e.payload = e'.payload := by
    have ordered : sortFields e.payload = sortFields e'.payload := Json.obj.inj (get "payload")
    rwa [copied.ordered, copied'.ordered] at ordered
  cases e
  cases e'
  simp only at *
  subst version sequence previous timestamp controller source candidate path champion original transition key config
  subst schedule policy reason actor payload hash
  rfl

end Bodies

section Reading

/-- What is known of an event that was read from a file. -/
structure Sealed (e : PromotionEvent F) : Prop where
  copied : Copied e.payload
  writable : (Json.obj (e.bodyFields e.payload)).encodable = true
  hash : e.eventHash = String.ofList (Sha256.hexDigest e.message)

omit [Runtime F] in
theorem keyed_get {fields : List (String × Json F)} (distinct : (Json.obj fields).keyed = true) (key : String) :
    (Json.get fields key).keyed = true := by
  rw [Json.keyed, Bool.and_eq_true, Json.keyedFields_iff] at distinct
  cases found : fields.lookup key with
  | none => rw [Json.get, found]; rfl
  | some v =>
    rw [Json.get, found]
    obtain ⟨before, after, whole, -⟩ := List.lookup_eq_some_iff.mp found
    exact distinct.2 (key, v) (by simp [whole])

theorem checkFields_payload {raw : RawEvent F} {version sequence : Int}
    (passed : checkFields raw version sequence = .ok e) : copyJsonObject raw.payload = .ok e.payload := by
  simp only [checkFields, bind_eq_ok, require_eq_ok, exists_const] at passed
  obtain ⟨_, -, _, -, _, -, _, -, _, -, _, -, _, -, _, -, _, -, _, -, _, -, _, -, _, -, -, _, -, _, -, _, payload, result⟩ :=
    passed
  cases result
  exact payload

/-- An event that passes its checks carries the hash of its own fields. -/
theorem verify_sealed {raw : RawEvent F} (distinct : raw.payload.keyed = true) (passed : raw.verify = .ok e) :
    Sealed e := by
  simp only [RawEvent.verify, bind_eq_ok, require_eq_ok, exists_const] at passed
  obtain ⟨version, -, sequence, -, event, fields, body, dict, expected, hashed, same, result⟩ := passed
  cases result
  have copied := copied_of_copy distinct (checkFields_payload (Checked.reraise_eq_ok.mp fields))
  have fixed : e.bodyDict = .ok (e.bodyFields e.payload) := by
    rw [PromotionEvent.bodyDict, copy_copied copied]
    rfl
  rw [Except.ok.inj (dict.symm.trans fixed), canonicalSha256, bind_eq_ok] at hashed
  obtain ⟨bytes, canonical, digest⟩ := hashed
  rw [canonicalJsonBytes_eq_ok] at canonical
  refine ⟨copied, canonical.1, ?_⟩
  rw [same, ← Except.ok.inj digest, canonical.2]
  rfl

theorem fromDict_sealed {value : Json F} (distinct : value.keyed = true) (passed : fromDict value = .ok e) :
    Sealed e := by
  unfold fromDict at passed
  split at passed
  next fields =>
    obtain ⟨_, -, passed⟩ := bind_eq_ok.mp passed
    dsimp only at passed
    split at passed
    next => cases passed
    next transition => exact verify_sealed (keyed_get distinct "payload") passed
  next => cases passed

end Reading

namespace EventRegistry

section Files

variable {dir : String}

/-- What the file of an event holds. -/
theorem readEvent_sealed {expected : Nat} {previousHash : String} {file : NumberedFile}
    (read : readEvent dir expected previousHash file = .ok e) :
    Sealed e ∧ file.number = expected ∧ file.node = .file (eventData e) ∧ e.sequence = expected ∧
      e.previousHash = previousHash := by
  simp only [readEvent, bind_eq_ok, require_eq_ok, exists_const] at read
  obtain ⟨number, data, regular, value, decoded, event, passed, dict, fields, canonical, bytes, same, sequence, previous,
    result⟩ := read
  cases result
  have distinct : value.keyed = true := by
    unfold decodeJson at decoded
    split at decoded
    next loaded =>
      cases decoded
      obtain ⟨text, -, loads⟩ := Option.bind_eq_some_iff.mp loaded
      exact Json.loads_keyed uniqueHooks_distinct loads
    next => cases decoded
  have whole := fromDict_sealed distinct passed
  refine ⟨whole, number, ?_, number ▸ sequence, previous⟩
  rw [Except.ok.inj (fields.symm.trans (toDict_copied whole.copied)), canonicalJsonBytes_eq_ok] at bytes
  rw [bytes.2] at same
  unfold readRegularFile at regular
  split at regular
  next => cases regular
  next stored node =>
    split at regular
    next => cases regular
    next =>
      cases regular
      rw [node, same]
      rfl

/-- The events of a registry are a chain, and their files are what they were written as. -/
theorem readEvents_chained {expected : Nat} {previousHash : String} {files : List NumberedFile}
    {events : List (PromotionEvent F)} (read : readEvents dir expected previousHash files = .ok events) :
    Chained PromotionEvent.eventHash PromotionEvent.previousHash PromotionEvent.sequence expected previousHash events ∧
      (∀ e ∈ events, Sealed e) ∧
      files.map (fun file => (file.number, file.node)) =
        events.map fun e => (e.sequence.toNat, Node.file (eventData e)) := by
  induction files generalizing expected previousHash events with
  | nil =>
    cases read
    exact ⟨trivial, by simp, rfl⟩
  | cons file files ih =>
    simp only [readEvents, bind_eq_ok] at read
    obtain ⟨e, first, rest, others, result⟩ := read
    cases result
    obtain ⟨whole, number, node, sequence, previous⟩ := readEvent_sealed first
    obtain ⟨chained, sound, same⟩ := ih others
    refine ⟨⟨sequence, previous, ?_⟩, List.forall_mem_cons.mpr ⟨whole, sound⟩, ?_⟩
    · exact_mod_cast chained
    · rw [List.map_cons, List.map_cons, same, number, node, sequence, Int.toNat_natCast]

theorem eq_of_digits {digits digits' : List Char} (all : ∀ c ∈ digits, NumberToken.isDigit c = true)
    (all' : ∀ c ∈ digits', NumberToken.isDigit c = true) (lengths : digits.length = digits'.length)
    (same : digits.foldl (fun n c => n * 10 + (c.toNat - '0'.toNat)) 0 =
      digits'.foldl (fun n c => n * 10 + (c.toNat - '0'.toNat)) 0) : digits = digits' := by
  induction digits using List.reverseRecOn generalizing digits' with
  | nil => exact (List.eq_nil_of_length_eq_zero lengths.symm).symm
  | append_singleton digits c ih =>
    cases digits' using List.reverseRecOn with
    | nil => simp at lengths
    | append_singleton digits' c' =>
      rw [List.foldl_concat, List.foldl_concat] at same
      have bounds : ∀ d, NumberToken.isDigit d = true → 48 ≤ d.toNat ∧ d.toNat ≤ 57 := by
        intro d digit
        simpa [NumberToken.isDigit, Char.le_def, UInt32.le_iff_toNat_le] using digit
      have last := bounds c (all c (by simp))
      have last' := bounds c' (all' c' (by simp))
      have zero : '0'.toNat = 48 := rfl
      rw [zero] at same ih
      have chars : c.toNat = c'.toNat := by omega
      have front : digits = digits' := ih (fun d member => all d (List.mem_append_left _ member))
        (fun d member => all' d (List.mem_append_left _ member)) (by simpa using lengths) (by omega)
      rw [front, Char.toNat_inj.mp chars]

/-- Event files with one number have one name. -/
theorem eventNumber_injective {name name' : String} {number : Nat} (named : eventNumber name = some number)
    (named' : eventNumber name' = some number) : name = name' := by
  simp only [eventNumber, Option.ite_none_right_eq_some, Option.some.injEq, List.all_eq_true] at named named'
  obtain ⟨⟨length, all, suffix⟩, value⟩ := named
  obtain ⟨⟨length', all', suffix'⟩, value'⟩ := named'
  have digits := eq_of_digits all all' (length.trans length'.symm) (value.trans value'.symm)
  apply String.toList_inj.mp
  rw [← List.take_append_drop eventSequenceWidth name.toList, ← List.take_append_drop eventSequenceWidth name'.toList,
    digits, suffix, suffix']

/-- The numbered files are files of the directory, with the numbers of their names. -/
theorem of_mem_numberedFiles {listed : List (String × Node)} {files : List NumberedFile} {file : NumberedFile}
    (found : numberedFiles F listed = .ok files) (member : file ∈ files) :
    eventNumber file.name = some file.number ∧ (file.name, file.node) ∈ listed := by
  induction listed generalizing files with
  | nil => cases found; cases member
  | cons entry listed ih =>
    obtain ⟨name, node⟩ := entry
    simp only [numberedFiles] at found
    split at found
    next number named =>
      obtain ⟨rest, others, result⟩ := bind_eq_ok.mp found
      cases result
      rcases List.mem_cons.mp member with rfl | later
      · exact ⟨named, List.mem_cons_self⟩
      · exact (ih others later).imp_right (List.mem_cons_of_mem _)
    next =>
      split at found
      next => exact (ih found member).imp_right (List.mem_cons_of_mem _)
      next =>
        split at found
        next => cases found
        next => exact (ih found member).imp_right (List.mem_cons_of_mem _)

/-- What the directory has under the name of an event. -/
theorem get_entries {registry : EventRegistry} {files : List NumberedFile} {name : String} {number : Nat} {node : Node}
    (found : numberedFiles F registry.entries.entries = .ok files) (named : eventNumber name = some number) :
    registry.entries.get name = some node ↔ (⟨number, name, node⟩ : NumberedFile) ∈ files := by
  constructor
  · intro there
    exact mem_numberedFiles found named (Dict.mem_of_get there)
  · intro member
    exact Dict.get_of_mem (of_mem_numberedFiles found member).2

end Files

section Heads

variable {registry registry' : EventRegistry} {state state' : RegistryState F}

/-- The events that two registries were read with are the same if they end with the same hash. -/
theorem events_eq_of_head (readable : registry.reconstruct = .ok state) (readable' : registry'.reconstruct = .ok state')
    (nonempty : state.events ≠ []) (nonempty' : state'.events ≠ [])
    (injective : Set.InjOn Sha256.hexDigest {m | ∃ e ∈ state.events ++ state'.events, m = e.message})
    (same : state.lastEventHash = state'.lastEventHash) : state.events = state'.events := by
  obtain ⟨files, -, read, made, -⟩ := reconstruct_eq_ok readable
  obtain ⟨files', -, read', made', -⟩ := reconstruct_eq_ok readable'
  obtain ⟨chained, sound, -⟩ := readEvents_chained read
  obtain ⟨chained', sound', -⟩ := readEvents_chained read'
  rw [(lastSequence_eq made).2, (lastSequence_eq made').2] at same
  have all : ∀ e, e ∈ state.events ∨ e ∈ state'.events → Sealed e ∧ e ∈ state.events ++ state'.events := by
    rintro e (member | member)
    · exact ⟨sound e member, List.mem_append_left _ member⟩
    · exact ⟨sound' e member, List.mem_append_right _ member⟩
  refine chained.eq_of_headHash chained' ?_ nonempty nonempty' same
  intro e member e' member' hash
  obtain ⟨whole, listed⟩ := all e member
  obtain ⟨whole', listed'⟩ := all e' member'
  have digests : Sha256.hexDigest e.message = Sha256.hexDigest e'.message := by
    have texts := hash
    rw [whole.hash, whole'.hash] at texts
    exact String.ofList_inj.mp texts
  have message := injective ⟨e, listed, rfl⟩ ⟨e', listed', rfl⟩ digests
  exact eq_of_body whole.copied whole'.copied
    (bodyFields_of_message whole.copied whole'.copied whole.writable whole'.writable message) hash

/-- Two lists of files that were read with the same events are the same. -/
theorem files_eq {dir dir' : String} {files files' : List NumberedFile} {events : List (PromotionEvent F)}
    (read : readEvents dir 1 genesisHash files = .ok events) (read' : readEvents dir' 1 genesisHash files' = .ok events)
    (named : ∀ file ∈ files, eventNumber file.name = some file.number)
    (named' : ∀ file ∈ files', eventNumber file.name = some file.number) : files = files' := by
  have same := (readEvents_chained read).2.2.trans (readEvents_chained read').2.2.symm
  clear read read'
  induction files generalizing files' with
  | nil => exact (List.map_eq_nil_iff.mp same.symm).symm
  | cons file files ih =>
    cases files' with
    | nil => cases same
    | cons file' files' =>
      rw [List.map_cons, List.map_cons, List.cons.injEq, Prod.mk.injEq] at same
      obtain ⟨⟨number, node⟩, rest⟩ := same
      have first := named file List.mem_cons_self
      have first' := named' file' List.mem_cons_self
      rw [number] at first
      have files := ih (fun f member => named f (List.mem_cons_of_mem _ member))
        (fun f member => named' f (List.mem_cons_of_mem _ member)) rest
      rw [files]
      have name := eventNumber_injective first first'
      cases file
      cases file'
      simp only at number node name
      rw [number, node, name]

/-- Two registries that can be read and end with the same hash have the same event files, byte for
byte, unless the digests of two of their events collide. -/
theorem same_head_same_files (readable : registry.reconstruct = .ok state)
    (readable' : registry'.reconstruct = .ok state') (nonempty : state.events ≠ []) (nonempty' : state'.events ≠ [])
    (collisionFree : Set.InjOn Sha256.hexDigest {m | ∃ e ∈ state.events ++ state'.events, m = e.message})
    (same : state.lastEventHash = state'.lastEventHash) (name : String) (event : (eventNumber name).isSome) :
    registry.entries.get name = registry'.entries.get name := by
  have events := events_eq_of_head readable readable' nonempty nonempty' collisionFree same
  obtain ⟨files, found, read, -, -⟩ := reconstruct_eq_ok readable
  obtain ⟨files', found', read', -, -⟩ := reconstruct_eq_ok readable'
  rw [← events] at read'
  have perm := List.perm_insertionSort numberLe files
  have perm' := List.perm_insertionSort numberLe files'
  have sorted := files_eq read read' (fun file member => (of_mem_numberedFiles found (perm.mem_iff.mp member)).1)
    fun file member => (of_mem_numberedFiles found' (perm'.mem_iff.mp member)).1
  obtain ⟨number, named⟩ := Option.isSome_iff_exists.mp event
  apply Option.ext
  intro node
  rw [get_entries found named, get_entries found' named, ← perm.mem_iff, sorted, perm'.mem_iff]

end Heads

section Sample

/-- A registry in which a champion was bootstrapped, read twice. -/
theorem same_head_same_files_bootstrapped : ∃ (registry : EventRegistry) (state : RegistryState Unit),
    registry.reconstruct = .ok state ∧ state.events ≠ [] ∧
      Set.InjOn Sha256.hexDigest {m | ∃ e ∈ state.events ++ state.events, m = e.message} ∧
      ∀ name, (eventNumber name).isSome → registry.entries.get name = registry.entries.get name := by
  obtain ⟨event, next, written, -, readable, events⟩ := append_fits rfl (accepted_noted "n")
    (fits_of_recordSize_le recordSize_small)
  have nonempty : next.events ≠ [] := by
    rw [events]
    exact List.append_ne_nil_of_right_ne_nil _ (List.cons_ne_nil _ _)
  have one : ∀ e ∈ next.events ++ next.events, e = event := by
    have single : next.events = [event] := events
    intro e member
    simpa [single] using member
  have injective : Set.InjOn Sha256.hexDigest {m | ∃ e ∈ next.events ++ next.events, m = e.message} := by
    intro m inside m' inside' _
    obtain ⟨e, member, same⟩ := inside
    obtain ⟨e', member', same'⟩ := inside'
    rw [same, same', one e member, one e' member']
  have head : next.lastEventHash = next.lastEventHash := rfl
  have files := same_head_same_files readable readable nonempty nonempty injective head
  exact ⟨written, next, readable, nonempty, injective, files⟩

end Sample

end EventRegistry
end KataGo.Promotion
