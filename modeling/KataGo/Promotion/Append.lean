import KataGo.Promotion.Events

/-! Appending to the registry: when the directory that an event was written to can be read
back, with the event at its end. -/

namespace KataGo.Promotion.EventRegistry
open KataGo.Lib

variable {F : Type} [Runtime F] {dir : String}

theorem decimal_length {n : Nat} (short : n < 10 ^ eventSequenceWidth) :
    (Json.decimal n).length ≤ eventSequenceWidth := by
  rw [Json.decimal]
  split
  · decide
  · rw [List.length_map, List.length_reverse]
    exact Nat.digits_length_le_iff (by decide) n |>.mpr short

/-- The name of an event file gives its number back. -/
theorem eventNumber_eventName {n : Nat} (short : n < 10 ^ eventSequenceWidth) : eventNumber (eventName n) = some n := by
  have bound := decimal_length short
  have digits : (List.replicate (eventSequenceWidth - (Json.decimal n).length) '0' ++ Json.decimal n).length =
      eventSequenceWidth := by
    rw [List.length_append, List.length_replicate]
    omega
  have all : (List.replicate (eventSequenceWidth - (Json.decimal n).length) '0' ++
      Json.decimal n).all NumberToken.isDigit = true := by
    rw [List.all_eq_true]
    intro c member
    rcases List.mem_append.mp member with zero | digit
    · rw [List.eq_of_mem_replicate zero]
      decide
    · exact Json.decimal_isDigit n c digit
  simp only [eventNumber, eventName, String.toList_ofList]
  rw [List.take_left' digits, List.drop_left' digits, if_pos ⟨digits, all, rfl⟩, Json.foldl_zeros, Json.foldl_decimal]

theorem numberedFiles_concat {listed : List (String × Node)} {files : List NumberedFile} {name : String} {node : Node}
    {number : Nat} (found : numberedFiles F listed = .ok files) (numbered : eventNumber name = some number) :
    numberedFiles F (listed ++ [(name, node)]) = .ok (files ++ [⟨number, name, node⟩]) := by
  induction listed generalizing files with
  | nil =>
    cases found
    simp only [List.nil_append, numberedFiles, numbered]
    rfl
  | cons entry listed ih =>
    obtain ⟨name', node'⟩ := entry
    simp only [List.cons_append, numberedFiles] at found ⊢
    split at found
    next number' named =>
      obtain ⟨rest, others, result⟩ := bind_eq_ok.mp found
      cases result
      rw [ih others]
      rfl
    next =>
      split at found
      next skipped => rw [if_pos skipped]; exact ih found
      next =>
        split at found
        next => cases found
        next notSkipped notMalformed =>
          rw [if_neg notSkipped, if_neg notMalformed]
          exact ih found

theorem mem_numberedFiles {listed : List (String × Node)} {files : List NumberedFile} {name : String} {node : Node}
    {number : Nat} (found : numberedFiles F listed = .ok files) (numbered : eventNumber name = some number)
    (member : (name, node) ∈ listed) : ⟨number, name, node⟩ ∈ files := by
  induction listed generalizing files with
  | nil => cases member
  | cons entry listed ih =>
    obtain ⟨name', node'⟩ := entry
    simp only [numberedFiles] at found
    split at found
    next number' named =>
      obtain ⟨rest, others, result⟩ := bind_eq_ok.mp found
      cases result
      rcases List.mem_cons.mp member with same | later
      · cases same
        cases numbered.symm.trans named
        exact List.mem_cons_self
      · exact List.mem_cons_of_mem _ (ih others later)
    next unnamed =>
      have later : (name, node) ∈ listed := by
        rcases List.mem_cons.mp member with same | later
        · cases same
          cases unnamed.symm.trans numbered
        · exact later
      split at found
      next => exact ih found later
      next =>
        split at found
        next => cases found
        next => exact ih found later

theorem orderedInsert_concat {file last : NumberedFile} {files : List NumberedFile} (before : numberLe file last) :
    (files ++ [last]).orderedInsert numberLe file = files.orderedInsert numberLe file ++ [last] := by
  induction files with
  | nil => simp [before]
  | cons first files ih =>
    by_cases less : numberLe file first
    · simp [less]
    · simp [less, ih]

/-- A file after all others stays last when the files are sorted. -/
theorem insertionSort_concat {files : List NumberedFile} {last : NumberedFile}
    (after : ∀ file ∈ files, numberLe file last) :
    (files ++ [last]).insertionSort numberLe = files.insertionSort numberLe ++ [last] := by
  induction files with
  | nil => rfl
  | cons file files ih =>
    rw [List.cons_append, List.insertionSort_cons, ih fun f member => after f (List.mem_cons_of_mem _ member),
      orderedInsert_concat (after file List.mem_cons_self), List.insertionSort_cons]

/-- The hash at the end of a chain that starts from another one. -/
def lastHash (previousHash : String) (events : List (PromotionEvent F)) : String :=
  (events.getLast?.map PromotionEvent.eventHash).getD previousHash

theorem readEvent_eq_ok {expected : Nat} {previousHash : String} {file : NumberedFile} {e : PromotionEvent F}
    (read : readEvent dir expected previousHash file = .ok e) :
    file.number = expected ∧ e.sequence = expected := by
  simp only [readEvent, bind_eq_ok, require_eq_ok, exists_const] at read
  obtain ⟨number, _, _, _, _, _, _, _, _, _, _, _, sequence, _, result⟩ := read
  cases result
  exact ⟨number, number ▸ sequence⟩

/-- The files of a registry that can be read are numbered in order, and so are its events. -/
theorem readEvents_numbers {expected : Nat} {previousHash : String} {files : List NumberedFile}
    {events : List (PromotionEvent F)} (read : readEvents dir expected previousHash files = .ok events) :
    (∀ file ∈ files, file.number < expected + files.length) ∧
      (events.getLast?.map PromotionEvent.sequence).getD (expected - 1) = expected + files.length - 1 := by
  induction files generalizing expected previousHash events with
  | nil =>
    cases read
    constructor
    · intro file member
      cases member
    · simp
  | cons file files ih =>
    simp only [readEvents, bind_eq_ok] at read
    obtain ⟨e, first, rest, others, result⟩ := read
    cases result
    obtain ⟨number, sequence⟩ := readEvent_eq_ok first
    obtain ⟨numbers, last⟩ := ih others
    constructor
    · intro f member
      rw [List.length_cons]
      rcases List.mem_cons.mp member with rfl | later
      · omega
      · have := numbers f later
        omega
    · rw [List.length_cons]
      cases rest with
      | nil =>
        simp only [List.getLast?_nil, Option.map_none, Option.getD_none] at last
        simp only [List.getLast?_singleton, Option.map_some, Option.getD_some, sequence]
        push_cast at last ⊢
        omega
      | cons second rest =>
        rw [List.getLast?_cons_cons]
        obtain ⟨final, ends⟩ : ∃ final, (second :: rest).getLast? = some final :=
          ⟨_, List.getLast?_eq_getLast_of_ne_nil (List.cons_ne_nil second rest)⟩
        rw [ends] at last ⊢
        simp only [Option.map_some, Option.getD_some] at last ⊢
        push_cast at last ⊢
        omega

/-- Reading one more file reads the files before it first. -/
theorem readEvents_concat {expected : Nat} {previousHash : String} {files : List NumberedFile} {file : NumberedFile}
    {events : List (PromotionEvent F)} (read : readEvents dir expected previousHash files = .ok events) :
    readEvents dir expected previousHash (files ++ [file]) =
      (readEvent dir (expected + files.length) (lastHash previousHash events) file).map
        fun e => events ++ [e] := by
  induction files generalizing expected previousHash events with
  | nil =>
    cases read
    show (readEvent dir expected previousHash file : Checked (PromotionEvent F)).bind _ =
      (readEvent dir expected previousHash file : Checked (PromotionEvent F)).map _
    cases (readEvent dir expected previousHash file : Checked (PromotionEvent F)) with
    | error e => rfl
    | ok e => rfl
  | cons first files ih =>
    simp only [readEvents, bind_eq_ok] at read
    obtain ⟨e, head, rest, others, result⟩ := read
    cases result
    have final : lastHash previousHash (e :: rest) = lastHash e.eventHash rest := by
      cases rest with
      | nil => rfl
      | cons second rest =>
        rw [lastHash, lastHash, List.getLast?_cons_cons,
          List.getLast?_eq_getLast_of_ne_nil (List.cons_ne_nil second rest)]
        rfl
    have count : expected + (first :: files).length = expected + 1 + files.length := by
      rw [List.length_cons]
      omega
    rw [List.cons_append, readEvents, head, final, count]
    show (readEvents dir (expected + 1) e.eventHash (files ++ [file]) : Checked (List (PromotionEvent F))).bind _ = _
    rw [ih others]
    cases (readEvent dir (expected + 1 + files.length) (lastHash e.eventHash rest) file : Checked (PromotionEvent F)) with
    | error e => rfl
    | ok e => rfl

/-- The bytes of an event file. -/
def eventData (e : PromotionEvent F) : ByteArray :=
  Utf8.encode (Json.text (Json.obj e.fields).sorted) ++ Utf8.encode ['\n']

theorem decodeJson_eventData {e : PromotionEvent F} {path : String} (copied : Copied e.payload)
    (writable : (Json.obj e.fields).encodable = true) :
    decodeJson (eventData e) path = .ok (Json.obj (sortFields e.fields)) := by
  have loaded := Json.loads_text (uniqueHooks_faithful (F := F)) (Json.obj e.fields).sorted
    (by rw [Json.encodable_sorted]; exact writable)
    (by rw [Json.keyed_sorted]; exact fields_keyed copied.distinct) (.inr rfl)
  rw [decodeJson, eventData, ← Utf8.encode_append, Utf8.decode_encode, Option.bind_some, loaded]
  rfl

theorem readRegularFile_small {data : ByteArray} {path : String} (small : data.size ≤ maxJsonBytes) :
    readRegularFile path (.file data) = .ok data := by
  rw [readRegularFile]
  exact if_neg (Nat.not_lt.mpr small)

theorem readRegularFile_large {data result : ByteArray} {path : String} (large : maxJsonBytes < data.size) :
    readRegularFile path (.file data) ≠ .ok result := by
  intro read
  rw [readRegularFile, if_pos large] at read
  cases read

/-- An event file within the size limit reads back as the event that it was written for. -/
theorem readEvent_eventData {e : PromotionEvent F} {expected : Nat} {name : String} (copied : Copied e.payload)
    (verified : e.raw.verify = .ok e) (writable : (Json.obj e.fields).encodable = true)
    (sequence : e.sequence = expected) (small : (eventData e).size ≤ maxJsonBytes) :
    readEvent dir expected e.previousHash ⟨expected, name, .file (eventData e)⟩ = .ok e := by
  have perm : (sortFields e.fields).Perm e.fields := by
    rw [sortFields_fields copied]
    exact List.perm_insertionSort _ _
  have bytes : canonicalJsonBytes (Json.obj e.fields) = .ok (Utf8.encode (Json.text (Json.obj e.fields).sorted)) :=
    canonicalJsonBytes_eq_ok.mpr ⟨writable, rfl⟩
  simp only [readEvent, bind_eq_ok, require_eq_ok, exists_const]
  refine ⟨trivial, eventData e, readRegularFile_small small, _, decodeJson_eventData copied writable, e, ?_, e.fields,
    toDict_copied copied, _, bytes, rfl, sequence, rfl, rfl⟩
  rw [fromDict_perm perm, verified]

/-- A file over the size limit is not read. -/
theorem readEvent_large {data : ByteArray} {expected : Nat} {previousHash name : String} {e : PromotionEvent F}
    (large : maxJsonBytes < data.size) : readEvent dir expected previousHash ⟨expected, name, .file data⟩ ≠ .ok e := by
  intro read
  simp only [readEvent, bind_eq_ok, require_eq_ok, exists_const] at read
  obtain ⟨-, _, regular, -⟩ := read
  exact readRegularFile_large large regular

/-- How many bytes the canonical text of the fields of an event takes, without the event's own
hash: a matter of the arguments, the time and the end of the log. -/
def recordSize (args : EventArgs F) (sequence : Int) (previousHash timestampUtc : String) (transition : Transition) :
    Nat :=
  match copyJsonObject args.payload with
  | .ok payload =>
      Utf8.size (Json.text (Json.obj (args.bodyFields sequence previousHash timestampUtc transition payload)).sorted)
  | .error _ => 0

/-- The hash field takes eighty bytes and the newline one. -/
theorem size_eventData {args : EventArgs F} {sequence : Int} {previousHash timestampUtc : String}
    {transition : Transition} {payload : List (String × Json F)} {message : List UInt8}
    (copy : copyJsonObject args.payload = .ok payload) (copied : Copied payload) :
    (eventData (args.event sequence previousHash timestampUtc transition payload
      (String.ofList (Sha256.hexDigest message)))).size =
        recordSize args sequence previousHash timestampUtc transition + 81 := by
  have ordered : (Json.obj payload).sorted = .obj payload := congrArg Json.obj copied.ordered
  have body : Json.sortedFields (args.bodyFields sequence previousHash timestampUtc transition payload) =
      args.bodyFields sequence previousHash timestampUtc transition payload := by
    simp only [EventArgs.bodyFields, Json.sortedFields, optional_sorted, ordered]
    rfl
  have whole : Json.sortedFields (args.bodyFields sequence previousHash timestampUtc transition payload ++
      [("event_hash", .str (String.ofList (Sha256.hexDigest message)))]) =
        args.bodyFields sequence previousHash timestampUtc transition payload ++
          [("event_hash", .str (String.ofList (Sha256.hexDigest message)))] := by
    rw [Json.sortedFields_eq, List.map_append, ← Json.sortedFields_eq, body]
    rfl
  have hash : Json.fieldSize (("event_hash", .str (String.ofList (Sha256.hexDigest message))) : String × Json F) = 80 := by
    rw [Json.fieldSize_eq]
    show Utf8.size (Json.quoted "event_hash") + Utf8.size (Json.quoted _) + 2 = 80
    rw [Json.size_quoted_digits (Sha256.hexDigest_digits message), Sha256.hexDigest_length]
    rfl
  have fields : (args.event sequence previousHash timestampUtc transition payload
      (String.ofList (Sha256.hexDigest message))).fields =
        args.bodyFields sequence previousHash timestampUtc transition payload ++
          [("event_hash", .str (String.ofList (Sha256.hexDigest message)))] := rfl
  have nonempty : args.bodyFields sequence previousHash timestampUtc transition payload ≠ [] := by
    simp [EventArgs.bodyFields]
  rw [eventData, ByteArray.size_append, Utf8.size_encode, Utf8.size_encode, fields,
    Json.size_text_sorted (by simp) whole, recordSize, copy]
  show _ = Utf8.size (Json.text (Json.obj (args.bodyFields sequence previousHash timestampUtc transition payload)).sorted) + 81
  rw [Json.size_text_sorted nonempty body, List.map_append, List.sum_append, List.map_singleton, hash]
  show 1 + (_ + 80) + 1 = _
  omega

/-- The arguments pass every check of the writer, after the events of `state`. -/
structure Accepted (registry : EventRegistry) (state : RegistryState F) (transition : String) (args : EventArgs F)
    (timestampUtc : Option String) (now : String) (t : Transition) (timestamp : String) : Prop where
  arguments : checkArguments transition args timestampUtc now = .ok (t, timestamp)
  legal : ∃ event next, build args (state.lastSequence + 1) state.lastEventHash timestamp t = .ok event ∧
    stateFromEvents (state.events ++ [event]) = .ok next
  directory : registry.path ≠ .notADirectory

/-- What appending is meant to do: an event that is returned is the last event that the new
directory is read with, and nothing changes when an error is raised. -/
def AppendsReadably (registry : EventRegistry) (state : RegistryState F) (transition : String) (args : EventArgs F)
    (timestampUtc : Option String) (now : String) : Prop :=
  (∀ event, (registry.appendEvent transition args timestampUtc now).1 = .ok event →
    ∃ next : RegistryState F, (registry.appendEvent transition args timestampUtc now).2.reconstruct = .ok next ∧
      next.events = state.events ++ [event]) ∧
  ∀ error, (registry.appendEvent transition args timestampUtc now).1 = .error error →
    (registry.appendEvent transition args timestampUtc now).2.entries = registry.entries

section Append

variable {registry made : EventRegistry} {state : RegistryState F} {transition : String} {args : EventArgs F}
  {timestampUtc : Option String} {now : String} {event : PromotionEvent F} {data : ByteArray}

/-- What the reader of a registry sees of its directory. -/
theorem reconstruct_eq_ok (readable : registry.reconstruct = .ok state) :
    ∃ found, numberedFiles F registry.entries.entries = .ok found ∧
      readEvents registry.eventsDir 1 genesisHash (found.insertionSort numberLe) = .ok state.events ∧
      stateFromEvents state.events = .ok state ∧ registry.path ≠ .directory .notADirectory := by
  simp only [reconstruct, bind_eq_ok] at readable
  obtain ⟨files, paths, events, read, made⟩ := readable
  have same : state.events = events := by
    rw [stateFromEvents, bind_eq_ok] at made
    obtain ⟨b, -, result⟩ := made
    cases result
    rfl
  rw [same]
  unfold eventPaths at paths
  split at paths
  next path => exact ⟨[], by simp [entries, path, Dict.empty, numberedFiles], by cases paths; exact read, made, by simp [path]⟩
  next path => exact ⟨[], by simp [entries, path, Dict.empty, numberedFiles], by cases paths; exact read, made, by simp [path]⟩
  next path => exact ⟨[], by simp [entries, path, Dict.empty, numberedFiles], by cases paths; exact read, made, by simp [path]⟩
  next path => cases paths
  next listed path =>
    obtain ⟨found, numbered, result⟩ := bind_eq_ok.mp paths
    cases result
    exact ⟨found, by simpa [entries, path] using numbered, read, made, by simp [path]⟩

omit [Runtime F] in
theorem lastSequence_eq {events : List (PromotionEvent F)} (made : stateFromEvents events = .ok state) :
    state.lastSequence = (events.getLast?.map PromotionEvent.sequence).getD 0 ∧
      state.lastEventHash = lastHash genesisHash events := by
  rw [stateFromEvents, bind_eq_ok] at made
  obtain ⟨b, -, result⟩ := made
  cases result
  exact ⟨rfl, rfl⟩

theorem ensureDirectories_eq_ok (ensured : registry.ensureDirectories = .ok made) :
    made.root = registry.root ∧ made.entries = registry.entries := by
  unfold ensureDirectories at ensured
  split at ensured
  next path => cases ensured; simp [entries, path]
  next => cases ensured
  next path => cases ensured; simp [entries, path]
  next => cases ensured
  next => cases ensured; exact ⟨rfl, rfl⟩

theorem ensureDirectories_of_ne (root : registry.path ≠ .notADirectory)
    (events : registry.path ≠ .directory .notADirectory) : ∃ made, registry.ensureDirectories = .ok made := by
  unfold ensureDirectories
  split
  next => exact ⟨_, rfl⟩
  next path => exact absurd path root
  next => exact ⟨_, rfl⟩
  next path => exact absurd path events
  next => exact ⟨_, rfl⟩

/-- A built event can be written. -/
theorem fields_encodable {sequence : Int} {previousHash timestamp : String} {t : Transition}
    {payload : List (String × Json F)} {eventHash : String}
    (hashed : canonicalSha256 (.obj (args.bodyFields sequence previousHash timestamp t payload)) = .ok eventHash) :
    (Json.obj (args.event sequence previousHash timestamp t payload eventHash).fields).encodable = true := by
  obtain ⟨bytes, canonical, -⟩ := bind_eq_ok.mp hashed
  have writable := (canonicalJsonBytes_eq_ok.mp canonical).1
  have body := Json.encodableFields_iff.mp writable
  apply Json.encodableFields_iff.mpr
  intro field member
  rcases List.mem_append.mp member with old | new
  · exact body field old
  · rw [List.mem_singleton.mp new]
    rfl

theorem prepare_eq_ok (readable : registry.reconstruct = .ok state)
    (prepared : registry.prepare transition args timestampUtc now = .ok (event, made, data)) :
    ∃ t timestamp next, Accepted registry state transition args timestampUtc now t timestamp ∧
      build args (state.lastSequence + 1) state.lastEventHash timestamp t = .ok event ∧
      stateFromEvents (state.events ++ [event]) = .ok next ∧ registry.ensureDirectories = .ok made ∧
      data = eventData event := by
  simp only [prepare, bind_eq_ok] at prepared
  obtain ⟨⟨t, timestamp⟩, arguments, state', readable', event', built, next, legal, made', ensured, fields, dict, bytes,
    canonical, result⟩ := prepared
  cases result
  cases readable.symm.trans readable'
  obtain ⟨payload, eventHash, copy, copied, hashed, rfl, -⟩ := build_eq_ok built
  have listed := Except.ok.inj (dict.symm.trans (toDict_copied copied))
  rw [listed] at canonical
  obtain ⟨-, text⟩ := canonicalJsonBytes_eq_ok.mp canonical
  refine ⟨t, timestamp, next, ⟨Checked.reraise_eq_ok.mp arguments, ⟨_, next, built, legal⟩, ?_⟩, built, legal, ensured, ?_⟩
  · intro path
    simp [ensureDirectories, path] at ensured
  · rw [text, eventData]

theorem prepare_of_accepted {t : Transition} {timestamp : String} (readable : registry.reconstruct = .ok state)
    (accepted : Accepted registry state transition args timestampUtc now t timestamp) :
    ∃ event made data, registry.prepare transition args timestampUtc now = .ok (event, made, data) := by
  obtain ⟨event, next, built, legal⟩ := accepted.legal
  obtain ⟨-, -, -, -, events⟩ := reconstruct_eq_ok readable
  obtain ⟨made, ensured⟩ := ensureDirectories_of_ne accepted.directory events
  obtain ⟨payload, eventHash, copy, copied, hashed, same, -⟩ := build_eq_ok built
  subst same
  refine ⟨args.event (state.lastSequence + 1) state.lastEventHash timestamp t payload eventHash, made,
    eventData (args.event (state.lastSequence + 1) state.lastEventHash timestamp t payload eventHash), ?_⟩
  simp only [prepare, bind_eq_ok]
  exact ⟨(t, timestamp), Checked.reraise_eq_ok.mpr accepted.arguments, state, readable, _, built, next, legal, made,
    ensured, _, toDict_copied copied, _, canonicalJsonBytes_eq_ok.mpr ⟨fields_encodable hashed, rfl⟩, rfl⟩

/-- The number after the last event is that of no file yet. -/
theorem next_number {found : List NumberedFile}
    (read : readEvents dir 1 genesisHash (found.insertionSort numberLe) = .ok state.events)
    (made : stateFromEvents state.events = .ok state) :
    state.lastSequence + 1 = ((1 + found.length : Nat) : Int) ∧ ∀ file ∈ found, file.number < 1 + found.length := by
  obtain ⟨numbers, last⟩ := readEvents_numbers read
  rw [List.length_insertionSort] at numbers last
  constructor
  · have zero : ((1 : Nat) : Int) - 1 = 0 := rfl
    rw [zero] at last
    rw [(lastSequence_eq made).1, last]
    push_cast
    omega
  · intro file member
    exact numbers file ((List.mem_insertionSort numberLe).mpr member)

/-- Reading a registry with one more file: the file is read last. -/
theorem reconstruct_written {written : EventRegistry} {number : Nat} (readable : registry.reconstruct = .ok state)
    (next : state.lastSequence + 1 = number) (short : number < 10 ^ eventSequenceWidth)
    (root : written.root = registry.root)
    (path : written.path = .directory (.directory (registry.entries.set (eventName number) (.file data)))) :
    registry.entries.get (eventName number) = none ∧
    (written.reconstruct : Checked (RegistryState F)) =
      (readEvent registry.eventsDir number state.lastEventHash ⟨number, eventName number, .file data⟩).bind
        fun e => stateFromEvents (state.events ++ [e]) := by
  obtain ⟨found, numbered, read, made, -⟩ := reconstruct_eq_ok readable
  obtain ⟨following, numbers⟩ := next_number read made
  have count : number = 1 + found.length := by
    have := next.symm.trans following
    omega
  have named := eventNumber_eventName short
  have absent : registry.entries.get (eventName number) = none := by
    rw [Option.eq_none_iff_forall_ne_some]
    intro node there
    have := numbers _ (mem_numberedFiles numbered named (Dict.mem_of_get there))
    simp only at this
    omega
  have listed : (registry.entries.set (eventName number) (.file data)).entries =
      registry.entries.entries ++ [(eventName number, .file data)] := by
    rw [Dict.set, dif_neg (Dict.get_eq_none_iff.mp absent)]
  have files : written.eventPaths F =
      .ok (found.insertionSort numberLe ++ [⟨number, eventName number, .file data⟩]) := by
    rw [eventPaths, path]
    show (numberedFiles F (registry.entries.set _ _).entries >>= _) = _
    rw [listed, numberedFiles_concat numbered named]
    show Except.ok _ = _
    rw [insertionSort_concat]
    intro file member
    have := numbers file member
    show file.number ≤ number
    omega
  refine ⟨absent, ?_⟩
  have directory : written.eventsDir = registry.eventsDir := by rw [eventsDir, eventsDir, root]
  have together : readEvents registry.eventsDir 1 genesisHash
      (found.insertionSort numberLe ++ [⟨number, eventName number, .file data⟩]) = _ := readEvents_concat read
  rw [List.length_insertionSort, ← count] at together
  rw [reconstruct, files, directory]
  show (readEvents registry.eventsDir 1 genesisHash _ : Checked (List (PromotionEvent F))).bind _ = _
  rw [together, (lastSequence_eq made).2]
  cases (readEvent registry.eventsDir number (lastHash genesisHash state.events)
    ⟨number, eventName number, .file data⟩ : Checked (PromotionEvent F)) with
  | error e => rfl
  | ok e => rfl

/-- What happens to arguments that are accepted: the event is returned, and the new directory is
read as the old one, followed by the file of the event. -/
theorem append_accepted {t : Transition} {timestamp : String} (readable : registry.reconstruct = .ok state)
    (accepted : Accepted registry state transition args timestampUtc now t timestamp) :
    ∃ event next written, registry.appendEvent transition args timestampUtc now = (.ok event, written) ∧
      build args (state.lastSequence + 1) state.lastEventHash timestamp t = .ok event ∧
      stateFromEvents (state.events ++ [event]) = .ok next ∧
      (eventData event).size = recordSize args (state.lastSequence + 1) state.lastEventHash timestamp t + 81 ∧
      (written.reconstruct : Checked (RegistryState F)) =
        (readEvent registry.eventsDir event.sequence.toNat event.previousHash
          ⟨event.sequence.toNat, eventName event.sequence.toNat, .file (eventData event)⟩).bind
            fun e => stateFromEvents (state.events ++ [e]) := by
  obtain ⟨event, made, data, prepared⟩ := prepare_of_accepted readable accepted
  obtain ⟨t', timestamp', next, other, built, legal, ensured, bytes⟩ := prepare_eq_ok readable prepared
  cases other.arguments.symm.trans accepted.arguments
  obtain ⟨root, kept⟩ := ensureDirectories_eq_ok ensured
  obtain ⟨found, -, read, made', -⟩ := reconstruct_eq_ok readable
  obtain ⟨payload, eventHash, copy, copied, hashed, same, -, positive, short⟩ := build_eq_ok built
  have number : event.sequence = state.lastSequence + 1 := by
    rw [same]
    rfl
  have sequence : state.lastSequence + 1 = (event.sequence.toNat : Int) := by omega
  have previous : event.previousHash = state.lastEventHash := by
    rw [same]
    rfl
  let written : EventRegistry := ⟨made.root, .directory (.directory (made.entries.set (eventName event.sequence.toNat)
    (.file data)))⟩
  obtain ⟨absent, reread⟩ := reconstruct_written readable sequence (by rw [sequence] at short; exact_mod_cast short)
    (show written.root = registry.root from root) (by rw [← kept])
  refine ⟨event, next, written, ?_, built, legal, ?_, ?_⟩
  · rw [appendEvent, prepared]
    simp only [kept, absent, written]
  · obtain ⟨message, -, hash⟩ := bind_eq_ok.mp hashed
    cases hash
    rw [same]
    exact size_eventData copy copied
  · rw [reread, previous, bytes]

/-- An event that fits into the limit of the reader is the last one that is read. -/
theorem append_fits {t : Transition} {timestamp : String} (readable : registry.reconstruct = .ok state)
    (accepted : Accepted registry state transition args timestampUtc now t timestamp)
    (small : recordSize args (state.lastSequence + 1) state.lastEventHash timestamp t + 81 ≤ maxJsonBytes) :
    ∃ (event : PromotionEvent F) (next : RegistryState F) (written : EventRegistry),
      registry.appendEvent transition args timestampUtc now = (.ok event, written) ∧
        written.reconstruct = .ok next ∧ next.events = state.events ++ [event] := by
  obtain ⟨event, next, written, result, built, legal, size, reread⟩ := append_accepted readable accepted
  obtain ⟨payload, eventHash, -, copied, hashed, same, verified, positive, -⟩ := build_eq_ok built
  have number : event.sequence = state.lastSequence + 1 := by
    rw [same]
    rfl
  have back : readEvent registry.eventsDir event.sequence.toNat event.previousHash
      ⟨event.sequence.toNat, eventName event.sequence.toNat, .file (eventData event)⟩ = .ok event := by
    apply readEvent_eventData _ verified _ (by omega) (by rw [size]; exact small)
    · rw [same]
      exact copied
    · rw [same]
      exact fields_encodable hashed
  refine ⟨event, next, written, result, ?_, ?_⟩
  · rw [reread, back]
    exact legal
  · rw [stateFromEvents, bind_eq_ok] at legal
    obtain ⟨b, -, final⟩ := legal
    cases final
    rfl

/-- An event over the limit is written all the same, and then nothing can be read any more. -/
theorem append_overflows {t : Transition} {timestamp : String} (readable : registry.reconstruct = .ok state)
    (accepted : Accepted registry state transition args timestampUtc now t timestamp)
    (large : maxJsonBytes < recordSize args (state.lastSequence + 1) state.lastEventHash timestamp t + 81) :
    ∃ (event : PromotionEvent F) (written : EventRegistry),
      registry.appendEvent transition args timestampUtc now = (.ok event, written) ∧
        ∀ next : RegistryState F, written.reconstruct ≠ .ok next := by
  obtain ⟨event, next, written, result, -, -, size, reread⟩ := append_accepted readable accepted
  refine ⟨event, written, result, fun next again => ?_⟩
  rw [reread] at again
  obtain ⟨e, read, -⟩ := bind_eq_ok.mp again
  exact readEvent_large (by rw [size]; exact large) read

/-- Arguments that are not accepted change nothing. -/
theorem append_rejected (readable : registry.reconstruct = .ok state)
    (rejected : ∀ t timestamp, ¬Accepted registry state transition args timestampUtc now t timestamp) :
    ∃ error, registry.appendEvent transition args timestampUtc now = (.error error, registry) := by
  cases prepared : registry.prepare transition args timestampUtc now with
  | error e => exact ⟨e, by rw [appendEvent, prepared]⟩
  | ok outcome =>
    obtain ⟨t, timestamp, -, accepted, -⟩ := prepare_eq_ok readable prepared
    exact absurd accepted (rejected t timestamp)

/-- Appending keeps the registry readable exactly when the arguments are rejected or the event
fits into a file that the reader accepts: the writer does not look at the size. -/
theorem appendsReadably_iff (readable : registry.reconstruct = .ok state) :
    AppendsReadably registry state transition args timestampUtc now ↔
      ∀ t timestamp, Accepted registry state transition args timestampUtc now t timestamp →
        recordSize args (state.lastSequence + 1) state.lastEventHash timestamp t + 81 ≤ maxJsonBytes := by
  constructor
  · intro appends t timestamp accepted
    by_contra large
    obtain ⟨event, written, result, unreadable⟩ := append_overflows readable accepted (Nat.lt_of_not_le large)
    rw [AppendsReadably, result] at appends
    obtain ⟨next, again, -⟩ := appends.1 event rfl
    exact unreadable next again
  · intro fits
    by_cases some : ∃ t timestamp, Accepted registry state transition args timestampUtc now t timestamp
    · obtain ⟨t, timestamp, accepted⟩ := some
      obtain ⟨event, next, written, result, again, events⟩ := append_fits readable accepted (fits t timestamp accepted)
      rw [AppendsReadably, result]
      constructor
      · intro event' returned
        cases returned
        exact ⟨next, again, events⟩
      · intro error impossible
        cases impossible
    · push Not at some
      obtain ⟨error, result⟩ := append_rejected readable some
      rw [AppendsReadably, result]
      constructor
      · intro event impossible
        cases impossible
      · intro _ _
        rfl

end Append

section Sample

/-- A runtime whose only floating-point number is `0.0`, and that can read one date. -/
instance plainRuntime : Runtime Unit where
  isFinite _ := true
  repr _ := ['0', '.', '0']
  parse _ := ()
  maxStrDigits := 4300
  scan_repr _ _ _ stops := stops.scan_zero
  parse_repr _ _ := rfl
  fromIsoFormat date := if date = "2026-01-01T00:00:00+00:00" then some (some 0) else none
  isDigit := NumberToken.isDigit

theorem isSha256_digest {c : Char} (hex : isHexDigit c = true) : isSha256 (digest c) = true := by
  rw [isSha256, digest, String.toList_ofList]
  simp [hex]

theorem isSha256_sha256Bytes (data : ByteArray) : isSha256 (sha256Bytes data) = true := by
  have digits : (Sha256.hexDigest data.data.toList).all isHexDigit = true := by
    rw [List.all_eq_true]
    intro c member
    obtain ⟨n, small, rfl⟩ := Sha256.hexDigest_digits _ c member
    exact (by decide : ∀ n < 16, isHexDigit (Nat.digitChar n) = true) n small
  rw [isSha256, sha256Bytes, String.toList_ofList, Sha256.hexDigest_length, digits]
  rfl

def sampleProvenance : EventProvenance where
  controllerHash := digest '0'
  sourceHash := digest '0'
  originalHash := digest '0'
  configHash := digest '0'
  scheduleHash := digest '0'
  policyHash := digest '0'
  sha256 := by
    have hash : isSha256 (digest '0') = true := isSha256_digest rfl
    simp [hash]

def sampleTime : String := "2026-01-01T00:00:00Z"

/-- The payload that bootstraps a champion, with a note. -/
def notedPayload (note : String) : List (String × Json Unit) := [("generation_id", .str "g0"), ("note", .str note)]

def notedArgs (note : String) : EventArgs Unit where
  provenance := sampleProvenance
  championHash := digest 'a'
  reason := "sample"
  actor := "controller"
  candidateHash := none
  candidatePath := none
  evaluationKey := none
  payload := .obj (notedPayload note)
  keyed := by simp [notedPayload, Json.keyed, Json.keyedFields]

def noRegistry : EventRegistry := ⟨"registry", .missing⟩

/-- The state of a registry without events. -/
def noEvents : RegistryState Unit := ⟨[], .empty, .empty, .empty, none, none, none, 0, genesisHash⟩

theorem requireNonempty_sample (field : String) :
    requireNonempty (.str "sample" : Json Unit) field = .ok "sample" ∧
      requireNonempty (.str "controller" : Json Unit) field = .ok "controller" := by
  simp [requireNonempty, isSpace]

theorem sampleTime_utc : validateUtcTimestamp (.str sampleTime : Json Unit) "timestamp_utc" = .ok sampleTime := by
  decide +kernel

theorem notedPayload_copied (note : String) : Copied (notedPayload note) := by
  refine ⟨rfl, (notedArgs note).keyed, ?_⟩
  exact if_pos (show "generation_id" ≤ "note" by decide)

/-- A champion can be bootstrapped with any note. -/
theorem build_noted (note : String) :
    ∃ event next, build (notedArgs note) 1 genesisHash sampleTime .championBootstrapped = .ok event ∧
      stateFromEvents [event] = .ok next := by
  have copy := copy_copied (notedPayload_copied note)
  have zero := requireSha256_valid (F := Unit) (isSha256_digest (c := '0') rfl)
  have text := requireNonempty_sample
  obtain ⟨hash, hashed, valid⟩ : ∃ hash, canonicalSha256 (.obj ((notedArgs note).bodyFields 1 genesisHash sampleTime
      .championBootstrapped (notedPayload note))) = .ok hash ∧ isSha256 hash = true := by
    exact ⟨_, bind_eq_ok.mpr ⟨_, canonicalJsonBytes_eq_ok.mpr ⟨rfl, rfl⟩, rfl⟩, isSha256_sha256Bytes _⟩
  refine ⟨(notedArgs note).event 1 genesisHash sampleTime .championBootstrapped (notedPayload note) hash, _, ?_, rfl⟩
  simp only [build, bind_eq_ok]
  refine ⟨_, copy, _, hashed, ?_⟩
  simp only [RawEvent.verify, bind_eq_ok, require_eq_ok, exists_const, Checked.reraise_eq_ok, checkFields]
  refine ⟨1, rfl, 1, rfl, _, ⟨_, zero _, _, sampleTime_utc, _, zero _, _, zero _, _,
    requireSha256_valid (isSha256_digest rfl) _, _, zero _, _, zero _, _, zero _, _, zero _, _,
    requireSha256_valid valid _, _, (text _).1, _, (text _).2, none, rfl, rfl, none, rfl, none, rfl, _, copy, rfl⟩, _,
    ?_, _, hashed, rfl, rfl⟩
  rw [PromotionEvent.bodyDict]
  show (copyJsonObject _ >>= _) = _
  rw [copy]
  rfl

theorem accepted_noted (note : String) : Accepted noRegistry noEvents "champion.bootstrapped" (notedArgs note)
    (some sampleTime) sampleTime .championBootstrapped sampleTime := by
  refine ⟨?_, build_noted note, nofun⟩
  have known : Transition.ofValue "champion.bootstrapped" = some .championBootstrapped :=
    ofValue_value .championBootstrapped
  have text := requireNonempty_sample
  rw [checkArguments, known]
  simp only [bind_eq_ok]
  exact ⟨_, rfl, _, requireSha256_valid (isSha256_digest rfl) _, _, (text _).1, _, (text _).2, none, rfl, none, rfl, _,
    sampleTime_utc, rfl⟩

theorem recordSize_noted (note : String) : recordSize (notedArgs note) 1 genesisHash sampleTime .championBootstrapped =
    Utf8.size (Json.text (Json.obj ((notedArgs note).bodyFields 1 genesisHash sampleTime .championBootstrapped
      (notedPayload note)))) := by
  have copy : copyJsonObject (notedArgs note).payload = .ok (notedPayload note) := copy_copied (notedPayload_copied note)
  have fixed : Json.sortedFields ((notedArgs note).bodyFields 1 genesisHash sampleTime .championBootstrapped
      (notedPayload note)) = (notedArgs note).bodyFields 1 genesisHash sampleTime .championBootstrapped
        (notedPayload note) := by
    have ordered : (Json.obj (notedPayload note)).sorted = .obj (notedPayload note) :=
      congrArg Json.obj (notedPayload_copied note).ordered
    simp only [EventArgs.bodyFields, Json.sortedFields, optional_sorted, ordered]
    rfl
  have nonempty : (notedArgs note).bodyFields 1 genesisHash sampleTime .championBootstrapped (notedPayload note) ≠ [] :=
    List.cons_ne_nil _ _
  rw [recordSize, copy, Json.size_text_obj nonempty]
  exact Json.size_text_sorted nonempty fixed

/-- A note is no longer than the event that carries it. -/
theorem length_le_recordSize (note : String) :
    note.toList.length ≤ recordSize (notedArgs note) 1 genesisHash sampleTime .championBootstrapped := by
  have note_le : note.toList.length ≤ Json.fieldSize (F := Unit) ("note", .str note) := by
    have := Json.length_le_quoted note
    rw [Json.fieldSize_eq]
    show _ ≤ _ + Utf8.size (Json.quoted note) + 2
    omega
  have payload_le : Json.fieldSize (F := Unit) ("note", .str note) ≤
      Utf8.size (Json.text (Json.obj (notedPayload note))) := Json.fieldSize_le (by simp [notedPayload])
  have body_le : Json.fieldSize ("payload", Json.obj (notedPayload note)) ≤ Utf8.size (Json.text (Json.obj
      ((notedArgs note).bodyFields 1 genesisHash sampleTime .championBootstrapped (notedPayload note)))) :=
    Json.fieldSize_le (by simp [EventArgs.bodyFields])
  rw [Json.fieldSize_eq] at body_le
  rw [recordSize_noted]
  omega

/-- The bound is a variable's: sums of closed terms would be evaluated to compare them. -/
theorem fits_of_recordSize_le {size : Nat} (small : size ≤ 100000) : size + 81 ≤ maxJsonBytes := by
  have limit : maxJsonBytes = 67108864 := rfl
  omega

theorem fieldSize_sha256 {key hash : String} (short : Utf8.size (Json.quoted key) ≤ 30) (valid : isSha256 hash = true) :
    Json.fieldSize ((key, .str hash) : String × Json Unit) ≤ 100 := by
  rw [Json.fieldSize_eq]
  show _ + Utf8.size (Json.quoted hash) + 2 ≤ _
  rw [size_quoted_sha256 valid]
  omega

theorem recordSize_small : recordSize (notedArgs "n") 1 genesisHash sampleTime .championBootstrapped ≤ 100000 := by
  have zero : isSha256 (digest '0') = true := isSha256_digest rfl
  have fields : ∀ field ∈ (notedArgs "n").bodyFields 1 genesisHash sampleTime .championBootstrapped (notedPayload "n"),
      Json.fieldSize field ≤ 100 := by
    simp only [EventArgs.bodyFields, List.forall_mem_cons]
    refine ⟨by decide, by decide, fieldSize_sha256 (by decide) zero, by decide +kernel, ?_⟩
    refine ⟨fieldSize_sha256 (by decide) zero, fieldSize_sha256 (by decide) zero, by decide, by decide, ?_⟩
    refine ⟨fieldSize_sha256 (by decide) (isSha256_digest rfl), fieldSize_sha256 (by decide) zero, ?_⟩
    refine ⟨by decide +kernel, by decide, fieldSize_sha256 (by decide) zero, fieldSize_sha256 (by decide) zero, ?_⟩
    exact ⟨fieldSize_sha256 (by decide) zero, by decide, by decide, by decide +kernel, by simp⟩
  have nonempty : (notedArgs "n").bodyFields 1 genesisHash sampleTime .championBootstrapped (notedPayload "n") ≠ [] :=
    List.cons_ne_nil _ _
  have total : (((notedArgs "n").bodyFields 1 genesisHash sampleTime .championBootstrapped
      (notedPayload "n")).map Json.fieldSize).sum ≤ 18 * 100 :=
    List.sum_le_card_nsmul _ 100 (List.forall_mem_map.mpr fields)
  rw [recordSize_noted, Json.size_text_obj nonempty]
  omega

/-- A registry cannot be read any more after an event with a long note. -/
theorem not_appendsReadably_noted {note : String} (long : maxJsonBytes ≤ note.toList.length) :
    ¬AppendsReadably noRegistry noEvents "champion.bootstrapped" (notedArgs note) (some sampleTime) sampleTime := by
  intro appends
  have large := length_le_recordSize note
  obtain ⟨event, written, result, unreadable⟩ := append_overflows rfl (accepted_noted note) (by
    show maxJsonBytes < recordSize (notedArgs note) 1 genesisHash sampleTime .championBootstrapped + 81
    omega)
  rw [AppendsReadably, result] at appends
  obtain ⟨next, again, -⟩ := appends.1 event rfl
  exact unreadable next again

theorem long_note_unreadable :
    noRegistry.reconstruct = .ok noEvents ∧
      ¬AppendsReadably noRegistry noEvents "champion.bootstrapped"
        (notedArgs (String.ofList (List.replicate maxJsonBytes 'a'))) (some sampleTime) sampleTime := by
  refine ⟨rfl, not_appendsReadably_noted (Nat.le_of_eq ?_)⟩
  rw [String.toList_ofList, List.length_replicate]

theorem appendsReadably_iff_noted :
    noRegistry.reconstruct = .ok noEvents ∧
      AppendsReadably noRegistry noEvents "champion.bootstrapped" (notedArgs "n") (some sampleTime) sampleTime := by
  refine ⟨rfl, (appendsReadably_iff rfl).mpr ?_⟩
  intro t timestamp accepted
  cases accepted.arguments.symm.trans (accepted_noted "n").arguments
  exact fits_of_recordSize_le recordSize_small

end Sample

end KataGo.Promotion.EventRegistry
