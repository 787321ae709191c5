import KataGo.Promotion.Append
import KataGo.Promotion.Champion
import Mathlib.Tactic.Linarith

/-! Runs of calls on the champion file: every replacement follows on the record that it replaces
and on a report that passed, and a call that was carried out can be repeated, as long as what is
written can be read back. -/

namespace KataGo.Promotion
open KataGo.Lib

variable {F : Type} [Runtime F] {r r' : ChampionRecord} {path : String} {file : FileAt}

/-- The bytes of a champion file. -/
def championData (F : Type) [Runtime F] (r : ChampionRecord) : ByteArray :=
  Utf8.encode (Json.text (Json.obj (r.toDict (F := F))).sorted) ++ Utf8.encode ['\n']

section Record

theorem checkChampionVersion_int {n m : Int} (passed : checkChampionVersion (.int n : Json F) = .ok m) : m = n := by
  simp only [checkChampionVersion] at passed
  split at passed
  · exact (Except.ok.inj passed).symm
  · cases passed

omit [Runtime F] in
theorem isNull_optional {o : Option String} : (optional o : Json F).isNull = true ↔ o = none := by
  cases o <;> simp [optional, Json.isNull]

omit [Runtime F] in
theorem requireSha256_optional {o : Option String} {field s : String}
    (passed : requireSha256 (optional o : Json F) field = .ok s) : o = some s := by
  cases o with
  | none => cases passed
  | some t => rw [requireSha256_returns _ _ _ passed]

omit [Runtime F] in
theorem requireNonempty_optional {o : Option String} {field s : String}
    (passed : requireNonempty (optional o : Json F) field = .ok s) : o = some s := by
  cases o with
  | none => cases passed
  | some t => rw [requireNonempty_returns _ _ _ passed]

omit [Runtime F] in
theorem checkEvidence_raw {evidence : Option String × Option String × Option String × Option String}
    (passed : checkEvidence (r.raw (F := F)) r.bootstrap = .ok evidence) :
    evidence = (r.previousChampionHash, r.evaluationKey, r.passReportPath, r.passReportHash) := by
  unfold checkEvidence at passed
  split at passed
  next =>
    simp only [bind_eq_ok, require_eq_ok, exists_const] at passed
    obtain ⟨⟨previous, key, path, hash⟩, result⟩ := passed
    cases result
    rw [isNull_optional.mp previous, isNull_optional.mp key, isNull_optional.mp path, isNull_optional.mp hash]
  next =>
    simp only [bind_eq_ok] at passed
    obtain ⟨_, previous, _, key, _, path, _, hash, result⟩ := passed
    cases result
    rw [requireSha256_optional previous, requireNonempty_optional key, requireNonempty_optional path,
      requireSha256_optional hash]

/-- A record that passes its checks comes back from them as it was. -/
theorem verify_champion (passed : (r.raw (F := F)).verify = .ok r') : r' = r := by
  simp only [RawChampion.verify, bind_eq_ok, require_eq_ok, exists_const] at passed
  obtain ⟨version, schema, checked, fields, _, -, -, result⟩ := passed
  cases result
  obtain rfl := checkChampionVersion_int schema
  replace fields := Checked.reraise_eq_ok.mp fields
  simp only [checkChampionFields, bind_eq_ok] at fields
  obtain ⟨_, champion, _, generation, _, -, _, original, _, time, _, controller, _, source, _, config, _, schedule, _,
    policy, _, actor, _, hash, _, bootstrap, _, evidence, result⟩ := fields
  cases result
  cases (show checkBool (.bool r.bootstrap : Json F) = .ok r.bootstrap from rfl).symm.trans bootstrap
  rw [requireSha256_returns _ _ _ champion, requireNonempty_returns _ _ _ generation,
    requireSha256_returns _ _ _ original, validateUtcTimestamp_returns _ _ _ time,
    requireSha256_returns _ _ _ controller, requireSha256_returns _ _ _ source, requireSha256_returns _ _ _ config,
    requireSha256_returns _ _ _ schedule, requireSha256_returns _ _ _ policy, requireNonempty_returns _ _ _ actor,
    requireSha256_returns _ _ _ hash, checkEvidence_raw evidence]

/-- What a built record is: it has its own hash, can be written, and passes its checks. -/
theorem build_champion {record : ChampionRecord} (built : record.build F = .ok r) :
    ∃ message, r = { record with recordHash := String.ofList (Sha256.hexDigest message) } ∧
      (r.raw (F := F)).verify = .ok r ∧ (Json.obj (r.bodyDict (F := F))).encodable = true := by
  simp only [ChampionRecord.build, bind_eq_ok] at built
  obtain ⟨hash, hashed, verified⟩ := built
  obtain rfl := verify_champion verified
  obtain ⟨bytes, canonical, result⟩ := bind_eq_ok.mp hashed
  cases result
  exact ⟨_, rfl, verified, (canonicalJsonBytes_eq_ok.mp canonical).1⟩

omit [Runtime F] in
theorem toDict_distinct (r : ChampionRecord) : ((r.toDict (F := F)).map Prod.fst).Nodup := by
  show championFields.Nodup
  decide

omit [Runtime F] in
theorem toDict_keyed (r : ChampionRecord) : (Json.obj (r.toDict (F := F))).keyed = true := by
  rw [Json.keyed, Bool.and_eq_true]
  refine ⟨decide_eq_true (toDict_distinct r), ?_⟩
  simp [ChampionRecord.toDict, ChampionRecord.bodyDict, Json.keyedFields, optional_keyed, Json.keyed]

theorem toDict_encodable (writable : (Json.obj (r.bodyDict (F := F))).encodable = true) :
    (Json.obj (r.toDict (F := F))).encodable = true := by
  have body := Json.encodableFields_iff.mp writable
  apply Json.encodableFields_iff.mpr
  intro field member
  rcases List.mem_append.mp member with old | new
  · exact body field old
  · rw [List.mem_singleton.mp new]
    rfl

omit [Runtime F] in
theorem sortedFields_toDict (r : ChampionRecord) : Json.sortedFields (r.toDict (F := F)) = r.toDict := by
  simp only [ChampionRecord.toDict, ChampionRecord.bodyDict, List.cons_append, List.nil_append, Json.sortedFields,
    optional_sorted]
  rfl

/-- Reading the fields of a record checks the record. -/
theorem championFromDict_perm {fields : List (String × Json F)} (perm : fields.Perm r.toDict) :
    championFromDict (.obj fields) = (r.raw (F := F)).verify := by
  have same : ∀ key, Json.get fields key = Json.get (r.toDict (F := F)) key := Json.get_perm (toDict_distinct r) perm
  have names : (fields.map Prod.fst).Perm championFields := perm.map Prod.fst
  have missing : missingChampionFields fields = [] := by
    apply List.filter_eq_nil_iff.mpr
    intro name member
    simpa using names.mem_iff.mpr member
  have extra : extraChampionFields fields = [] := by
    apply List.filter_eq_nil_iff.mpr
    intro name member
    simpa using names.mem_iff.mp member
  have raw : rawChampion fields = r.raw := by
    simp only [rawChampion, same]
    rfl
  rw [championFromDict, require, if_pos ⟨missing, extra⟩]
  exact congrArg RawChampion.verify raw

/-- A champion file within the size limit reads back as the record that it was written for. -/
theorem loadChampion_data (verified : (r.raw (F := F)).verify = .ok r)
    (writable : (Json.obj (r.bodyDict (F := F))).encodable = true)
    (small : (championData F r).size ≤ maxJsonBytes) :
    loadChampion F path (some (.file (championData F r))) = .ok r := by
  have whole := toDict_encodable writable
  have perm : (sortFields (r.toDict (F := F))).Perm r.toDict := by
    rw [sortFields, sortedFields_toDict]
    exact List.perm_insertionSort _ _
  have decoded : EventRegistry.decodeJson (championData F r) path = .ok (Json.obj (sortFields (r.toDict (F := F)))) := by
    have loaded := Json.loads_text (uniqueHooks_faithful (F := F)) (Json.obj (r.toDict (F := F))).sorted
      (by rw [Json.encodable_sorted]; exact whole) (by rw [Json.keyed_sorted]; exact toDict_keyed r) (.inr rfl)
    rw [EventRegistry.decodeJson, championData, ← Utf8.encode_append, Utf8.decode_encode, Option.bind_some, loaded]
    rfl
  have read : readFile path (some (.file (championData F r))) = .ok (championData F r) := by
    rw [readFile]
    exact EventRegistry.readRegularFile_small small
  have parsed : championFromDict (Json.obj (sortFields (r.toDict (F := F)))) = .ok r := by
    rw [championFromDict_perm perm, verified]
  have bytes : canonicalJsonBytes (.obj (r.toDict (F := F))) =
      .ok (Utf8.encode (Json.text (Json.obj (r.toDict (F := F))).sorted)) :=
    canonicalJsonBytes_eq_ok.mpr ⟨whole, rfl⟩
  simp only [loadChampion, bind_eq_ok, require_eq_ok, exists_const]
  exact ⟨_, read, _, decoded, r, parsed, _, bytes, rfl, rfl⟩

/-- How many bytes the canonical text of the fields of a record takes, without the record's own
hash. -/
def championSize (F : Type) [Runtime F] (record : ChampionRecord) : Nat :=
  Utf8.size (Json.text (Json.obj (record.bodyDict (F := F))).sorted)

omit [Runtime F] in
theorem sortedFields_bodyDict (r : ChampionRecord) : Json.sortedFields (r.bodyDict (F := F)) = r.bodyDict := by
  simp only [ChampionRecord.bodyDict, Json.sortedFields, optional_sorted]
  rfl

/-- The hash field takes eighty-one bytes and the newline one. -/
theorem size_championData (record : ChampionRecord) (message : List UInt8) :
    (championData F { record with recordHash := String.ofList (Sha256.hexDigest message) }).size =
      championSize F record + 82 := by
  have hash : Json.fieldSize (("record_hash", .str (String.ofList (Sha256.hexDigest message))) : String × Json F) = 81 := by
    rw [Json.fieldSize_eq]
    show Utf8.size (Json.quoted "record_hash") + Utf8.size (Json.quoted _) + 2 = 81
    rw [Json.size_quoted_digits (Sha256.hexDigest_digits message), Sha256.hexDigest_length]
    rfl
  have some : record.bodyDict (F := F) ≠ [] := List.cons_ne_nil _ _
  have body : ChampionRecord.bodyDict (F := F)
      { record with recordHash := String.ofList (Sha256.hexDigest message) } = record.bodyDict := rfl
  have whole : ChampionRecord.toDict (F := F)
      { record with recordHash := String.ofList (Sha256.hexDigest message) } ≠ [] := by
    simp [ChampionRecord.toDict]
  rw [championData, ByteArray.size_append, Utf8.size_encode, Utf8.size_encode,
    Json.size_text_sorted whole (sortedFields_toDict _), championSize, Json.size_text_sorted some (sortedFields_bodyDict record), ChampionRecord.toDict, body,
    List.map_append, List.sum_append, List.map_singleton, hash]
  show 1 + (_ + 81) + 1 = _
  omega

end Record

section Valid

/-- The fields of a record pass their checks. -/
structure ValidRecord (F : Type) [Runtime F] (r : ChampionRecord) : Prop where
  version : r.schemaVersion = championSchemaVersion
  hashes : ∀ hash ∈ [r.championHash, r.originalHash, r.controllerHash, r.sourceHash, r.configHash, r.scheduleHash,
    r.policyHash], isSha256 hash = true
  generation : requireNonempty (.str r.generationId : Json F) "generation_id" = .ok r.generationId
  time : validateUtcTimestamp (.str r.activatedAtUtc : Json F) "activated_at_utc" = .ok r.activatedAtUtc
  actor : requireNonempty (.str r.actor : Json F) "actor" = .ok r.actor
  evidence : r.bootstrap = true ∧ r.previousChampionHash = none ∧ r.evaluationKey = none ∧ r.passReportPath = none ∧
      r.passReportHash = none ∨
    r.bootstrap = false ∧ ∃ previous key report hash, r.previousChampionHash = some previous ∧
      isSha256 previous = true ∧ r.evaluationKey = some key ∧
      requireNonempty (.str key : Json F) "evaluation_key" = .ok key ∧ r.passReportPath = some report ∧
      requireNonempty (.str report : Json F) "pass_report_path" = .ok report ∧ r.passReportHash = some hash ∧
      isSha256 hash = true

theorem ValidRecord.checkEvidence (valid : ValidRecord F r) :
    checkEvidence (r.raw (F := F)) r.bootstrap =
      .ok (r.previousChampionHash, r.evaluationKey, r.passReportPath, r.passReportHash) := by
  rcases valid.evidence with ⟨boot, previous, key, report, hash⟩ |
    ⟨promoted, previous, key, report, hash, same, sha, keyed, nonempty, reported, stable, hashed, valid⟩
  · rw [Promotion.checkEvidence, boot, if_pos rfl]
    simp only [ChampionRecord.raw, previous, key, report, hash]
    rfl
  · rw [Promotion.checkEvidence, promoted, if_neg (by simp)]
    simp only [ChampionRecord.raw, same, keyed, reported, hashed, bind_eq_ok]
    exact ⟨_, requireSha256_valid sha _, _, nonempty, _, stable, _, requireSha256_valid valid _, rfl⟩

theorem ValidRecord.build (valid : ValidRecord F r) (numbers : Json.withinDigits F 1 = true) :
    ∃ message, r.build F = .ok { r with recordHash := String.ofList (Sha256.hexDigest message) } := by
  have writable : (Json.obj (r.bodyDict (F := F))).encodable = true := by
    apply Json.encodableFields_iff.mpr
    have given : ∀ o : Option String, (optional o : Json F).encodable = true := by
      intro o
      cases o <;> rfl
    have version : (Json.int r.schemaVersion : Json F).encodable = true := by
      rw [valid.version]
      exact numbers
    simp only [ChampionRecord.bodyDict, List.forall_mem_cons, given]
    exact ⟨version, rfl, rfl, trivial, rfl, rfl, rfl, rfl, rfl, rfl, rfl, trivial, trivial, trivial, rfl, rfl, by simp⟩
  refine ⟨(Utf8.encode (Json.text (Json.obj (r.bodyDict (F := F))).sorted)).data.toList, ?_⟩
  have hashed : canonicalSha256 (.obj (r.bodyDict (F := F))) = .ok (sha256Bytes _) :=
    bind_eq_ok.mpr ⟨_, canonicalJsonBytes_eq_ok.mpr ⟨writable, rfl⟩, rfl⟩
  have sha := valid.hashes
  simp only [List.forall_mem_cons] at sha
  obtain ⟨champion, original, controller, source, config, schedule, policy, -⟩ := sha
  have previous : optionally (fun value => requireSha256 value "previous_champion_hash")
      (optional r.previousChampionHash : Json F) = .ok r.previousChampionHash := by
    rcases valid.evidence with ⟨-, none, -⟩ | ⟨-, hash, -, -, -, same, sha, -⟩
    · rw [none]
      rfl
    · rw [same]
      show (requireSha256 (.str hash : Json F) _ >>= fun hash => .ok (some hash)) = _
      rw [requireSha256_valid sha]
      rfl
  simp only [ChampionRecord.build, bind_eq_ok]
  refine ⟨_, hashed, ?_⟩
  simp only [RawChampion.verify, bind_eq_ok, require_eq_ok, exists_const, Checked.reraise_eq_ok, checkChampionFields]
  refine ⟨r.schemaVersion, ?_, _, ⟨_, requireSha256_valid champion _, _, valid.generation, _, previous, _,
    requireSha256_valid original _, _, valid.time, _, requireSha256_valid controller _, _, requireSha256_valid source _, _,
    requireSha256_valid config _, _, requireSha256_valid schedule _, _, requireSha256_valid policy _, _, valid.actor, _,
    requireSha256_valid (EventRegistry.isSha256_sha256Bytes _) _, _, rfl, _, valid.checkEvidence, rfl⟩, _, hashed, rfl, rfl⟩
  show checkChampionVersion (.int r.schemaVersion : Json F) = _
  rw [checkChampionVersion, if_pos valid.version]

end Valid

section Calls

variable {call : SwapCall} {report : FinalizedPassReport}

/-- The file is a finalized report that passes this record over the champion before it. -/
def PassedBy (F : Type) [Runtime F] (r : ChampionRecord) (report : FileAt) (reportPath : String) : Prop :=
  ∃ (data : ByteArray) (fields : List (String × Json F)) (tested : String),
    report = some (.file data) ∧ r.passReportHash = some (sha256Bytes data) ∧
    EventRegistry.decodeJson data (stablePath reportPath) = .ok (Json.obj fields) ∧
    Json.get fields "finalized" = .bool true ∧ Json.get fields "decision" = .str "PASS" ∧
    Json.get fields "candidate_hash" = .str r.championHash ∧
    r.previousChampionHash = some tested ∧ Json.get fields "tested_champion_hash" = .str tested

omit [Runtime F] in
theorem requireSha256_eq_ok {value : Json F} {field hash : String} (passed : requireSha256 value field = .ok hash) :
    value = .str hash := by
  unfold requireSha256 at passed
  split at passed
  next s =>
    split at passed
    next => cases passed; rfl
    next => cases passed
  next => cases passed

omit [Runtime F] in
theorem isTrue_iff {value : Json F} : isTrue value = true ↔ value = .bool true := by
  cases value <;> simp [isTrue]

theorem asReportError_eq_ok {α : Type} {check : Checked α} {a : α} : asReportError check = .ok a ↔ check = .ok a := by
  cases check with
  | error e => simp [asReportError, Except.mapError]
  | ok a' => simp [asReportError, Except.mapError]

/-- What a report says when it is accepted. -/
theorem checkReport_eq_ok {fields : List (String × Json F)} {reportPath hash : String}
    (checked : checkReport fields reportPath hash = .ok report) :
    Json.get fields "finalized" = .bool true ∧ Json.get fields "decision" = .str "PASS" ∧
      Json.get fields "candidate_hash" = .str report.candidateHash ∧
      Json.get fields "tested_champion_hash" = .str report.testedChampionHash := by
  simp only [checkReport, bind_eq_ok, require_eq_ok, exists_const] at checked
  obtain ⟨_, -, finalized, decision, candidateHash, candidate, testedHash, tested, _, -, _, -, _, -, _, -, _, -,
    result⟩ := checked
  have named : report.candidateHash = candidateHash ∧ report.testedChampionHash = testedHash := by
    split at result
    next =>
      obtain ⟨_, -, result⟩ := bind_eq_ok.mp result
      cases result
      exact ⟨rfl, rfl⟩
    next => cases result; exact ⟨rfl, rfl⟩
  refine ⟨isTrue_iff.mp finalized, Json.isStr_iff.mp decision, ?_, ?_⟩
  · rw [named.1]
    exact requireSha256_eq_ok candidate
  · rw [named.2]
    exact requireSha256_eq_ok tested

omit [Runtime F] in
theorem readFile_eq_ok {data : ByteArray} (read : readFile path file = .ok data) : file = some (.file data) := by
  unfold readFile at read
  split at read
  next => cases read
  next node =>
    unfold EventRegistry.readRegularFile at read
    split at read
    next => cases read
    next bytes =>
      split at read
      next => cases read
      next => cases read; rfl

/-- What a call relies on when it gets as far as the champion file. -/
theorem evidence_eq_ok (evident : call.evidence F = .ok report) (timestamp : String) :
    PassedBy F (call.replacement timestamp) call.report call.passReportPath := by
  simp only [SwapCall.evidence, bind_eq_ok, require_eq_ok, exists_const] at evident
  obtain ⟨_, -, -, report', loaded, _, metadata, result⟩ := evident
  cases result
  simp only [SwapCall.checkMetadata, requireSame, bind_eq_ok, require_eq_ok, exists_const] at metadata
  obtain ⟨candidate, tested, -⟩ := metadata
  replace loaded := asReportError_eq_ok.mp loaded
  simp only [bind_eq_ok, require_eq_ok, exists_const] at loaded
  obtain ⟨_, -, data, read, same, value, decoded, fields, object, checked⟩ := loaded
  have root : value = .obj fields := by
    unfold reportFields at object
    split at object
    next => cases object; rfl
    next => cases object
  obtain ⟨finalized, decision, candidate', tested'⟩ := checkReport_eq_ok checked
  rw [candidate] at candidate'
  rw [tested] at tested'
  exact ⟨data, fields, call.expectedChampionHash, readFile_eq_ok read, by rw [same]; rfl, root ▸ decoded, finalized,
    decision, candidate', rfl, tested'⟩

/-- A record that would be written: the call decided on it, and it passes its own checks. -/
theorem SwapCall.decide_replace (decided : call.decide F path file = .ok (.replace r)) :
    ∃ current timestamp message, loadChampion F path file = .ok current ∧
      current.championHash = call.expectedChampionHash ∧
      activationTime F call.timestampUtc call.now = .ok timestamp ∧
      r = { call.replacement timestamp with recordHash := String.ofList (Sha256.hexDigest message) } ∧
      (r.raw (F := F)).verify = .ok r ∧ (Json.obj (r.bodyDict (F := F))).encodable = true ∧
      PassedBy F r call.report call.passReportPath := by
  simp only [SwapCall.decide, bind_eq_ok] at decided
  obtain ⟨report, evident, current, loaded, decided⟩ := decided
  simp only [SwapCall.decideOn, bind_eq_ok, require_eq_ok, exists_const] at decided
  obtain ⟨-, decided⟩ := decided
  split at decided
  next =>
    simp only [bind_eq_ok, require_eq_ok, exists_const] at decided
    obtain ⟨-, result⟩ := decided
    cases result
  next =>
    simp only [bind_eq_ok, require_eq_ok, exists_const] at decided
    obtain ⟨fresh, timestamp, time, record, built, result⟩ := decided
    cases result
    obtain ⟨message, rfl, verified, writable⟩ := build_champion built
    exact ⟨current, timestamp, message, loaded, fresh, time, rfl, verified, writable, evidence_eq_ok evident timestamp⟩

/-- A record that stays: the call finds itself carried out. -/
theorem SwapCall.decide_current (decided : call.decide F path file = .ok (.current r)) :
    (∃ report, call.evidence F = .ok report) ∧ loadChampion F path file = .ok r ∧
      r.originalHash = call.provenance.originalHash ∧ r.championHash = call.candidateHash ∧ call.conflicts r = [] := by
  simp only [SwapCall.decide, bind_eq_ok] at decided
  obtain ⟨report, evident, current, loaded, decided⟩ := decided
  simp only [SwapCall.decideOn, bind_eq_ok, require_eq_ok, exists_const] at decided
  obtain ⟨original, decided⟩ := decided
  split at decided
  next same =>
    simp only [bind_eq_ok, require_eq_ok, exists_const] at decided
    obtain ⟨agrees, result⟩ := decided
    cases result
    exact ⟨⟨report, evident⟩, loaded, original, same, agrees⟩
  next =>
    simp only [bind_eq_ok, require_eq_ok, exists_const] at decided
    obtain ⟨-, _, -, _, -, result⟩ := decided
    cases result

/-- A call that finds itself carried out decides so at any time. -/
theorem SwapCall.decide_again (evident : ∃ report, call.evidence F = .ok report)
    (loaded : loadChampion F path file = .ok r) (original : r.originalHash = call.provenance.originalHash)
    (same : r.championHash = call.candidateHash) (agrees : call.conflicts r = []) (now : String) (disk : Disk) :
    SwapCall.decide F { call with now := now, disk := disk } path file = .ok (.current r) := by
  obtain ⟨report, evident⟩ := evident
  simp only [SwapCall.decide, bind_eq_ok]
  refine ⟨report, evident, r, loaded, ?_⟩
  simp only [SwapCall.decideOn, bind_eq_ok, require_eq_ok, exists_const]
  refine ⟨original, ?_⟩
  rw [if_pos same]
  exact bind_eq_ok.mpr ⟨(), require_eq_ok.mpr agrees, rfl⟩

theorem conflicts_replacement (timestamp hash : String) :
    call.conflicts { call.replacement timestamp with recordHash := hash } = [] := by
  simp [SwapCall.conflicts, SwapCall.replacement]

end Calls

section Runs

variable {call : ChampionCall}

/-- What writing a record comes to. -/
theorem writeChampion_eq (disk : Disk) (file : FileAt) (writable : (Json.obj (r.bodyDict (F := F))).encodable = true) :
    writeChampion F disk file r = match disk with
      | .sound => (.ok r, some (.file (championData F r)))
      | .failsBefore => (.error ⟨.osError, "write failed"⟩, file)
      | .failsAfter => (.error ⟨.osError, "directory sync failed"⟩, some (.file (championData F r))) := by
  have bytes : canonicalJsonBytes (.obj (r.toDict (F := F))) =
      .ok (Utf8.encode (Json.text (Json.obj (r.toDict (F := F))).sorted)) :=
    canonicalJsonBytes_eq_ok.mpr ⟨toDict_encodable writable, rfl⟩
  rw [writeChampion, bytes]
  cases disk with
  | sound => rfl
  | failsBefore => rfl
  | failsAfter => rfl

/-- What a bootstrap writes has no evidence to show. -/
theorem BootstrapCall.decide_replace {call : BootstrapCall} (decided : call.decide F path file = .ok (.replace r)) :
    r.bootstrap = true ∧ (Json.obj (r.bodyDict (F := F))).encodable = true := by
  simp only [BootstrapCall.decide, bind_eq_ok] at decided
  obtain ⟨timestamp, -, desired, built, decided⟩ := decided
  split at decided
  next =>
    obtain ⟨_, -, decided⟩ := bind_eq_ok.mp decided
    obtain ⟨_, -, result⟩ := bind_eq_ok.mp decided
    cases result
  next =>
    cases decided
    obtain ⟨message, rfl, -, writable⟩ := build_champion built
    exact ⟨rfl, writable⟩

/-- The call writes nothing that is then not read, and its directory is synced. -/
def ChampionCall.Sound (F : Type) [Runtime F] (call : ChampionCall) : Prop :=
  call.disk ≠ .failsAfter ∧ ∀ swap, call = .compareAndSwap swap → ∀ timestamp,
    activationTime F swap.timestampUtc swap.now = .ok timestamp →
      championSize F (swap.replacement timestamp) + 82 ≤ maxJsonBytes

/-- What is promised of a call on the champion file: a replacement follows on the record that it
replaces, which is the champion that the caller expects; a call that was carried out can be repeated
at any time while its record stands; an error changes nothing; and what is written, other than by a
bootstrap, is passed by the report of the call. -/
structure Custody (F : Type) [Runtime F] (path : String) (call : ChampionCall) (file : FileAt) : Prop where
  linear : ∀ swap r, call = .compareAndSwap swap → (call.run F path file).1 = .ok r →
    (call.run F path file).2 ≠ file → (call.run F path file).2 = some (.file (championData F r)) ∧
      ∃ current, loadChampion F path file = .ok current ∧ r.previousChampionHash = some current.championHash ∧
        current.championHash = swap.expectedChampionHash
  repeated : ∀ swap r, call = .compareAndSwap swap → (call.run F path file).1 = .ok r → ∀ now disk,
    (ChampionCall.compareAndSwap { swap with now := now, disk := disk }).run F path (call.run F path file).2 =
      (.ok r, (call.run F path file).2)
  unchanged : ∀ e, (call.run F path file).1 = .error e → (call.run F path file).2 = file
  evidence : (call.run F path file).2 ≠ file → ∃ r, (call.run F path file).2 = some (.file (championData F r)) ∧
    (r.bootstrap = false → ∃ swap, call = .compareAndSwap swap ∧ PassedBy F r swap.report swap.passReportPath)

/-- A decision to replace can be written. -/
theorem encodable_of_replace (decided : call.decide F path file = .ok (.replace r)) :
    (Json.obj (r.bodyDict (F := F))).encodable = true := by
  cases call with
  | bootstrapChampion call => exact (BootstrapCall.decide_replace decided).2
  | compareAndSwap call =>
    obtain ⟨current, timestamp, message, -, -, -, -, -, writable, -⟩ := SwapCall.decide_replace decided
    exact writable

theorem run_current (decided : call.decide F path file = .ok (.current r)) : call.run F path file = (.ok r, file) := by
  rw [ChampionCall.run, decided]

theorem run_replace (decided : call.decide F path file = .ok (.replace r)) :
    call.run F path file = writeChampion F call.disk file r := by
  rw [ChampionCall.run, decided]

/-- What a run of a call comes to, when the directory is synced. -/
theorem run_cases (path : String) (file : FileAt) (synced : call.disk ≠ .failsAfter) :
    (∃ e, call.run F path file = (.error e, file)) ∨
      (∃ r, call.decide F path file = .ok (.current r) ∧ call.run F path file = (.ok r, file)) ∨
      ∃ r, call.decide F path file = .ok (.replace r) ∧
        call.run F path file = (.ok r, some (.file (championData F r))) := by
  cases decided : call.decide F path file with
  | error e => exact .inl ⟨e, by rw [ChampionCall.run, decided]⟩
  | ok decision =>
    cases decision with
    | current r => exact .inr (.inl ⟨r, rfl, run_current decided⟩)
    | replace r =>
      have run := run_replace decided
      rw [writeChampion_eq call.disk file (encodable_of_replace decided)] at run
      cases disk : call.disk with
      | sound =>
        rw [disk] at run
        exact .inr (.inr ⟨r, rfl, run⟩)
      | failsBefore =>
        rw [disk] at run
        exact .inl ⟨_, run⟩
      | failsAfter => exact absurd disk synced

/-- A replacement that fits is found by the call that made it, whenever it is repeated. -/
theorem repeated_after_replace {swap : SwapCall} (sound : (ChampionCall.compareAndSwap swap).Sound F)
    (decided : swap.decide F path file = .ok (.replace r)) (now : String) (disk : Disk) :
    SwapCall.decide F { swap with now := now, disk := disk } path (some (.file (championData F r))) =
      .ok (.current r) := by
  obtain ⟨report, evident, -⟩ := bind_eq_ok.mp decided
  obtain ⟨current, timestamp, message, -, -, time, rfl, verified, writable, -⟩ := SwapCall.decide_replace decided
  have loaded : loadChampion F path (some (.file (championData F _))) = .ok _ := loadChampion_data verified writable (by
    rw [size_championData]
    exact sound.2 swap rfl timestamp time)
  exact SwapCall.decide_again ⟨report, evident⟩ loaded rfl rfl (conflicts_replacement timestamp _) now disk

theorem custody_of_sound (path : String) (file : FileAt) (sound : call.Sound F) : Custody F path call file := by
  rcases run_cases (F := F) path file sound.1 with ⟨e, run⟩ | ⟨r, decided, run⟩ | ⟨r, decided, run⟩
  · constructor
    · intro swap r _ returned
      rw [run] at returned
      cases returned
    · intro swap r _ returned
      rw [run] at returned
      cases returned
    · intro e' _
      rw [run]
    · rw [run]
      exact fun changed => absurd rfl changed
  · constructor
    · intro swap r' _ _ changed
      rw [run] at changed
      exact absurd rfl changed
    · rintro swap r' rfl returned now disk
      rw [run] at returned ⊢
      cases returned
      obtain ⟨evident, loaded, original, same, agrees⟩ := SwapCall.decide_current decided
      exact run_current (SwapCall.decide_again evident loaded original same agrees now disk)
    · intro e returned
      rw [run] at returned
      cases returned
    · rw [run]
      exact fun changed => absurd rfl changed
  · constructor
    · rintro swap r' rfl returned -
      rw [run] at returned ⊢
      cases returned
      obtain ⟨current, timestamp, message, loaded, expected, -, rfl, -⟩ := SwapCall.decide_replace decided
      exact ⟨rfl, current, loaded, congrArg some expected.symm, expected⟩
    · rintro swap r' rfl returned now disk
      rw [run] at returned ⊢
      cases returned
      exact run_current (repeated_after_replace sound decided now disk)
    · intro e returned
      rw [run] at returned
      cases returned
    · intro _
      rw [run]
      refine ⟨r, rfl, ?_⟩
      intro promoted
      cases call with
      | bootstrapChampion call =>
        rw [(BootstrapCall.decide_replace decided).1] at promoted
        cases promoted
      | compareAndSwap swap =>
        obtain ⟨current, timestamp, message, -, -, -, -, -, -, passed⟩ := SwapCall.decide_replace decided
        exact ⟨swap, rfl, passed⟩

/-- The file is as a call of the run left it, if there is one. -/
def Written (F : Type) [Runtime F] (path : String) (calls : List ChampionCall) (file : FileAt) : Prop :=
  file = none ∨ ∃ earlier writer later, calls = earlier ++ writer :: later ∧
    (writer.run F path (ChampionCall.runAll F path none earlier)).2 = file ∧
    (writer.run F path (ChampionCall.runAll F path none earlier)).2 ≠ ChampionCall.runAll F path none earlier

theorem runAll_concat (calls : List ChampionCall) (call : ChampionCall) :
    ChampionCall.runAll F path file (calls ++ [call]) = (call.run F path (ChampionCall.runAll F path file calls)).2 := by
  simp [ChampionCall.runAll]

/-- Along a run the file is only ever what one of the calls wrote. -/
theorem written_runAll (path : String) (calls : List ChampionCall) :
    Written F path calls (ChampionCall.runAll F path none calls) := by
  induction calls using List.reverseRecOn with
  | nil => exact .inl rfl
  | append_singleton calls call ih =>
    by_cases same : (call.run F path (ChampionCall.runAll F path none calls)).2 = ChampionCall.runAll F path none calls
    · rw [runAll_concat, same]
      rcases ih with missing | ⟨earlier, writer, later, rfl, wrote, changed⟩
      · exact .inl missing
      · exact .inr ⟨earlier, writer, later ++ [call], by simp, wrote, changed⟩
    · exact .inr ⟨calls, call, [], rfl, (runAll_concat calls call).symm, same⟩

/-- In every run of calls from an empty place, whose records can be read back and whose directory is
synced, every call keeps the chain of champions, starting from what an earlier call of the run wrote. -/
theorem champion_custody {calls before after : List ChampionCall} {call : ChampionCall} (path : String)
    (sound : ∀ call ∈ calls, call.Sound F) (run : calls = before ++ call :: after) :
    Custody F path call (ChampionCall.runAll F path none before) ∧
      Written F path before (ChampionCall.runAll F path none before) := by
  subst run
  exact ⟨custody_of_sound path _ (sound call (by simp)), written_runAll path before⟩

end Runs

open EventRegistry

section Size

theorem championFields_size (name : String) (member : name ∈ championFields) : Utf8.size (Json.quoted name) ≤ 30 := by
  revert name
  decide +kernel

/-- Names of at most thirty bytes. -/
theorem sum_fieldSize_le {fields : List (String × Json F)} (names : ∀ field ∈ fields, Utf8.size (Json.quoted field.1) ≤ 30) :
    (fields.map Json.fieldSize).sum ≤ (fields.map fun field => Utf8.size (Json.text field.2) + 32).sum := by
  apply List.sum_le_sum
  intro field member
  have name := names field member
  show Utf8.size (Json.quoted field.1) + Utf8.size (Json.text field.2) + 2 ≤ Utf8.size (Json.text field.2) + 32
  omega

/-- How much space a record takes besides its texts. -/
theorem championSize_le (valid : ValidRecord F r) : championSize F r ≤ 2000 + (Utf8.size (Json.quoted r.generationId) +
    Utf8.size (Json.text (optional r.previousChampionHash : Json F)) + Utf8.size (Json.quoted r.activatedAtUtc) +
    Utf8.size (Json.text (optional r.evaluationKey : Json F)) +
    Utf8.size (Json.text (optional r.passReportPath : Json F)) +
    Utf8.size (Json.text (optional r.passReportHash : Json F)) + Utf8.size (Json.quoted r.actor)) := by
  have size : ∀ hash ∈ [r.championHash, r.originalHash, r.controllerHash, r.sourceHash, r.configHash, r.scheduleHash,
      r.policyHash], Utf8.size (Json.quoted hash) = 66 :=
    fun hash member => size_quoted_sha256 (valid.hashes hash member)
  simp only [List.forall_mem_cons] at size
  obtain ⟨champion, original, controller, source, config, schedule, policy, -⟩ := size
  have names : ∀ field ∈ r.bodyDict (F := F), Utf8.size (Json.quoted field.1) ≤ 30 := by
    intro field member
    apply championFields_size
    have listed : (r.toDict (F := F)).map Prod.fst = championFields := rfl
    rw [← listed]
    exact List.mem_map_of_mem (List.mem_append_left _ member)
  have text : ∀ s : String, Json.text (.str s : Json F) = Json.quoted s := fun _ => rfl
  have version : Utf8.size (Json.text (.int r.schemaVersion : Json F)) = 1 := by
    rw [valid.version]
    rfl
  have flag : Utf8.size (Json.text (.bool r.bootstrap : Json F)) ≤ 5 := by
    cases r.bootstrap with
    | true => exact (by decide : 4 ≤ 5)
    | false => exact (by decide : 5 ≤ 5)
  have some : r.bodyDict (F := F) ≠ [] := List.cons_ne_nil _ _
  rw [championSize, Json.size_text_sorted some (sortedFields_bodyDict r)]
  refine (Nat.add_le_add_left (sum_fieldSize_le names) 1).trans ?_
  simp only [ChampionRecord.bodyDict, List.map_cons, List.map_nil, List.sum_cons, List.sum_nil, text,
    version, champion, original, controller, source, config, schedule, policy]
  linarith only [flag]

/-- A swap that returns has read a champion. -/
theorem loaded_of_swap {swap : SwapCall} (returned : ((ChampionCall.compareAndSwap swap).run F path file).1 = .ok r) :
    ∃ current, loadChampion F path file = .ok current := by
  cases decided : (ChampionCall.compareAndSwap swap).decide F path file with
  | error e =>
    rw [ChampionCall.run, decided] at returned
    cases returned
  | ok decision =>
    obtain ⟨_, -, decided⟩ := bind_eq_ok.mp decided
    obtain ⟨current, loaded, -⟩ := bind_eq_ok.mp decided
    exact ⟨current, loaded⟩

end Size

section Sample

def sampleBoot : BootstrapCall where
  championHash := digest 'a'
  generationId := "g0"
  provenance := sampleProvenance
  actor := "controller"
  timestampUtc := some sampleTime
  now := sampleTime
  disk := .sound

def reportDict : List (String × Json Unit) :=
  [("schema_version", .int 1), ("finalized", .bool true), ("decision", .str "PASS"),
    ("candidate_hash", .str (digest 'b')), ("tested_champion_hash", .str (digest 'a')),
    ("original_hash", .str (digest '0')), ("evaluation_key", .str "key"), ("config_hash", .str (digest '0')),
    ("schedule_hash", .str (digest '0')), ("policy_hash", .str (digest '0'))]

def reportData : ByteArray := Utf8.encode (Json.text (Json.obj reportDict).sorted)

/-- The promotion of a candidate by its report, in the name of an actor. -/
def sampleSwap (actor : String) : SwapCall where
  expectedChampionHash := digest 'a'
  candidateHash := digest 'b'
  generationId := "g1"
  passReportPath := "report.json"
  passReportHash := sha256Bytes reportData
  evaluationKey := "key"
  provenance := sampleProvenance
  actor := actor
  timestampUtc := some sampleTime
  report := some (.file reportData)
  now := sampleTime
  disk := .sound

theorem sample_texts : requireNonempty (.str "g0" : Json Unit) "generation_id" = .ok "g0" ∧
    requireNonempty (.str "g1" : Json Unit) "generation_id" = .ok "g1" ∧
    requireNonempty (.str "key" : Json Unit) "evaluation_key" = .ok "key" ∧
    requireNonempty (.str "key" : Json Unit) "report.evaluation_key" = .ok "key" ∧
    stablePath "report.json" = "report.json" ∧
    requireNonempty (.str "report.json" : Json Unit) "pass_report_path" = .ok "report.json" ∧
    validateUtcTimestamp (.str sampleTime : Json Unit) "activated_at_utc" = .ok sampleTime := by
  decide +kernel

theorem sample_sizes : Utf8.size (Json.quoted "g0") ≤ 100 ∧ Utf8.size (Json.quoted "g1") ≤ 100 ∧
    Utf8.size (Json.quoted "key") ≤ 100 ∧ Utf8.size (Json.quoted "report.json") ≤ 100 ∧
    Utf8.size (Json.quoted "controller") ≤ 100 ∧ Utf8.size (Json.quoted sampleTime) ≤ 100 := by
  decide +kernel

theorem sampleBoot_valid : ValidRecord Unit (sampleBoot.desired sampleTime) where
  version := rfl
  hashes := by
    have hash : isSha256 (digest '0') = true := isSha256_digest rfl
    have champion : isSha256 (digest 'a') = true := isSha256_digest rfl
    simp [BootstrapCall.desired, sampleBoot, sampleProvenance, hash, champion]
  generation := sample_texts.1
  time := sample_texts.2.2.2.2.2.2
  actor := (requireNonempty_sample _).2
  evidence := .inl ⟨rfl, rfl, rfl, rfl, rfl⟩

theorem sampleSwap_valid {actor : String} (named : requireNonempty (.str actor : Json Unit) "actor" = .ok actor) :
    ValidRecord Unit ((sampleSwap actor).replacement sampleTime) where
  version := rfl
  hashes := by
    have hash : isSha256 (digest '0') = true := isSha256_digest rfl
    have champion : isSha256 (digest 'b') = true := isSha256_digest rfl
    simp [SwapCall.replacement, sampleSwap, sampleProvenance, hash, champion]
  generation := sample_texts.2.1
  time := sample_texts.2.2.2.2.2.2
  actor := named
  evidence := by
    obtain ⟨-, -, key, -, stable, path, -⟩ := sample_texts
    refine .inr ⟨rfl, digest 'a', "key", "report.json", sha256Bytes reportData, rfl, isSha256_digest rfl, rfl, key, ?_,
      path, rfl, isSha256_sha256Bytes _⟩
    show some (stablePath "report.json") = _
    rw [stable]

theorem reportDict_keyed : (Json.obj reportDict).keyed = true := by decide +kernel

theorem reportData_size : reportData.size ≤ maxJsonBytes := by
  have sorted : Json.sortedFields reportDict = reportDict := rfl
  have names : ∀ field ∈ reportDict, Utf8.size (Json.quoted field.1) ≤ 30 := by
    have listed : ∀ name ∈ reportDict.map Prod.fst, Utf8.size (Json.quoted name) ≤ 30 := by decide +kernel
    exact fun field member => listed field.1 (List.mem_map_of_mem member)
  have text : ∀ s : String, Json.text (.str s : Json Unit) = Json.quoted s := fun _ => rfl
  have hash : ∀ c, isHexDigit c = true → Utf8.size (Json.quoted (digest c)) = 66 :=
    fun c hex => size_quoted_sha256 (isSha256_digest hex)
  have small : Utf8.size (Json.quoted "PASS") = 6 ∧ Utf8.size (Json.quoted "key") = 5 := by decide +kernel
  have plain : Utf8.size (Json.text (.int 1 : Json Unit)) = 1 ∧ Utf8.size (Json.text (.bool true : Json Unit)) = 4 :=
    ⟨rfl, rfl⟩
  have some : reportDict ≠ [] := List.cons_ne_nil _ _
  rw [reportData, Utf8.size_encode, Json.size_text_sorted some sorted]
  refine (Nat.add_le_add_left (sum_fieldSize_le names) 1).trans ?_
  simp only [reportDict, List.map_cons, List.map_nil, List.sum_cons, List.sum_nil, text, plain.1, plain.2, small.1,
    small.2, hash '0' rfl, hash 'a' rfl, hash 'b' rfl, maxJsonBytes]
  norm_num

theorem digest_ne : digest 'b' ≠ digest 'a' := by
  intro same
  have first := congrArg (fun s => s.toList.head?) same
  simp [digest] at first

def sampleReport : FinalizedPassReport where
  path := stablePath "report.json"
  reportHash := sha256Bytes reportData
  schemaVersion := 1
  decision := "PASS"
  candidateHash := digest 'b'
  testedChampionHash := digest 'a'
  originalHash := digest '0'
  evaluationKey := "key"
  configHash := digest '0'
  scheduleHash := digest '0'
  policyHash := digest '0'

/-- The report of the sample is accepted. -/
theorem sample_evidence {actor : String} (named : requireNonempty (.str actor : Json Unit) "actor" = .ok actor) :
    ∃ report, (sampleSwap actor).evidence Unit = .ok report := by
  obtain ⟨-, generation, key, reportKey, stable, path, -⟩ := sample_texts
  have zero : ∀ field, requireSha256 (.str (digest '0') : Json Unit) field = .ok (digest '0') :=
    requireSha256_valid (isSha256_digest rfl)
  have decoded : decodeJson reportData (stablePath "report.json") = .ok (Json.obj (sortFields reportDict)) := by
    have loaded := Json.loads_text (uniqueHooks_faithful (F := Unit)) (Json.obj reportDict).sorted
      (by rw [Json.encodable_sorted]; rfl) (by rw [Json.keyed_sorted]; exact reportDict_keyed) (.inl rfl)
    rw [List.append_nil] at loaded
    rw [decodeJson, reportData, Utf8.decode_encode, Option.bind_some, loaded]
    rfl
  have get := get_sortFields reportDict_keyed
  have absent : "finalized_at_utc" ∉ (sortFields reportDict).map Prod.fst := by
    have perm : (sortFields reportDict).Perm reportDict := List.perm_insertionSort _ _
    rw [(perm.map Prod.fst).mem_iff]
    decide +kernel
  have checked : ∃ report, checkReport (sortFields reportDict) (stablePath "report.json") (sha256Bytes reportData) =
      .ok report ∧ (sampleSwap actor).checkMetadata report = .ok () := by
    refine ⟨sampleReport, ?_, ?_⟩
    · simp only [checkReport, get, bind_eq_ok, require_eq_ok, exists_const, if_neg absent]
      exact ⟨1, rfl, rfl, rfl, _, requireSha256_valid (isSha256_digest rfl) _, _,
        requireSha256_valid (isSha256_digest rfl) _, _, zero _, _, reportKey, _, zero _, _, zero _, _, zero _, rfl⟩
    · simp only [SwapCall.checkMetadata, requireSame, bind_eq_ok, require_eq_ok, exists_const]
      exact ⟨rfl, rfl, rfl, rfl, rfl, rfl, rfl⟩
  obtain ⟨report, checked, metadata⟩ := checked
  have loaded : loadFinalizedPassReport Unit "report.json" (some (.file reportData)) (sha256Bytes reportData) =
      .ok report := by
    have read : readFile (stablePath "report.json") (some (.file reportData)) = .ok reportData := by
      rw [readFile]
      exact readRegularFile_small reportData_size
    apply asReportError_eq_ok.mpr
    simp only [bind_eq_ok, require_eq_ok, exists_const]
    exact ⟨_, requireSha256_valid (isSha256_sha256Bytes _) _, reportData, read, rfl, _, decoded, _, rfl, checked⟩
  refine ⟨report, ?_⟩
  simp only [SwapCall.evidence, bind_eq_ok, require_eq_ok, exists_const, Checked.reraise_eq_ok, SwapCall.checkArguments]
  exact ⟨(), ⟨_, requireSha256_valid (isSha256_digest rfl) _, _, requireSha256_valid (isSha256_digest rfl) _, _, generation,
    _, key, _, named, rfl⟩, digest_ne, report, loaded, (), metadata, rfl⟩

theorem sample_activation : activationTime Unit (some sampleTime) sampleTime = .ok sampleTime := sampleTime_utc

/-- The champion file after the bootstrap. -/
theorem sample_booted (path : String) : ∃ r, (ChampionCall.bootstrapChampion sampleBoot).run Unit path none =
    (.ok r, some (.file (championData Unit r))) ∧
      loadChampion Unit path (some (.file (championData Unit r))) = .ok r ∧ r.championHash = digest 'a' ∧
      r.originalHash = digest '0' := by
  obtain ⟨message, built⟩ := sampleBoot_valid.build rfl
  have decided : (ChampionCall.bootstrapChampion sampleBoot).decide Unit path none = .ok (.replace _) :=
    bind_eq_ok.mpr ⟨_, sample_activation, bind_eq_ok.mpr ⟨_, built, rfl⟩⟩
  obtain ⟨-, -, verified, writable⟩ := build_champion built
  have size := championSize_le sampleBoot_valid
  obtain ⟨generation, -, -, -, actor, time⟩ := sample_sizes
  replace size : championSize Unit (sampleBoot.desired sampleTime) ≤ 2000 + (Utf8.size (Json.quoted "g0") + 4 +
    Utf8.size (Json.quoted sampleTime) + 4 + 4 + 4 + Utf8.size (Json.quoted "controller")) := size
  have loaded : loadChampion Unit path (some (.file (championData Unit _))) = .ok _ :=
    loadChampion_data verified writable (by
      rw [size_championData, maxJsonBytes]
      linarith)
  exact ⟨_, (run_replace decided).trans (writeChampion_eq .sound none writable), loaded, rfl, rfl⟩

/-- The sample candidate is promoted over the champion of the bootstrap. -/
theorem sample_promoted {actor path : String} {r : ChampionRecord}
    (named : requireNonempty (.str actor : Json Unit) "actor" = .ok actor)
    (loaded : loadChampion Unit path (some (.file (championData Unit r))) = .ok r) (champion : r.championHash = digest 'a')
    (original : r.originalHash = digest '0') :
    ∃ record, (ChampionCall.compareAndSwap (sampleSwap actor)).run Unit path (some (.file (championData Unit r))) =
      (.ok record, some (.file (championData Unit record))) ∧
      (championData Unit record).size = championSize Unit ((sampleSwap actor).replacement sampleTime) + 82 := by
  obtain ⟨report, evident⟩ := sample_evidence named
  obtain ⟨message, built⟩ := (sampleSwap_valid named).build rfl
  obtain ⟨-, -, -, writable⟩ := build_champion built
  have decided : (ChampionCall.compareAndSwap (sampleSwap actor)).decide Unit path (some (.file (championData Unit r))) =
      .ok (.replace { (sampleSwap actor).replacement sampleTime with
        recordHash := String.ofList (Sha256.hexDigest message) }) := by
    refine bind_eq_ok.mpr ⟨report, evident, bind_eq_ok.mpr ⟨r, loaded, ?_⟩⟩
    have other : r.championHash ≠ (sampleSwap actor).candidateHash := by
      rw [champion]
      exact digest_ne.symm
    refine bind_eq_ok.mpr ⟨(), require_eq_ok.mpr original, ?_⟩
    rw [if_neg other]
    exact bind_eq_ok.mpr ⟨(), require_eq_ok.mpr champion, bind_eq_ok.mpr ⟨_, sample_activation,
      bind_eq_ok.mpr ⟨_, built, rfl⟩⟩⟩
  exact ⟨_, (run_replace decided).trans (writeChampion_eq .sound _ writable), size_championData _ message⟩

/-- A record is at least as long as its actor. -/
theorem actor_le_championSize (actor : String) :
    actor.toList.length ≤ championSize Unit ((sampleSwap actor).replacement sampleTime) := by
  have some : ((sampleSwap actor).replacement sampleTime).bodyDict (F := Unit) ≠ [] := List.cons_ne_nil _ _
  have quoted := Json.length_le_quoted actor
  have field : Json.fieldSize (F := Unit) ("actor", .str actor) ≤
      Utf8.size (Json.text (Json.obj (((sampleSwap actor).replacement sampleTime).bodyDict (F := Unit)))) :=
    Json.fieldSize_le (by simp [ChampionRecord.bodyDict, SwapCall.replacement, sampleSwap])
  rw [Json.fieldSize_eq] at field
  rw [championSize, Json.size_text_sorted some (sortedFields_bodyDict _), ← Json.size_text_obj some]
  calc actor.toList.length ≤ Utf8.size (Json.text (.str actor : Json Unit)) := quoted
    _ ≤ _ := by omega

/-- A promotion in a long enough name cannot be repeated: nobody can read the champion file any more. -/
theorem not_custody_of_long {actor : String} (path : String)
    (named : requireNonempty (.str actor : Json Unit) "actor" = .ok actor) (long : maxJsonBytes ≤ actor.toList.length) :
    ¬Custody Unit path (.compareAndSwap (sampleSwap actor))
      (ChampionCall.runAll Unit path none [.bootstrapChampion sampleBoot]) := by
  intro custody
  obtain ⟨r, booted, loaded, champion, original⟩ := sample_booted path
  have file : ChampionCall.runAll Unit path none [.bootstrapChampion sampleBoot] = some (.file (championData Unit r)) := by
    rw [ChampionCall.runAll, List.foldl_cons, List.foldl_nil, booted]
  rw [file] at custody
  obtain ⟨record, promoted, size⟩ := sample_promoted named loaded champion original
  have again := custody.repeated (sampleSwap actor) _ rfl (congrArg Prod.fst promoted) sampleTime .sound
  rw [promoted] at again
  have reread : ∃ current, loadChampion Unit path (some (.file (championData Unit record))) = .ok current :=
    loaded_of_swap (congrArg Prod.fst again)
  obtain ⟨current, loaded⟩ := reread
  obtain ⟨data, read, -⟩ := bind_eq_ok.mp loaded
  have large : maxJsonBytes < (championData Unit record).size := calc
    maxJsonBytes ≤ actor.toList.length := long
    _ ≤ championSize Unit ((sampleSwap actor).replacement sampleTime) := actor_le_championSize actor
    _ < championSize Unit ((sampleSwap actor).replacement sampleTime) + 82 := Nat.lt_add_of_pos_right (by decide)
    _ = (championData Unit record).size := size.symm
  rw [readFile] at read
  exact readRegularFile_large large read

/-- The champion file of a promotion in a name of 64 MiB is written, and then refused. -/
theorem long_actor_not_repeated : ¬Custody Unit "champion.json"
    (.compareAndSwap (sampleSwap (String.ofList (List.replicate maxJsonBytes 'a'))))
    (ChampionCall.runAll Unit "champion.json" none [.bootstrapChampion sampleBoot]) := by
  refine not_custody_of_long _ ?_ (Nat.le_of_eq ?_)
  · rw [requireNonempty, String.toList_ofList, if_neg, if_neg]
    · intro member
      cases List.eq_of_mem_replicate member
    · intro spaces
      have first := List.all_eq_true.mp spaces 'a' (List.mem_replicate.mpr ⟨by decide, rfl⟩)
      cases first
  · rw [String.toList_ofList, List.length_replicate]

/-- The calls of the sample keep the chain. -/
theorem champion_custody_promotion :
    (∀ call ∈ [ChampionCall.bootstrapChampion sampleBoot, .compareAndSwap (sampleSwap "controller")], call.Sound Unit) ∧
      Custody Unit "champion.json" (.compareAndSwap (sampleSwap "controller"))
        (ChampionCall.runAll Unit "champion.json" none [.bootstrapChampion sampleBoot]) := by
  have sound : ∀ call ∈ [ChampionCall.bootstrapChampion sampleBoot, .compareAndSwap (sampleSwap "controller")],
      call.Sound Unit := by
    intro call member
    rcases List.mem_pair.mp member with rfl | rfl
    · exact ⟨by decide, fun swap same => by cases same⟩
    · refine ⟨by decide, ?_⟩
      rintro swap ⟨⟩ timestamp time
      cases time.symm.trans sample_activation
      have size := championSize_le (sampleSwap_valid (requireNonempty_sample "actor").2)
      obtain ⟨-, generation, key, report, actor, time⟩ := sample_sizes
      have champion : Utf8.size (Json.quoted (digest 'a')) = 66 := size_quoted_sha256 (isSha256_digest rfl)
      have hash : Utf8.size (Json.quoted (sha256Bytes reportData)) = 66 := size_quoted_sha256 (isSha256_sha256Bytes _)
      obtain ⟨-, -, -, -, stable, -⟩ := sample_texts
      have text : ∀ s : String, Json.text (optional (some s) : Json Unit) = Json.quoted s := fun _ => rfl
      refine (Nat.add_le_add_right size 82).trans ?_
      simp only [SwapCall.replacement, sampleSwap, text, stable, champion, hash, maxJsonBytes]
      linarith
  exact ⟨sound, (champion_custody "champion.json" sound rfl).1⟩

end Sample
end KataGo.Promotion
