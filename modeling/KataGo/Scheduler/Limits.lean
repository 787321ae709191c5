import KataGo.Scheduler.Runs

/-! The size of the state file: a commit checks all that a load checks, except for the size. -/

namespace KataGo.Scheduler
open KataGo.Lib

variable {F : Type} [Numbers F] {s s' : State F} {file : StateFile}

section Size

/-- How many bytes the canonical text of a state takes before it is sealed. -/
def State.textSize (s : State F) : Nat := Utf8.size (Json.text (Json.obj s.body).sorted)

/-- The bytes that sealing adds: a comma, the field of the hash, and the newline at the end. -/
def sealSize : Nat := 83

theorem size_stateData (s : State F) : (stateData s).size = s.textSize + sealSize := by
  have body : Json.sortedFields (sortFields s.body) = sortFields s.body := sortedFields_sortFields s.body
  have whole : Json.sortedFields (sealed s (stateHash s)) = sealed s (stateHash s) := by
    rw [Json.sortedFields_eq] at body
    rw [Json.sortedFields_eq, sealed, List.map_append, body]
    rfl
  have nonempty : sortFields s.body ≠ [] := by
    intro empty
    have length := (List.perm_insertionSort Json.keyLe (Json.sortedFields s.body)).length_eq
    rw [← sortFields, empty, Json.sortedFields_eq] at length
    cases length
  have hash : Json.fieldSize (("state_sha256", .str (stateHash s)) : String × Json F) = 82 := by
    rw [Json.fieldSize_eq]
    show Utf8.size (Json.quoted "state_sha256") + Utf8.size (Json.quoted (stateHash s)) + 2 = 82
    rw [stateHash, Json.size_quoted_digits (Sha256.hexDigest_digits _), Sha256.hexDigest_length]
    rfl
  have text : s.textSize = 1 + ((sortFields s.body).map Json.fieldSize).sum := Json.size_text_obj nonempty
  have sealedNonempty : sealed s (stateHash s) ≠ [] := List.append_ne_nil_of_right_ne_nil _ (List.cons_ne_nil _ _)
  rw [stateData, ByteArray.size_append, Utf8.size_encode, Utf8.size_encode, Json.size_text_sorted sealedNonempty whole,
    sealed, List.map_append, List.sum_append, List.map_singleton, hash, text]
  show 1 + (_ + 82) + 1 = _ + 83
  omega

/-- The file can be loaded. -/
def Loads (F : Type) [Numbers F] (file : StateFile) : Prop := ∃ s : State F, loadState F file = .ok s

theorem loadState_stateData (valid : Valid s) (writable : (Json.obj s.body).encodable = true)
    (small : s.textSize + sealSize ≤ maxStateBytes) : loadState F (.regular (stateData s)) = .ok s.sort := by
  rw [← size_stateData] at small
  exact bind_eq_ok.mpr ⟨(), require_eq_ok.mpr small, readState_stateData valid writable⟩

/-- A state that was written is loaded if, and only if, it is not too large. -/
theorem loads_stateData (valid : Valid s) (writable : (Json.obj s.body).encodable = true) :
    Loads F (.regular (stateData s)) ↔ s.textSize + sealSize ≤ maxStateBytes := by
  constructor
  · rintro ⟨s', loaded⟩
    obtain ⟨_, small, -⟩ := bind_eq_ok.mp loaded
    rw [← size_stateData]
    exact require_eq_ok.mp small
  · intro small
    exact ⟨s.sort, loadState_stateData valid writable small⟩

end Size

section Commits

variable {attempt : Attempt F}

/-- The state that a call writes, unless it raises before the file is in place. -/
def Attempt.written (attempt : Attempt F) (file : StateFile) : Option (State F) :=
  match attempt.decide file with
  | .ok (_, some s) =>
      if attempt.disk ≠ .failsBefore ∧ (Json.obj (committed s).body).encodable = true then some (committed s) else none
  | _ => none

/-- The states that the calls of a run write, in their order. -/
def writes (file : StateFile) : List (Attempt F) → List (State F)
  | [] => []
  | attempt :: rest => (attempt.written file).toList ++ writes (attempt.run file).2 rest

/-- The states that a scheduler writes from the time it is opened. -/
def allWrites (configured : Option {set : GpuSet // set.gpus ≠ []}) (attempts : List (Attempt F)) : List (State F) :=
  newState F configured :: writes (opened F configured) attempts

theorem written_eq_some {answer : Answer F} (decided : attempt.decide file = .ok (answer, some s))
    (placed : attempt.disk ≠ .failsBefore) (writable : (Json.obj (committed s).body).encodable = true) :
    attempt.written file = some (committed s) := by
  simp only [Attempt.written, decided]
  exact if_pos ⟨placed, writable⟩

/-- A call writes a sound state, or leaves the file as it is. -/
theorem written_cases (attempt : Attempt F) (holds : Holds file s) :
    attempt.written file = none ∧ (attempt.run file).2 = file ∨
      ∃ s', attempt.written file = some s' ∧ Valid s' ∧ (Json.obj s'.body).encodable = true ∧
        (attempt.run file).2 = .regular (stateData s') := by
  unfold Attempt.written Attempt.run
  split
  next answer s₁ decided =>
    obtain ⟨request, -, decision⟩ := bind_eq_ok.mp decided
    obtain ⟨loaded, load, applied⟩ := bind_eq_ok.mp decision
    cases (stored_of_load load).symm.trans holds.1
    have valid := holds.2.move (apply_move holds.2 applied)
    have bytes := stateBytes_valid (valid.revise (s₁.revision + 1))
    rw [decided]
    by_cases writable : (Json.obj (committed s₁).body).encodable = true
    · rw [if_pos (by exact writable)] at bytes
      cases disk : attempt.disk with
      | failsBefore => exact .inl ⟨if_neg fun both => both.1 rfl, by simp only [commit, bytes, atomicWriteJson]⟩
      | sound =>
        exact .inr ⟨committed s₁, if_pos ⟨by decide, writable⟩, valid.revise _, writable,
          by simp only [commit, bytes, atomicWriteJson]; rfl⟩
      | failsAfter =>
        exact .inr ⟨committed s₁, if_pos ⟨by decide, writable⟩, valid.revise _, writable,
          by simp only [commit, bytes, atomicWriteJson]; rfl⟩
    · rw [if_neg (by exact writable)] at bytes
      exact .inl ⟨if_neg fun both => writable both.2, by simp only [commit, bytes]⟩
  next other =>
    refine .inl ⟨rfl, ?_⟩
    split
    next => rfl
    next => rfl
    next answer s₁ decided => exact absurd decided (other answer s₁)

theorem runs_load_iff (attempts : List (Attempt F)) (holds : Holds file s) :
    (∀ earlier, earlier <+: attempts → Loads F (Attempt.runAll file earlier)) ↔
      Loads F file ∧ ∀ s' ∈ writes file attempts, s'.textSize + sealSize ≤ maxStateBytes := by
  induction attempts generalizing file s with
  | nil =>
    simp only [List.prefix_nil, forall_eq, writes, List.not_mem_nil, false_imp_iff, implies_true, and_true]
    rfl
  | cons attempt attempts ih =>
    have split : (∀ earlier, earlier <+: attempt :: attempts → Loads F (Attempt.runAll file earlier)) ↔
        Loads F file ∧ ∀ earlier, earlier <+: attempts →
          Loads F (Attempt.runAll (attempt.run file).2 earlier) := by
      simp only [List.prefix_cons_iff, forall_eq_or_imp, forall_exists_index, and_imp]
      refine and_congr Iff.rfl ⟨fun all earlier first => all _ earlier rfl first, ?_⟩
      rintro all _ earlier rfl first
      exact all earlier first
    rw [split, writes]
    rcases written_cases attempt holds with ⟨none, same⟩ | ⟨s', some, valid, writable, file'⟩
    · rw [none, same, ih holds]
      simp
    · have holds' : Holds (attempt.run file).2 s'.sort := by
        rw [file']
        exact ⟨readState_stateData valid writable, valid.sort⟩
      rw [some, ih holds', file', loads_stateData valid writable]
      simp

/-- Whatever the calls of a run are, each state that is written can be loaded again exactly when its
text leaves room for the hash and the newline within the limit. -/
theorem commits_load_iff (configured : Option {set : GpuSet // set.gpus ≠ []}) (attempts : List (Attempt F)) :
    (∀ earlier, earlier <+: attempts → Loads F (Attempt.runAll (opened F configured) earlier)) ↔
      ∀ s ∈ allWrites configured attempts, s.textSize + sealSize ≤ maxStateBytes := by
  have valid := newState_valid (F := F) configured
  have writable := newState_encodable (F := F) configured
  have bytes := stateBytes_valid valid
  rw [if_pos writable] at bytes
  have file : opened F configured = .regular (stateData (newState F configured)) := by
    rw [opened, bytes]
  rw [runs_load_iff attempts (opened_holds configured), allWrites, List.forall_mem_cons, file,
    loads_stateData valid writable]

end Commits

section Sample

/-- A clock that always shows the same time. -/
inductive Epoch where
  | zero

/-- The only number with a fraction is `0.0`. -/
instance plainNumbers : Numbers Epoch where
  isFinite _ := true
  repr _ := ['0', '.', '0']
  parse _ := .zero
  maxStrDigits := 4300
  scan_repr _ _ _ stops := stops.scan_zero
  parse_repr _ _ := rfl
  same _ _ := true
  sameInt _ n := n = 0
  toFloat
    | .float x => some x
    | _ => none
  toFloat_float _ := rfl

theorem isIdentifier_w : isIdentifier "w" = true := by decide

/-- Work for any GPU, with a note. -/
def notedItem (note : String) : WorkItem Epoch where
  workId := ⟨"w", isIdentifier_w⟩
  kind := .backfill
  eligibleGpus := none
  preemptible := true
  preferredGpu := none
  payload := ⟨[("note", .str note)], by
    refine ⟨rfl, ?_, rfl⟩
    simp [Json.keyed, Json.keyedFields]⟩
  eligible_ne_nil := by simp
  preferred_eligible := by simp

def plainAttempt (call : Call Epoch) : Attempt Epoch := ⟨call, fun _ => .zero, .sound⟩

def enqueueCall (item : WorkItem Epoch) : Call Epoch :=
  .enqueue ⟨.workItem item, .null, .null, none, .bool false, .null, .null⟩

/-- The state that the noted item is written with. -/
def notedState (note : String) : State Epoch :=
  { newState Epoch none with
    revision := 1
    nextSequence := 2
    work := ⟨[(⟨"w", isIdentifier_w⟩, ⟨notedItem note, .queued, 1, 0, none, none⟩)], by simp⟩ }

/-- The bound is a variable's: sums of closed terms would be evaluated to compare them. -/
theorem fits_of_textSize_le {size : Nat} (small : size ≤ 5000) : size + sealSize ≤ maxStateBytes := by
  have limit : maxStateBytes = 67108864 := rfl
  have bytes : sealSize = 83 := rfl
  omega

theorem opened_loads : loadState Epoch (opened Epoch none) = .ok (newState Epoch none) := by
  have bytes := stateBytes_valid (newState_valid (F := Epoch) none)
  rw [if_pos (newState_encodable (F := Epoch) none)] at bytes
  have small : (newState Epoch none).textSize ≤ 5000 := by decide +kernel
  have loaded := loadState_stateData (newState_valid (F := Epoch) none) (newState_encodable none)
    (fits_of_textSize_le small)
  rw [opened, bytes]
  exact loaded

theorem notedState_encodable (note : String) : (Json.obj (notedState note).body).encodable = true := by
  have payload : (Json.obj (notedItem note).payload.fields).encodable = true := (notedItem note).payload.copied.writable
  have item : (Json.obj (notedItem note).toDict).encodable = true := by
    rw [encodable_obj]
    simp only [WorkItem.toDict, List.forall_mem_cons]
    exact ⟨rfl, rfl, rfl, rfl, rfl, payload, by simp⟩
  have record : (Json.obj (WorkRecord.toDict ⟨notedItem note, .queued, 1, 0, none, none⟩)).encodable = true := by
    rw [encodable_obj]
    simp only [WorkRecord.toDict, List.forall_mem_cons]
    exact ⟨item, rfl, rfl, rfl, rfl, rfl, by simp⟩
  have work : (dictJson (fun record => .obj record.toDict) (notedState note).work).encodable = true := by
    rw [dictJson, encodable_obj]
    simp only [notedState, List.map_cons, List.map_nil, List.forall_mem_cons]
    exact ⟨record, by simp⟩
  rw [encodable_obj]
  simp only [State.body, List.forall_mem_cons]
  exact ⟨rfl, rfl, rfl, rfl, rfl, work, rfl, rfl, rfl, rfl, rfl, rfl, by simp⟩

theorem written_noted (note : String) :
    (plainAttempt (enqueueCall (notedItem note))).written (opened Epoch none) = some (notedState note) := by
  have applied : Request.apply (.enqueue (notedItem note)) (fun _ => Epoch.zero) (newState Epoch none) =
      .ok (.work ⟨notedItem note, .queued, 1, 0, none, none⟩, some { notedState note with revision := 0 }) := rfl
  have decided : (plainAttempt (enqueueCall (notedItem note))).decide (opened Epoch none) =
      .ok (.work ⟨notedItem note, .queued, 1, 0, none, none⟩, some { notedState note with revision := 0 }) := by
    rw [Attempt.decide, bind_eq_ok]
    refine ⟨.enqueue (notedItem note), rfl, ?_⟩
    rw [bind_eq_ok]
    exact ⟨_, opened_loads, applied⟩
  exact written_eq_some decided (by simp [plainAttempt]) (notedState_encodable note)

/-- A note is no longer than the state that keeps it. -/
theorem length_le_textSize (note : String) : note.toList.length ≤ (notedState note).textSize := by
  have payload : ("note", .str note) ∈ (notedItem note).payload.fields := List.mem_cons_self
  have item : ("payload", .obj (notedItem note).payload.fields) ∈ (notedItem note).toDict := by
    simp [WorkItem.toDict]
  have record : ("item", .obj (notedItem note).toDict) ∈
      WorkRecord.toDict ⟨notedItem note, .queued, 1, 0, none, none⟩ := List.mem_cons_self
  have work : ("w", .obj (WorkRecord.toDict ⟨notedItem note, .queued, 1, 0, none, none⟩)) ∈
      (notedState note).work.entries.map fun entry => (entry.1.1, Json.obj entry.2.toDict) := List.mem_cons_self
  have body : ("work", dictJson (fun record => .obj record.toDict) (notedState note).work) ∈ (notedState note).body := by
    simp [State.body]
  calc note.toList.length
    _ ≤ Utf8.size (Json.text (Json.str note : Json Epoch).sorted) := Json.length_le_quoted note
    _ ≤ _ := Json.size_sorted_le payload
    _ ≤ _ := Json.size_sorted_le item
    _ ≤ _ := Json.size_sorted_le record
    _ ≤ _ := Json.size_sorted_le work
    _ ≤ (notedState note).textSize := Json.size_sorted_le body

theorem not_loaded_noted {note : String} (long : maxStateBytes ≤ note.toList.length) :
    ¬∀ earlier, earlier <+: [plainAttempt (enqueueCall (notedItem note))] →
      Loads Epoch (Attempt.runAll (opened Epoch none) earlier) := by
  intro loads
  have small := ((runs_load_iff _ (opened_holds none)).mp loads).2 (notedState note)
  have large := length_le_textSize note
  rw [writes, written_noted] at small
  have fits : (notedState note).textSize + 83 ≤ maxStateBytes := small (List.mem_append_left _ List.mem_cons_self)
  omega

/-- A scheduler cannot load its state any more after work with a long note was enqueued. -/
theorem long_note_not_loaded :
    ¬∀ earlier, earlier <+: [plainAttempt (enqueueCall (notedItem (String.ofList (List.replicate maxStateBytes 'a'))))] →
      Loads Epoch (Attempt.runAll (opened Epoch none) earlier) := by
  apply not_loaded_noted
  rw [String.toList_ofList, List.length_replicate]

end Sample
end KataGo.Scheduler
