import KataGo.Trainer.Watermark

/-! What is left by the writing of one file, and by the tail of a recording. -/

namespace KataGo.Trainer
open KataGo.Lib

def Effect.folder : Effect → Folder
  | mkstemp folder _ => folder
  | write folder _ _ => folder
  | link folder _ _ => folder
  | replace folder _ _ => folder
  | unlink folder _ => folder

section Writing

variable {c : Setting} {d : Disk} {io : Io} {folder : Folder} {name temporary : String} {content : Content} {es : List Effect}

theorem act_files_ne {e : Effect} (different : folder ≠ e.folder) : (Acts.act e d).files folder = d.files folder := by
  cases e with
  | link changed source target =>
    show (Effect.act d (.link changed source target)).files folder = _
    cases found : d.get changed source with
    | none => rw [Effect.act, found]
    | some content =>
      rw [Effect.act, found]
      exact Disk.files_update_ne _ different
  | replace changed source target =>
    show (Effect.act d (.replace changed source target)).files folder = _
    cases found : d.get changed source with
    | none => rw [Effect.act, found]
    | some content =>
      rw [Effect.act, found]
      exact Disk.files_update_ne _ different
  | mkstemp changed name => exact Disk.files_update_ne (fun files => files.set name .unfinished) different
  | write changed name content => exact Disk.files_update_ne (fun files => files.set name content) different
  | unlink changed name => exact Disk.files_update_ne (fun files => files.erase name) different

theorem after_files_ne (elsewhere : ∀ e ∈ es, folder ≠ e.folder) : (after d es).files folder = d.files folder := by
  induction es generalizing d with
  | nil => rfl
  | cons e es ih =>
    rw [after_cons, ih fun e member => elsewhere e (List.mem_cons_of_mem _ member),
      act_files_ne (elsewhere e List.mem_cons_self)]

theorem holds_after (follows : Follows (Allowed c) d es) (inside : folder ≠ .top)
    (holds : d.Holds folder name content) : (after d es).Holds folder name content :=
  follows.invariant (I := fun d _ => d.Holds folder name content) (fun _ _ _ holds allowed => allowed.holds inside holds)
    (l := []) holds

theorem check_meets (call : SysCall) : Meets (Allowed c) (io.check call) d fun _ es => es = [] :=
  Meets.lift fun _ _ => rfl

theorem mkstemp_meets : Meets (Allowed c) (io.mkstemp folder name) d fun made es =>
    made = io.temporary name ∧ es = [.mkstemp folder (io.temporary name)] := by
  apply Meets.bind (check_meets .mkstemp)
  rintro _ _ rfl
  apply Meets.bind (Meets.read (P := fun _ es => es = []) rfl)
  rintro found _ rfl
  split
  · exact Meets.raise
  · apply Meets.bind (Meets.perform (e := Effect.mkstemp folder (io.temporary name)) (P := fun _ es => es = [_])
      (isJson_temporary io name) rfl)
    rintro _ _ rfl
    exact Meets.pure ⟨rfl, rfl⟩

theorem discard_meets (json : Disk.isJson temporary = false) :
    Meets (Allowed c) (io.discard folder temporary) d fun _ es => es = [.unlink folder temporary] := by
  apply Meets.bind (check_meets .unlink)
  rintro _ _ rfl
  exact Meets.perform json rfl

theorem alreadyThere_meets {message : String} : Meets (Allowed c) (alreadyThere folder name content message) d fun there es =>
    es = [] ∧ d.get folder name = if there then some content else none := by
  apply Meets.bind (Meets.read (P := fun found es => d = found ∧ es = []) ⟨rfl, rfl⟩)
  rintro _ _ ⟨rfl, rfl⟩
  cases found : d.get folder name with
  | none => exact Meets.pure ⟨rfl, rfl⟩
  | some present =>
    by_cases same : present = content
    · subst same
      simp only [↓reduceIte]
      exact Meets.pure ⟨rfl, rfl⟩
    · simp only [same, ↓reduceIte]
      exact Meets.raise

theorem get_write_self (d : Disk) (folder : Folder) (name : String) (content : Content) :
    (Acts.act (Effect.write folder name content) d).get folder name = some content := by
  show ((d.update folder fun files => files.set name content).files folder).get name = _
  rw [Disk.files_update_self, Dict.get_set_self]

theorem get_write_ne {other : String} (different : other ≠ name) :
    (Acts.act (Effect.write folder name content) d).get folder other = d.get folder other :=
  get_update_ne (f := fun files => files.set name content) (Dict.get_set_ne _ _ different) folder

theorem get_mkstemp_ne {other : String} (different : other ≠ name) :
    (Acts.act (Effect.mkstemp folder name) d).get folder other = d.get folder other :=
  get_update_ne (f := fun files => files.set name .unfinished) (Dict.get_set_ne _ _ different) folder

theorem watermarkRows_congr {d' : Disk} (same : ∀ folder, folder ≠ .top → d'.files folder = d.files folder) :
    watermarkRows c d' = watermarkRows c d := by
  have listing : ∀ folder, folder ≠ .top → d'.glob folder = d.glob folder := by
    intro folder inside
    rw [Disk.glob, same folder inside, Disk.glob]
  rw [watermarkRows, listing .consumption (by decide), listing .checkpoints (by decide), listing .exports (by decide), watermarkRows]

/-- The effects of a file being replaced. -/
def replaceEffects (io : Io) (folder : Folder) (name : String) (content : Content) : List Effect :=
  [.mkstemp folder (io.temporary name), .write folder (io.temporary name) content,
    .replace folder (io.temporary name) name, .unlink folder (io.temporary name)]

theorem replaceEffects_folder {e : Effect} (member : e ∈ replaceEffects io folder name content) : e.folder = folder := by
  simp only [replaceEffects, List.mem_cons, List.not_mem_nil, or_false] at member
  rcases member with rfl | rfl | rfl | rfl <;> rfl

theorem atomicReplaceJson_meets {w : Watermark} (made : watermarkRows c d = .ok w.receipts) :
    Meets (Allowed c) (atomicReplaceJson io .top watermarkName (.watermark w)) d fun _ es =>
      es = replaceEffects io .top watermarkName (.watermark w) := by
  apply Meets.bind (check_meets .mkdir)
  rintro _ _ rfl
  apply Meets.bind mkstemp_meets
  rintro _ _ ⟨rfl, rfl⟩
  have json := isJson_temporary io watermarkName
  refine Meets.finally_ (P := fun _ es => es = [.write .top (io.temporary watermarkName) (.watermark w),
    .replace .top (io.temporary watermarkName) watermarkName]) (L := fun _ => True) ?_ trivial ?_
  · apply Meets.bind (check_meets .write)
    rintro _ _ rfl
    apply Meets.bind (Meets.perform (e := Effect.write .top (io.temporary watermarkName) (.watermark w))
      (P := fun _ es => es = [_]) json rfl)
    rintro _ _ rfl
    apply Meets.bind (check_meets .fsync)
    rintro _ _ rfl
    apply Meets.bind (check_meets .chmod)
    rintro _ _ rfl
    apply Meets.bind (check_meets .replace)
    rintro _ _ rfl
    apply Meets.bind (Meets.perform (e := Effect.replace .top (io.temporary watermarkName) watermarkName)
      (P := fun _ es => es = [_]) ?_ rfl)
    · rintro _ _ rfl
      apply (check_meets .fsyncDirectory).weaken
      rintro _ _ rfl
      rfl
    · refine ⟨rfl, json, rfl, w, get_write_self _ .top _ _, ?_⟩
      rw [← made]
      apply watermarkRows_congr
      intro folder inside
      exact (act_files_ne inside).trans (act_files_ne inside)
  · rintro es -
    apply (discard_meets json).weaken
    rintro _ _ rfl _ rfl
    rfl

theorem replaceTrainerProjection_meets {w : World} : Meets (Allowed c) (replaceTrainerProjection c w) d fun _ es =>
    ∃ content, es = replaceEffects w.projectionIo .top watermarkName content := by
  apply Meets.bind (Meets.read (P := fun found es => d = found ∧ es = []) ⟨rfl, rfl⟩)
  rintro _ _ ⟨rfl, rfl⟩
  apply Meets.bind (Meets.lift (P := fun rows es => watermarkRows c d = .ok rows ∧ es = []) fun rows made => ⟨made, rfl⟩)
  rintro rows _ ⟨made, rfl⟩
  apply Meets.bind (Meets.lift (P := fun _ es => es = []) fun _ _ => rfl)
  rintro digest _ rfl
  apply (atomicReplaceJson_meets (w := ⟨rows, digest⟩) made).weaken
  rintro _ _ rfl
  exact ⟨_, rfl⟩

/-- The effects of a file being created. -/
def createEffects (io : Io) (folder : Folder) (name : String) (content : Content) : List Effect :=
  [.mkstemp folder (io.temporary name), .write folder (io.temporary name) content,
    .link folder (io.temporary name) name, .unlink folder (io.temporary name)]

theorem createEffects_folder {e : Effect} (member : e ∈ createEffects io folder name content) : e.folder = folder := by
  simp only [createEffects, List.mem_cons, List.not_mem_nil, or_false] at member
  rcases member with rfl | rfl | rfl | rfl <;> rfl

theorem holds_created (c : Setting) (inside : folder ≠ .top) (json : Disk.isJson name = true) :
    (after d (createEffects io folder name content)).Holds folder name content := by
  let written := after d [Effect.mkstemp folder (io.temporary name), Effect.write folder (io.temporary name) content]
  have linked : Effect.act written (.link folder (io.temporary name) name) =
      written.update folder fun files => files.set name content := by
    rw [Effect.act, show written.get folder (io.temporary name) = some content from get_write_self _ folder _ _]
  have discarded : Allowed c (Effect.act written (.link folder (io.temporary name) name))
    (.unlink folder (io.temporary name)) := isJson_temporary io name
  apply discarded.holds inside
  rw [linked]
  refine ⟨?_, json⟩
  rw [Disk.get, Disk.files_update_self, Dict.get_set_self]

theorem atomicCreateJson_meets (inside : folder ≠ .top) (json : Disk.isJson name = true) (fits : Fits c folder content)
    (apart : d.get folder name = none → ∀ name existing, d.Holds folder name existing → ¬Clash content existing) :
    Meets (Allowed c) (atomicCreateJson io folder name content) d fun _ es =>
      (es = [] ∨ es = createEffects io folder name content) ∧ (after d es).Holds folder name content := by
  have temporary := isJson_temporary io name
  have different : name ≠ io.temporary name := ne_of_isJson temporary json
  apply Meets.bind (check_meets .mkdir)
  rintro _ _ rfl
  apply Meets.bind alreadyThere_meets
  rintro there _ ⟨rfl, found⟩
  cases there with
  | true => exact Meets.pure ⟨.inl rfl, found, json⟩
  | false =>
    have absent : d.get folder name = none := found
    apply Meets.bind mkstemp_meets
    rintro _ _ ⟨rfl, rfl⟩
    have kept : (Acts.act (Effect.write folder (io.temporary name) content)
        (Acts.act (Effect.mkstemp folder (io.temporary name)) d)).get folder name = none := by
      rw [get_write_ne different, get_mkstemp_ne different, absent]
    refine Meets.finally_ (P := fun _ es => es = [.write folder (io.temporary name) content,
      .link folder (io.temporary name) name]) (L := fun _ => True) ?_ trivial ?_
    · apply Meets.bind (check_meets .write)
      rintro _ _ rfl
      apply Meets.bind (Meets.perform (e := Effect.write folder (io.temporary name) content)
        (P := fun _ es => es = [_]) temporary rfl)
      rintro _ _ rfl
      apply Meets.bind (check_meets .fsync)
      rintro _ _ rfl
      apply Meets.bind (check_meets .chmod)
      rintro _ _ rfl
      apply Meets.bind (check_meets .link)
      rintro _ _ rfl
      apply Meets.bind alreadyThere_meets
      rintro there _ ⟨rfl, found⟩
      cases there with
      | true => exact absurd (kept.symm.trans found) nofun
      | false =>
        apply Meets.bind (Meets.perform (e := Effect.link folder (io.temporary name) name) (P := fun _ es => es = [_]) ?_ rfl)
        · rintro _ _ rfl
          apply Meets.bind (check_meets .fsyncDirectory)
          rintro _ _ rfl
          exact Meets.pure rfl
        · refine ⟨inside, json, kept, content, get_write_self _ folder _ _, fits, ?_⟩
          intro other existing holds
          apply apart absent other existing
          have made : Allowed c d (.mkstemp folder (io.temporary name)) := temporary
          have written : Allowed c (Acts.act (Effect.mkstemp folder (io.temporary name)) d)
            (.write folder (io.temporary name) content) := temporary
          cases made.grows inside with
          | same first =>
            cases written.grows inside with
            | same second => exact (holds_congr first).mp ((holds_congr second).mp holds)
    · rintro es -
      apply (discard_meets temporary).weaken
      rintro _ _ rfl _ rfl
      exact ⟨.inr rfl, holds_created c inside json⟩

/-- What a completed recording leaves: its receipt, and the watermark, unless the receipt was
there. -/
structure Published (c : Setting) (d : Disk) (folder : Folder) (path : String) (content : Content) (es : List Effect) : Prop where
  holds : ∃ name, path = c.pathOf folder name ∧ (after d es).Holds folder name content
  listed : es = [] ∨ ∃ front io content, es = front ++ replaceEffects io .top watermarkName content
  local_ : ∀ e ∈ es, e.folder = folder ∨ e.folder = .top

theorem publish_meets {w : World} {made : Except Error Content} (inside : folder ≠ .top) (json : Disk.isJson name = true)
    (fits : ∀ content, made = .ok content → Fits c folder content)
    (apart : ∀ content, made = .ok content → d.get folder name = none →
      ∀ name existing, d.Holds folder name existing → ¬Clash content existing) :
    Meets (Allowed c) (publish c w folder name made) d fun path es =>
      ∃ content, made = .ok content ∧ Published c d folder path content es := by
  apply Meets.bind (Meets.lift (P := fun content es => made = .ok content ∧ es = []) fun content made => ⟨made, rfl⟩)
  rintro content _ ⟨made, rfl⟩
  have created : Meets _ (atomicCreateJson w.receiptIo folder name content) _ _ :=
    atomicCreateJson_meets inside json (fits content made) (apart content made)
  apply Meets.bind created
  rintro _ created ⟨shape, there⟩
  apply Meets.bind replaceTrainerProjection_meets.attach
  rintro _ _ ⟨⟨watermark, rfl⟩, follows⟩
  apply Meets.pure
  rw [List.nil_append, List.append_nil]
  refine ⟨content, made, ?_, .inr ⟨created, w.projectionIo, watermark, rfl⟩, ?_⟩
  · refine ⟨name, rfl, ?_⟩
    rw [after_append]
    exact holds_after follows inside there
  · intro e member
    rcases List.mem_append.mp member with first | second
    · rcases shape with rfl | rfl
      · cases first
      · exact .inl (createEffects_folder first)
    · exact .inr (replaceEffects_folder second)

end Writing
end KataGo.Trainer
