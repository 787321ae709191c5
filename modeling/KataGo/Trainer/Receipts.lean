import KataGo.Trainer.Recorder

/-! What a call may do to the disk, and what no allowed effect breaks: receipts are complete,
stay as they are, and do not clash. -/

namespace KataGo.Trainer
open KataGo.Lib

theorem isJson_append_json (name : String) : Disk.isJson (name ++ ".json") = true := by
  simp [Disk.isJson]

theorem isJson_append_tmp (name : String) : Disk.isJson (name ++ ".tmp") = false := by
  rw [Disk.isJson, decide_eq_false_iff_not]
  rintro ⟨front, same⟩
  have ends := congrArg List.getLast? same
  simp at ends

theorem isJson_temporary (io : Io) (name : String) : Disk.isJson (io.temporary name) = false := isJson_append_tmp _

theorem isJson_watermarkName : Disk.isJson watermarkName = true := by decide

namespace Disk

variable {d : Disk} {folder other : Folder} {name : String} {content : Content}

/-- The folder has a file with this name and content, and the recorder looks at it. -/
def Holds (d : Disk) (folder : Folder) (name : String) (content : Content) : Prop :=
  d.get folder name = some content ∧ isJson name = true

theorem mem_glob : (name, content) ∈ d.glob folder ↔ d.Holds folder name content := by
  rw [glob, List.mem_filter, ← Dict.get_eq_some_iff, Dict.get_sort]
  rfl

@[simp] theorem files_update_self (f : Dict String Content → Dict String Content) :
    (d.update folder f).files folder = f (d.files folder) := if_pos rfl

theorem files_update_ne (f : Dict String Content → Dict String Content) (different : other ≠ folder) :
    (d.update folder f).files other = d.files other := if_neg different

/-- The receipts of a folder in the order in which they were created. -/
def receipts (d : Disk) (folder : Folder) : List (String × Content) :=
  (d.files folder).entries.filter fun entry => isJson entry.1

theorem mem_receipts : (name, content) ∈ d.receipts folder ↔ d.Holds folder name content := by
  rw [receipts, List.mem_filter, ← Dict.get_eq_some_iff]
  rfl

theorem perm_glob : (d.glob folder).Perm (d.receipts folder) := (List.perm_insertionSort _ _).filter _

theorem nodup_receipts : ((d.receipts folder).map Prod.fst).Nodup :=
  (d.files folder).nodup.sublist (List.filter_sublist.map Prod.fst)

end Disk

/-- The folders whose receipts the watermark lists. -/
def lineageFolders : List Folder := [.consumption, .checkpoints, .exports]

/-- The complete receipts that belong into a folder. -/
def Fits (c : Setting) : Folder → Content → Prop
  | .bindings, .binding _ => True
  | .consumption, .consumption r => r.Valid c Consumption.toJson ∧ r.payload.identity.samplesBefore < r.payload.identity.samplesAfter
  | .checkpoints, .lineage r => r.Valid c Lineage.toJson ∧ r.payload.identity.kind ≠ .exported
  | .exports, .lineage r => r.Valid c Lineage.toJson ∧ r.payload.identity.kind = .exported
  | _, _ => False

/-- Two receipts that must not stand beside each other. -/
def Clash : Content → Content → Prop
  | .consumption r, .consumption r' => r.payload.identity.overlaps r'.payload.identity = true
  | .lineage r, .lineage r' =>
      r.payload.identity.kind = r'.payload.identity.kind ∧ r.payload.identity.sampleCount = r'.payload.identity.sampleCount
  | _, _ => False

theorem Clash.symm {content content' : Content} (clash : Clash content content') : Clash content' content := by
  cases content with
  | consumption r =>
    cases content' with
    | consumption r' =>
      have both : r.payload.identity.overlaps r'.payload.identity = true := clash
      show r'.payload.identity.overlaps r.payload.identity = true
      rw [ConsumptionIdentity.overlaps, Bool.and_comm]
      exact both
    | _ => cases clash
  | lineage r =>
    cases content' with
    | lineage r' => exact ⟨clash.1.symm, clash.2.symm⟩
    | _ => cases clash
  | _ => cases clash

/-- The effects that the recorder has: a receipt is published when it is complete and clashes
with none, the watermark is replaced by a listing of the receipts, and everything else happens
to temporary files. -/
def Allowed (c : Setting) (d : Disk) : Effect → Prop
  | .mkstemp _ name => Disk.isJson name = false
  | .write _ name _ => Disk.isJson name = false
  | .unlink _ name => Disk.isJson name = false
  | .link folder source target =>
      folder ≠ .top ∧ Disk.isJson target = true ∧ d.get folder target = none ∧ ∃ content, d.get folder source = some content ∧
        Fits c folder content ∧ ∀ name existing, d.Holds folder name existing → ¬Clash content existing
  | .replace folder source target =>
      folder = .top ∧ Disk.isJson source = false ∧ target = watermarkName ∧
        ∃ w, d.get .top source = some (.watermark w) ∧ watermarkRows c d = .ok w.receipts

section Acting

variable {c : Setting} {d : Disk} {e : Effect} {folder other : Folder} {name source target : String} {content : Content}

/-- What an allowed effect does to the receipts of a folder: it adds one at most. -/
inductive Grows (c : Setting) (d d' : Disk) : Effect → Folder → Prop
  | same {e : Effect} {folder : Folder} (receipts : d'.receipts folder = d.receipts folder) : Grows c d d' e folder
  | added {folder : Folder} {source target : String} {content : Content}
      (fits : Fits c folder content) (apart : ∀ name existing, d.Holds folder name existing → ¬Clash content existing)
      (receipts : d'.receipts folder = d.receipts folder ++ [(target, content)]) :
      Grows c d d' (.link folder source target) folder

theorem receipts_update_ne {f : Dict String Content → Dict String Content} (different : other ≠ folder) :
    (d.update folder f).receipts other = d.receipts other := by
  rw [Disk.receipts, Disk.files_update_ne f different]
  rfl

theorem receipts_update_temporary {f : Dict String Content → Dict String Content}
    (kept : (f (d.files folder)).entries.filter (fun entry => Disk.isJson entry.1) = d.receipts folder) :
    (d.update folder f).receipts other = d.receipts other := by
  by_cases same : other = folder
  · subst same
    rw [Disk.receipts, Disk.files_update_self, kept]
  · exact receipts_update_ne same

/-- A receipt is published behind those that its folder has. -/
theorem Allowed.link_receipts (allowed : Allowed c d (.link folder source target)) :
    ∃ content, (∀ other, other ≠ folder → (Acts.act (Effect.link folder source target) d).receipts other = d.receipts other) ∧
      (Acts.act (Effect.link folder source target) d).receipts folder = d.receipts folder ++ [(target, content)] ∧
      Fits c folder content ∧ ∀ name existing, d.Holds folder name existing → ¬Clash content existing := by
  obtain ⟨-, json, fresh, content, there, fits, apart⟩ := allowed
  have acted : Acts.act (Effect.link folder source target) d = d.update folder fun files => files.set target content := by
    show Effect.act d (.link folder source target) = _
    rw [Effect.act, there]
  have kept : [(target, content)].filter (fun entry => Disk.isJson entry.1) = [(target, content)] := by simp [json]
  refine ⟨content, ?_, ?_, fits, apart⟩
  · intro other different
    rw [acted]
    exact receipts_update_ne different
  · rw [acted, Disk.receipts, Disk.files_update_self, Dict.entries_set_fresh (Dict.get_eq_none_iff.mp fresh),
      List.filter_append, kept]
    rfl

theorem Allowed.grows (allowed : Allowed c d e) (inside : folder ≠ .top) : Grows c d (Acts.act e d) e folder := by
  cases e with
  | mkstemp changed name =>
    apply Grows.same
    exact receipts_update_temporary (f := fun files => files.set name .unfinished) (Dict.filter_set allowed)
  | write changed name content =>
    apply Grows.same
    exact receipts_update_temporary (f := fun files => files.set name content) (Dict.filter_set allowed)
  | unlink changed name =>
    apply Grows.same
    exact receipts_update_temporary (f := fun files => files.erase name) (Dict.filter_erase allowed)
  | link changed source target =>
    obtain ⟨content, others, grown, fits, apart⟩ := allowed.link_receipts
    by_cases same : folder = changed
    · subst same
      exact .added fits apart grown
    · exact .same (others folder same)
  | replace changed source target =>
    obtain ⟨rfl, -, -, w, there, -⟩ := allowed
    have acted : Acts.act (Effect.replace .top source target) d =
        d.update .top fun files => (files.erase source).set target (.watermark w) := by
      show Effect.act d (.replace .top source target) = _
      rw [Effect.act, there]
    rw [acted]
    exact .same (receipts_update_ne inside)

theorem holds_congr {d' : Disk} (same : d'.receipts folder = d.receipts folder) :
    d'.Holds folder name content ↔ d.Holds folder name content := by
  rw [← Disk.mem_receipts, same, Disk.mem_receipts]

theorem holds_added {d' : Disk} {added : Content} (grown : d'.receipts folder = d.receipts folder ++ [(target, added)]) :
    d'.Holds folder name content ↔ d.Holds folder name content ∨ name = target ∧ content = added := by
  rw [← Disk.mem_receipts, grown, List.mem_append, Disk.mem_receipts, List.mem_singleton, Prod.mk.injEq]

/-- A receipt stays as it is. -/
theorem Allowed.holds (allowed : Allowed c d e) (inside : folder ≠ .top) (holds : d.Holds folder name content) :
    Disk.Holds (Acts.act e d) folder name content := by
  cases allowed.grows inside with
  | same receipts => exact (holds_congr receipts).mpr holds
  | added fits apart receipts => exact (holds_added receipts).mpr (.inl holds)

/-- Every receipt is complete and belongs where it is, and no two clash. -/
structure Sound (c : Setting) (d : Disk) : Prop where
  fits : ∀ folder name content, folder ≠ .top → d.Holds folder name content → Fits c folder content
  apart : ∀ folder name name' content content', folder ≠ .top → d.Holds folder name content →
    d.Holds folder name' content' → Clash content content' → name = name'

theorem Sound.empty : Sound c .empty where
  fits := by
    rintro folder name content - ⟨found, -⟩
    cases found
  apart := by
    rintro folder name name' content content' - ⟨found, -⟩
    cases found

theorem Sound.act (sound : Sound c d) (allowed : Allowed c d e) : Sound c (Acts.act e d) where
  fits := by
    intro folder name content inside holds
    cases allowed.grows inside with
    | same receipts => exact sound.fits folder name content inside ((holds_congr receipts).mp holds)
    | added fits apart receipts =>
      rcases (holds_added receipts).mp holds with old | ⟨-, rfl⟩
      · exact sound.fits folder name content inside old
      · exact fits
  apart := by
    intro folder name name' content content' inside holds holds' clash
    cases allowed.grows inside with
    | same receipts =>
      exact sound.apart folder name name' content content' inside ((holds_congr receipts).mp holds)
        ((holds_congr receipts).mp holds') clash
    | added fits apart receipts =>
      rcases (holds_added receipts).mp holds with old | ⟨rfl, rfl⟩
      · rcases (holds_added receipts).mp holds' with old' | ⟨rfl, rfl⟩
        · exact sound.apart folder name name' content content' inside old old' clash
        · exact absurd clash.symm (apart name content old)
      · rcases (holds_added receipts).mp holds' with old' | ⟨rfl, rfl⟩
        · exact absurd clash (apart name' content' old')
        · rfl

theorem Sound.after {es : List Effect} (sound : Sound c d) (follows : Follows (Allowed c) d es) : Sound c (after d es) :=
  follows.invariant (I := fun d _ => Sound c d) (fun _ _ _ sound allowed => sound.act allowed) (l := []) sound

end Acting
end KataGo.Trainer
