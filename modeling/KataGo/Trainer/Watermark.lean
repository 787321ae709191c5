import KataGo.Trainer.Receipts
import Mathlib.Data.List.Perm.Basic

/-! The watermark lists the receipts, unless one was published after it was last replaced. -/

namespace KataGo.Trainer
open KataGo.Lib

/-- What the watermark says of a receipt. -/
def Describes (c : Setting) (folder : Folder) (entry : String × Content) (row : WatermarkRow) : Prop :=
  row.path = c.pathOf folder entry.1 ∧
    match entry.2 with
    | .consumption r =>
        row.kind = "consumption" ∧ row.receiptSha256 = r.receiptSha256 ∧ row.sampleCount = r.payload.identity.samplesAfter ∧
          row.generationIds = r.payload.generations.generationIds
    | .lineage r =>
        row.kind = r.payload.identity.kind.value ∧ row.receiptSha256 = r.receiptSha256 ∧
          row.sampleCount = r.payload.identity.sampleCount ∧ row.generationIds = r.payload.generations.generationIds
    | _ => False

def Disk.lineage (d : Disk) : List (Folder × String × Content) :=
  lineageFolders.flatMap fun folder => (d.receipts folder).map (Prod.mk folder)

/-- The rows describe the receipts on the disk, in some order, and nothing else. -/
def Lists (c : Setting) (d : Disk) (rows : List WatermarkRow) : Prop :=
  ∃ order, order.Perm d.lineage ∧ List.Forall₂ (fun entry row => Describes c entry.1 entry.2 row) order rows

def Disk.listed (d : Disk) : List WatermarkRow :=
  match d.get .top watermarkName with
  | some (.watermark w) => w.receipts
  | _ => []

/-- `trainer-watermark.json` lists exactly the receipts on the disk. -/
def Current (c : Setting) (d : Disk) : Prop := ∃ w, d.get .top watermarkName = some (.watermark w) ∧ Lists c d w.receipts

/-- Whether a receipt has been published since the watermark was last replaced. -/
def Effect.pending (waiting : Bool) : Effect → Bool
  | .link folder _ _ => if folder ∈ lineageFolders then true else waiting
  | .replace .. => false
  | _ => waiting

def pending (log : List Effect) : Bool := log.foldl Effect.pending false

theorem pending_append {log es : List Effect} (settled : pending log = false) : pending (log ++ es) = pending es := by
  rw [pending, List.foldl_append, ← pending, settled]
  rfl

section Rows

variable {c : Setting} {d : Disk} {rows : List WatermarkRow}

theorem validateReceipt_eq_ok {α : Type} {toJson : α → Json Empty} {role : String} {r r' : Receipt α} :
    validateReceipt c toJson role r = .ok r' ↔ r' = r ∧ r.Valid c toJson := by
  rw [validateReceipt, bind_eq_ok]
  constructor
  · rintro ⟨current, digest, rest⟩
    obtain ⟨u, checked, result⟩ := bind_eq_ok.mp rest
    cases result
    rw [Receipt.Valid, digest, require_eq_ok.mp checked]
    exact ⟨rfl, rfl⟩
  · rintro ⟨rfl, valid⟩
    exact ⟨_, valid, bind_eq_ok.mpr ⟨(), require_eq_ok.mpr rfl, rfl⟩⟩

theorem watermarkRow_describes {folder : Folder} {entry : String × Content} {row : WatermarkRow}
    (made : watermarkRow c folder entry = .ok row) : Describes c folder entry row := by
  obtain ⟨name, content⟩ := entry
  cases content with
  | consumption r =>
    obtain ⟨r', validated, result⟩ := bind_eq_ok.mp made
    obtain ⟨rfl, -⟩ := validateReceipt_eq_ok.mp validated
    cases result
    exact ⟨rfl, rfl, rfl, rfl, rfl⟩
  | lineage r =>
    obtain ⟨r', validated, result⟩ := bind_eq_ok.mp made
    obtain ⟨rfl, -⟩ := validateReceipt_eq_ok.mp validated
    cases result
    exact ⟨rfl, rfl, rfl, rfl, rfl⟩
  | _ => cases made

theorem watermarkRows_lists (made : watermarkRows c d = .ok rows) : Lists c d rows := by
  obtain ⟨consumption, first, rest⟩ := bind_eq_ok.mp made
  obtain ⟨checkpoints, second, rest⟩ := bind_eq_ok.mp rest
  obtain ⟨exports, third, result⟩ := bind_eq_ok.mp rest
  cases result
  have described : ∀ {folder rows}, (d.glob folder).mapM (watermarkRow c folder) = .ok rows →
      List.Forall₂ (fun entry row => Describes c entry.1 entry.2 row) ((d.glob folder).map (Prod.mk folder)) rows := by
    intro folder rows made
    rw [List.forall₂_map_left_iff]
    exact (mapM_eq_ok.mp made).imp fun entry row => watermarkRow_describes
  refine ⟨lineageFolders.flatMap fun folder => (d.glob folder).map (Prod.mk folder), ?_, ?_⟩
  · exact List.Perm.flatMap_left _ fun folder _ => Disk.perm_glob.map _
  · have all := List.rel_append (List.rel_append (described first) (described second)) (described third)
    simpa [lineageFolders] using all

end Rows

section Counting

variable {c : Setting} {d : Disk} {rows : List WatermarkRow}

theorem Lists.length_eq (lists : Lists c d rows) : rows.length = d.lineage.length := by
  obtain ⟨order, perm, described⟩ := lists
  rw [← described.length_eq, perm.length_eq]

theorem Lists.congr {d' : Disk} (lists : Lists c d rows) (same : d'.lineage = d.lineage) : Lists c d' rows := by
  rw [Lists, same]
  exact lists

theorem not_top_of_lineage {folder : Folder} (member : folder ∈ lineageFolders) : folder ≠ .top := by
  rintro rfl
  simp [lineageFolders] at member

end Counting

/-- The watermark lists the receipts, or fewer than there are when one has been published
since. -/
structure Settled (c : Setting) (d : Disk) (log : List Effect) : Prop where
  sound : Sound c d
  listed : pending log = false → Lists c d d.listed
  fewer : pending log = true → d.listed.length < d.lineage.length

section Acting

variable {c : Setting} {d : Disk} {e : Effect} {log : List Effect}

theorem Disk.length_lineage (d : Disk) :
    d.lineage.length = (d.receipts .consumption).length + (d.receipts .checkpoints).length + (d.receipts .exports).length := by
  simp [lineage, lineageFolders, Nat.add_assoc]

theorem lineage_congr {d' : Disk} (same : ∀ folder ∈ lineageFolders, d'.receipts folder = d.receipts folder) :
    d'.lineage = d.lineage := by
  apply List.flatMap_congr
  intro folder member
  rw [same folder member]

theorem ne_of_isJson {name name' : String} (json : Disk.isJson name = false) (json' : Disk.isJson name' = true) : name' ≠ name := by
  rintro rfl
  rw [json] at json'
  cases json'

theorem get_update_ne {folder : Folder} {name : String} {f : Dict String Content → Dict String Content}
    (kept : (f (d.files folder)).get name = (d.files folder).get name) (other : Folder) :
    (d.update folder f).get other name = d.get other name := by
  by_cases same : other = folder
  · subst same
    rw [Disk.get, Disk.files_update_self, kept]
    rfl
  · rw [Disk.get, Disk.files_update_ne f same]
    rfl

/-- Only a replacement touches the watermark. -/
theorem Allowed.watermark_eq (allowed : Allowed c d e) (other : ∀ folder source target, e ≠ .replace folder source target) :
    (Acts.act e d).get .top watermarkName = d.get .top watermarkName := by
  cases e with
  | mkstemp folder name =>
    exact get_update_ne (f := fun files => files.set name .unfinished)
      (Dict.get_set_ne _ _ (ne_of_isJson allowed isJson_watermarkName)) .top
  | write folder name content =>
    exact get_update_ne (f := fun files => files.set name content)
      (Dict.get_set_ne _ _ (ne_of_isJson allowed isJson_watermarkName)) .top
  | unlink folder name =>
    refine get_update_ne (f := fun files => files.erase name) ?_ .top
    rw [Dict.get_erase, if_neg (ne_of_isJson allowed isJson_watermarkName)]
  | link folder source target =>
    obtain ⟨inside, -, -, content, there, -⟩ := allowed
    show (Effect.act d (.link folder source target)).get .top watermarkName = _
    rw [Effect.act, there]
    show ((d.update folder _).files .top).get watermarkName = _
    rw [Disk.files_update_ne _ inside.symm]
    rfl
  | replace folder source target => exact absurd rfl (other folder source target)

theorem Settled.length_le (settled : Settled c d log) : d.listed.length ≤ d.lineage.length := by
  cases waiting : pending log with
  | false => exact Nat.le_of_eq (settled.listed waiting).length_eq
  | true => exact Nat.le_of_lt (settled.fewer waiting)

theorem pending_concat : pending (log ++ [e]) = e.pending (pending log) := by
  rw [pending, List.foldl_append]
  rfl

/-- An effect that adds no receipt of the lineage and leaves the watermark alone. -/
theorem Settled.quiet (settled : Settled c d log) (allowed : Allowed c d e)
    (other : ∀ folder source target, e ≠ .replace folder source target)
    (unlinked : ∀ folder source target, e = .link folder source target → folder ∉ lineageFolders) :
    Settled c (Acts.act e d) (log ++ [e]) := by
  have waiting : pending (log ++ [e]) = pending log := by
    rw [pending_concat]
    cases e with
    | link folder source target => exact if_neg (unlinked folder source target rfl)
    | replace folder source target => exact absurd rfl (other folder source target)
    | _ => rfl
  have rows : Disk.listed (Acts.act e d) = d.listed := by rw [Disk.listed, allowed.watermark_eq other, Disk.listed]
  have receipts : Disk.lineage (Acts.act e d) = d.lineage := by
    apply lineage_congr
    intro folder member
    have grows := allowed.grows (not_top_of_lineage member)
    cases grows with
    | same receipts => exact receipts
    | added fits apart receipts => exact absurd member (unlinked _ _ _ rfl)
  constructor
  · exact settled.sound.act allowed
  · intro settledNow
    rw [waiting] at settledNow
    rw [rows]
    exact (settled.listed settledNow).congr receipts
  · intro waitingNow
    rw [waiting] at waitingNow
    rw [rows, receipts]
    exact settled.fewer waitingNow

theorem Settled.link {folder : Folder} {source target : String} (settled : Settled c d log)
    (allowed : Allowed c d (.link folder source target)) (member : folder ∈ lineageFolders) :
    Settled c (Acts.act (Effect.link folder source target) d) (log ++ [.link folder source target]) := by
  have waiting : pending (log ++ [.link folder source target]) = true := by
    rw [pending_concat]
    exact if_pos member
  have rows : Disk.listed (Acts.act (Effect.link folder source target) d) = d.listed := by
    rw [Disk.listed, allowed.watermark_eq nofun, Disk.listed]
  have more : (Disk.lineage (Acts.act (Effect.link folder source target) d)).length = d.lineage.length + 1 := by
    obtain ⟨content, others, grown, -⟩ := allowed.link_receipts
    rw [Disk.length_lineage, Disk.length_lineage]
    cases folder with
    | consumption =>
      rw [grown, others .checkpoints nofun, others .exports nofun, List.length_append, List.length_singleton]
      omega
    | checkpoints =>
      rw [grown, others .consumption nofun, others .exports nofun, List.length_append, List.length_singleton]
      omega
    | exports =>
      rw [grown, others .consumption nofun, others .checkpoints nofun, List.length_append, List.length_singleton]
      omega
    | top => simp [lineageFolders] at member
    | bindings => simp [lineageFolders] at member
  constructor
  · exact settled.sound.act allowed
  · intro settledNow
    rw [waiting] at settledNow
    cases settledNow
  · intro _
    have before := settled.length_le
    rw [rows, more]
    omega

theorem Settled.replace {folder : Folder} {source target : String} (settled : Settled c d log)
    (allowed : Allowed c d (.replace folder source target)) :
    Settled c (Acts.act (Effect.replace folder source target) d) (log ++ [.replace folder source target]) := by
  have waiting : pending (log ++ [.replace folder source target]) = false := by
    rw [pending_concat]
    rfl
  have receipts : Disk.lineage (Acts.act (Effect.replace folder source target) d) = d.lineage := by
    apply lineage_congr
    intro other member
    cases allowed.grows (not_top_of_lineage member) with
    | same receipts => exact receipts
  have sound := settled.sound.act allowed
  obtain ⟨rfl, -, rfl, w, there, made⟩ := allowed
  have rows : Disk.listed (Acts.act (Effect.replace .top source watermarkName) d) = w.receipts := by
    have acted : Effect.act d (.replace .top source watermarkName) =
        d.update .top fun files => (files.erase source).set watermarkName (.watermark w) := by
      rw [Effect.act, there]
    show (Effect.act d (.replace .top source watermarkName)).listed = _
    rw [acted, Disk.listed, Disk.get, Disk.files_update_self, Dict.get_set_self]
  constructor
  · exact sound
  · intro _
    rw [rows]
    exact (watermarkRows_lists made).congr receipts
  · intro waitingNow
    rw [waiting] at waitingNow
    cases waitingNow

theorem Settled.act (settled : Settled c d log) (allowed : Allowed c d e) : Settled c (Acts.act e d) (log ++ [e]) := by
  cases e with
  | link folder source target =>
    by_cases member : folder ∈ lineageFolders
    · exact settled.link allowed member
    · apply settled.quiet allowed nofun
      rintro _ _ _ ⟨⟩
      exact member
  | replace folder source target => exact settled.replace allowed
  | mkstemp folder name => exact settled.quiet allowed nofun nofun
  | write folder name content => exact settled.quiet allowed nofun nofun
  | unlink folder name => exact settled.quiet allowed nofun nofun

theorem Settled.initial (c : Setting) : Settled c .empty [] where
  sound := .empty
  listed := fun _ => ⟨[], by rfl, .nil⟩
  fewer := nofun

theorem Settled.after {es : List Effect} (settled : Settled c d log) (follows : Follows (Allowed c) d es) :
    Settled c (after d es) (log ++ es) :=
  follows.invariant (fun _ _ _ settled allowed => settled.act allowed) settled

/-- As long as there is a receipt, the watermark is current exactly when none has been published
since it was last replaced. -/
theorem Settled.current_iff (settled : Settled c d log) (some_ : d.lineage ≠ []) : Current c d ↔ pending log = false := by
  constructor
  · rintro ⟨w, there, lists⟩
    cases waiting : pending log with
    | false => rfl
    | true =>
      have fewer := settled.fewer waiting
      have rows : d.listed = w.receipts := by rw [Disk.listed, there]
      rw [rows, lists.length_eq] at fewer
      exact absurd fewer (Nat.lt_irrefl _)
  · intro settledNow
    have lists := settled.listed settledNow
    have positive := List.length_pos_iff.mpr some_
    rw [← lists.length_eq] at positive
    unfold Disk.listed at lists positive
    split at lists
    next w there => exact ⟨w, there, lists⟩
    next other => simp_all

end Acting

end KataGo.Trainer
