import KataGo.Lease.Reconcile

/-! What the dry run of a reconciliation says about the reconciliation itself. -/

namespace KataGo.Lease
open KataGo.Lib

/-- An effect that touches a process, waits for one or changes the record on the disk. -/
def Touches (record : LeaseRecord) : Effect → Prop
  | .run .. | .spawn _ | .signal _ => True
  | .sleep awaited _ => awaited.isSome
  | .save saved => saved ≠ record
  | .activate _ | .emit .. => False

variable {W : Type} [Host W] {config : RuntimeConfig} {record r : LeaseRecord} {s : Machine W} {α β : Type}

/-- The reconciliation leaves the processes and the record alone. -/
def Idle (config : RuntimeConfig) (record : LeaseRecord) (s : Machine W) : Prop :=
  ∀ e ∈ (reconcileLocked config record s).effects, ¬ Touches record e

theorem not_idle (touches : Has (Touches record) (reconcileLocked config record) s) : ¬ Idle config record s := by
  obtain ⟨e, member, kind⟩ := touches
  exact fun idle => idle e member kind

/-- The record with its change, as it is stored. -/
def stored (r : LeaseRecord) (change : LeaseRecord → LeaseRecord) (s : Machine W) : LeaseRecord :=
  { change r with updatedAt := Host.clock s.world }

theorem replaceRecord_run (r : LeaseRecord) (change : LeaseRecord → LeaseRecord) (s : Machine W) :
    replaceRecord r change s = ⟨[.activate (stored r change s), .save (stored r change s)], .ok (stored r change s)⟩ := rfl

theorem replaceRecord_touches {change : LeaseRecord → LeaseRecord} (changed : stored r change s ≠ record) :
    Has (Touches record) (replaceRecord r change) s :=
  ⟨.save (stored r change s), by simp [replaceRecord_run], changed⟩

/-- What comes after a change of the record. -/
theorem replaceRecord_bind_touches {change : LeaseRecord → LeaseRecord} {f : LeaseRecord → Run W β}
    (next : ∀ r s, Has (Touches record) (f r) s) : Has (Touches record) (replaceRecord r change >>= f) s := by
  refine Has.bind (fun error ended => ?_) fun r _ => next r _
  rw [replaceRecord_run] at ended
  cases ended

theorem spawn_marks (argv : List String) : Marks (Touches record) (Run.spawn (W := W) argv) :=
  Marks.bind fun _ => Marks.bind_left fun _ _ _ => Has.perform trivial

/-- A trainer that is restored has been spawned. -/
theorem restoreTrainer_marks : Marks (Touches record) (restoreTrainer (W := W) config r) :=
  Marks.bind fun _ => Marks.bind fun _ => Marks.bind fun _ => Marks.bind_left (spawn_marks _)

section Unhalted

variable (unhalted : record.safetyHalt = false)
include unhalted

theorem setSafetyHalt_touches (reason : String) : Has (Touches record) (setSafetyHalt r reason) s := by
  refine (replaceRecord_touches fun same => ?_).bind_left
  rw [← same] at unhalted
  cases unhalted

theorem halt_touches (reason : String) (actions : List String) : Has (Touches record) (halt r reason actions) s :=
  (setSafetyHalt_touches unhalted reason).bind_left

/-- A block that fails halts the lease, so that only what follows its success is left to be looked at. -/
theorem orHalt_bind_touches {x : Run W α} {reason : String} {f : α ⊕ LeaseRecord → Run W β}
    (next : ∀ a s, Has (Touches record) (f (.inl a)) s) : Has (Touches record) (orHalt x r reason >>= f) s := by
  cases ended : (x s).result with
  | error failure =>
    refine (Has.catch_ (fun a returned => ?_) fun failure s => (setSafetyHalt_touches unhalted _).bind_left).bind_left
    rw [bind_error ended] at returned
    cases returned
  | ok a =>
    have returned : (orHalt x r reason s).result = .ok (.inl a) := by
      rw [orHalt, Program.catch_, bind_ok ended]
      rfl
    refine Has.bind (fun failure failed => ?_) fun b same => ?_
    · rw [returned] at failed
      cases failed
    · rw [returned] at same
      cases same
      exact next a _

theorem orHalt_touches {x : Run W α} (marks : Marks (Touches record) x) (reason : String) :
    Has (Touches record) (orHalt x r reason) s := by
  refine Has.catch_ (fun a returned => ?_) fun failure s => (setSafetyHalt_touches unhalted _).bind_left
  exact (Marks.bind_left marks) s a returned

theorem releaseAndRestore_touches (actions : List String) :
    Has (Touches record) (releaseAndRestore config r actions) s := by
  refine orHalt_bind_touches unhalted fun times s => replaceRecord_bind_touches fun r s => ?_
  exact (orHalt_touches unhalted (Marks.bind fun _ => restoreTrainer_marks) _).bind_left

theorem restoreUnlessLive_touches (trainerLive : Bool) (actions : List String) :
    Has (Touches record) (restoreUnlessLive config r trainerLive actions) s := by
  unfold restoreUnlessLive
  split
  · exact halt_touches unhalted _ _
  · exact releaseAndRestore_touches unhalted actions

theorem finishHandoff_touches (trainerLive : Bool) (actions : List String) :
    Has (Touches record) (finishHandoff config r trainerLive actions) s := by
  unfold finishHandoff
  split
  · exact restoreUnlessLive_touches unhalted trainerLive actions
  · exact replaceRecord_bind_touches fun r s => orHalt_bind_touches unhalted fun r s =>
      restoreUnlessLive_touches unhalted trainerLive _

/-- A record that is not halted is left alone only where the trainer runs as it should. -/
theorem reconcileLocked_touches
    (unsettled : ¬ (record.expectedGpuUuid = config.expectedGpuUuid ∧ record.phase = "trainer_running" ∧
      record.trainer.any (Host.isRunning s.world) = true ∧ record.evaluators = [])) :
    Has (Touches record) (reconcileLocked config record) s := by
  refine Has.bind (fun _ failed => nomatch failed) fun _ _ => ?_
  split
  · exact halt_touches unhalted _ _
  next uuid =>
    rw [if_neg (by rw [unhalted]; decide)]
    refine Has.bind (fun _ failed => nomatch failed) fun live observed => ?_
    have live_ : live = liveness record s.world := by
      cases observed
      rfl
    subst live_
    split
    · exact halt_touches unhalted _ _
    split
    next restoring =>
      unfold completeRestoration
      split
      · exact halt_touches unhalted _ _
      · refine (replaceRecord_touches fun same => ?_).bind_left
        have phase : "trainer_running" = record.phase := congrArg LeaseRecord.phase same
        have restoring_ : record.phase = "restoring_trainer" := by
          simp only [Bool.and_eq_true, decide_eq_true_eq] at restoring
          exact restoring.1
        rw [restoring_] at phase
        exact absurd phase (by decide)
    split
    next running =>
      simp only [Bool.and_eq_true, decide_eq_true_eq] at running
      unfold clearStaleEvaluators
      split
      next cleared => exact absurd ⟨not_not.1 uuid, running.1, running.2, cleared⟩ unsettled
      next stale =>
        refine (replaceRecord_touches fun same => stale ?_).bind_left
        exact (congrArg LeaseRecord.evaluators same).symm
    split
    · exact orHalt_bind_touches unhalted fun r s => finishHandoff_touches unhalted _ _
    split
    · exact halt_touches unhalted _ _
    · exact finishHandoff_touches unhalted _ _

end Unhalted

/-- A lease whose trainer runs as it should is left alone. -/
theorem reconcileLocked_settled (unhalted : record.safetyHalt = false)
    (uuid : record.expectedGpuUuid = config.expectedGpuUuid) (phase : record.phase = "trainer_running")
    (running : record.trainer.any (Host.isRunning s.world) = true) (cleared : record.evaluators = []) :
    reconcileLocked config record s = ⟨[.activate record], .ok ([], record)⟩ := by
  let live := liveness record s.world
  have quiet : ¬ ((live.trainer || live.restored) && !live.evaluators.isEmpty) = true := by
    simp [live, liveness, cleared]
  have started : ¬ (decide (record.phase = "restoring_trainer") && live.restored) = true := by
    rw [phase]
    exact Bool.false_ne_true
  have settled : (decide (record.phase = "trainer_running") && live.trainer) = true := by
    rw [phase, show live.trainer = true from running]
    rfl
  unfold reconcileLocked
  rw [bind_ok (a := ()) rfl, if_neg (not_not.2 uuid), if_neg (by rw [unhalted]; decide),
    bind_ok (a := live) rfl]
  rw [if_neg quiet, if_neg started, if_pos settled, clearStaleEvaluators, if_pos cleared]
  rfl

/-- A trainer is live that is not the trainer of a lease with a running trainer. -/
def StrayTrainer (record : LeaseRecord) (w : W) : Prop :=
  ¬ (record.phase = "trainer_running" ∧ record.trainer.any (Host.isRunning w) = true) ∧
    (record.trainer.any (Host.isRunning w) || record.restoredTrainer.any (Host.isRunning w)) = true

/-- An empty plan is the one for a trainer that runs as it should, or for a stray one. -/
theorem settled_of_planned {w : W} (empty : plannedReconcileActions record w = []) (accounted : ¬ StrayTrainer record w) :
    record.safetyHalt = false ∧ record.phase = "trainer_running" ∧
      record.trainer.any (Host.isRunning w) = true ∧ record.evaluators = [] := by
  unfold plannedReconcileActions at empty
  split at empty
  · cases empty
  next unhalted =>
    refine ⟨Bool.eq_false_iff.2 unhalted, ?_⟩
    simp only at empty
    split at empty
    · cases empty
    split at empty
    · cases empty
    split at empty
    · split at empty <;> cases empty
    split at empty
    next running =>
      simp only [Bool.and_eq_true, decide_eq_true_eq] at running
      split at empty
      next cleared => exact ⟨running.1, running.2, cleared⟩
      next => cases empty
    next stopped =>
      simp only [Bool.and_eq_true, decide_eq_true_eq] at stopped
      split at empty
      · cases empty
      · obtain ⟨-, none⟩ := List.append_eq_nil_iff.1 empty
        split at none
        · cases none
        next live =>
          refine absurd ⟨stopped, ?_⟩ accounted
          rw [← Bool.not_or, Bool.not_eq_true, Bool.not_eq_false'] at live
          exact live

theorem planned_settled {w : W} (unhalted : record.safetyHalt = false) (phase : record.phase = "trainer_running")
    (running : record.trainer.any (Host.isRunning w) = true) (cleared : record.evaluators = []) :
    plannedReconcileActions record w = [] := by
  simp [plannedReconcileActions, unhalted, phase, running, cleared]

section Halted

/-- A host with a clock and nothing else. -/
instance bareHost : Host ℚ where
  isRunning _ _ := false
  currentIdentity _ _ := none
  processGroupAlive _ _ := false
  clock w := w
  checkpointStat _ := none
  stableCheckpointIdentity _ := none
  gpuProbe _ := .ok ⟨"gpu", []⟩
  formatMap part _ := .ok part
  run _ _ w := (.ok ⟨0, "", ""⟩, w)
  spawn _ w := (.error ⟨none, "no such file"⟩, w)
  signalProcessGroup _ w := (.ok (), w)
  sleep seconds w := w + seconds
  sleep_clock _ _ := le_rfl

def bareConfig : RuntimeConfig :=
  ⟨"/run", "/run/promotion", "/run/promotion/lease", "/run/promotion/events", "gpu", 0, 2, 1, ⟨1, by decide⟩, ["train"], [],
    "/run/checkpoint", 1, 1, 1, true, 1, [], 1, "controller"⟩

def haltedRecord : LeaseRecord :=
  ⟨"lease", "controller", "safety_halt", "gpu", none, [], none, none, true, some "requested", 0, 0, none, none, [], [],
    "safety_halt", none⟩

end Halted

end KataGo.Lease
