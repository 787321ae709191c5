import KataGo.Lease.Record
import KataGo.Lib.Polling

/-! What the lease manager sees of its host and does to it. Nothing happens on the host between two
effects of the manager except what they bring about; the disk takes every write. -/

namespace KataGo.Lease
open KataGo.Lib

/-- A host: its processes, its GPU, the checkpoint file, its clock and how commands are filled in. -/
class Host (W : Type) where
  isRunning : W → ProcessIdentity → Bool
  currentIdentity : W → Int → Option ProcessIdentity
  processGroupAlive : W → ProcessIdentity → Bool
  clock : W → ℚ
  checkpointStat : W → Option (Int × Int)
  stableCheckpointIdentity : W → Option CheckpointIdentity
  gpuProbe : W → Except Failure GpuObservation
  formatMap : String → List (String × String) → Except Failure String
  run : List String → ℚ → W → Except Failure CommandResult × W
  spawn : List String → W → Except Failure ProcessIdentity × W
  signalProcessGroup : ProcessIdentity → W → Except Failure Unit × W
  sleep : ℚ → W → W
  sleep_clock : ∀ w seconds, clock w + seconds ≤ clock (sleep seconds w)

/-- What the manager does. A pause may be one that waits for a process. -/
inductive Effect where
  | run (argv : List String) (timeout : ℚ)
  | spawn (argv : List String)
  | signal (identity : ProcessIdentity)
  | sleep (awaited : Option ProcessIdentity) (seconds : ℚ)
  | activate (record : LeaseRecord)
  | save (record : LeaseRecord)
  | emit (event : String) (record : Option LeaseRecord)
  deriving DecidableEq

structure Machine (W : Type) where
  world : W
  activeRecord : Option LeaseRecord
  leaseState : Option LeaseRecord

variable {W : Type} [Host W]

instance : Acts Effect (Machine W) where
  act
    | .run argv timeout, m => { m with world := (Host.run argv timeout m.world).2 }
    | .spawn argv, m => { m with world := (Host.spawn argv m.world).2 }
    | .signal identity, m => { m with world := (Host.signalProcessGroup identity m.world).2 }
    | .sleep _ seconds, m => { m with world := Host.sleep seconds m.world }
    | .activate record, m => { m with activeRecord := some record }
    | .save record, m => { m with leaseState := some record }
    | .emit _ _, m => m

abbrev Run (W : Type) [Host W] (α : Type) := Program Effect (Machine W) Failure α

/-- The clock whose pauses wait for a process, or for none. -/
def hostClock (awaited : Option ProcessIdentity) : Program.Clock Effect (Machine W) where
  read m := Host.clock m.world
  pause := .sleep awaited
  passes m seconds := Host.sleep_clock m.world seconds

namespace Run

def observe {α : Type} (f : W → α) : Run W α := fun m => ⟨[], .ok (f m.world)⟩

/-- `runner.run` -/
def run (argv : List String) (timeout : ℚ) : Run W CommandResult := do
  let answer ← observe fun w => (Host.run argv timeout w).1
  Program.perform (.run argv timeout)
  Program.lift answer

/-- `runner.spawn` -/
def spawn (argv : List String) : Run W ProcessIdentity := do
  let answer ← observe fun w => (Host.spawn argv w).1
  Program.perform (.spawn argv)
  Program.lift answer

/-- `runner.signal_process_group` with `SIGTERM` -/
def signalProcessGroup (identity : ProcessIdentity) : Run W Unit := do
  let answer ← observe fun w => (Host.signalProcessGroup identity w).1
  Program.perform (.signal identity)
  Program.lift answer

end Run

end KataGo.Lease
