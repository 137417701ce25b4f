import BurnAfterRead.Time.Duration

/-!
# Background tasks

A task that is run again and again while the service is up: it waits for its interval, runs, and
waits again from the moment it has finished, whatever came of the run. Told to stop, it stops at once
if it waits, and after the run if it is running. Time is read on a clock that counts nanoseconds and
is never set back.
-/

namespace BurnAfterRead

namespace BackgroundTask

/-- What a task is doing. -/
inductive Phase where
  | waiting (since : Int)
  /-- The flag tells whether it is to stop after the run. -/
  | running (isLast : Bool)
  | stopped
  deriving DecidableEq, Repr

/-- What happens to a task; a run finishes with a result. -/
inductive Event (α : Type) where
  | clock (now : Int)
  | finished (result : α) (now : Int)
  | stop
  deriving DecidableEq, Repr

end BackgroundTask

structure BackgroundTask where
  interval : Duration
  phase : BackgroundTask.Phase
  deriving DecidableEq, Repr

namespace BackgroundTask

variable {α : Type}

/-- A task that begins to wait. -/
def start (interval : Duration) (now : Int) : BackgroundTask := ⟨interval, .waiting now⟩

/-- Whether the interval has passed. -/
def isDue (t : BackgroundTask) (now : Int) : Bool :=
  match t.phase with
  | .waiting since => since + t.interval.nanos ≤ now
  | _ => false

def isRunning (t : BackgroundTask) : Bool :=
  match t.phase with
  | .running _ => true
  | _ => false

/-- What a task does upon an event. -/
def step (t : BackgroundTask) : Event α → BackgroundTask
  | .clock now => if t.isDue now then { t with phase := .running false } else t
  | .finished _ now =>
    match t.phase with
    | .running true => { t with phase := .stopped }
    | .running false => { t with phase := .waiting now }
    | _ => t
  | .stop =>
    match t.phase with
    | .running _ => { t with phase := .running true }
    | _ => { t with phase := .stopped }

/-- Looks at the clock, and does a run of the task in a state if one is due. -/
def onClock {σ : Type} (clock : σ → Int) (run : σ → α × σ) (t : BackgroundTask) (s : σ) :
    BackgroundTask × σ :=
  let t := t.step (Event.clock (clock s) : Event α)
  if t.isRunning then
    let (result, s) := run s
    (t.step (.finished result (clock s)), s)
  else (t, s)

end BackgroundTask

end BurnAfterRead
