import Admission.Watchdog

/-!
# A watchdog in simulated time

The watchdog has a time of its own, which goes on only while somebody waits for it: then it takes
the commands it has been sent, and sleeps from one deadline to the next until what is waited for has
happened. Asking for work to be watched takes a moment, so equal timeouts lead to different
deadlines.
-/

set_option autoImplicit false
set_option relaxedAutoImplicit false

namespace Admission.Simulation

/-- A watchdog, its time, and the commands on their way to it. -/
structure Watching where
  watchdog : Watchdog := {}
  /-- The commands that the watchdog has not taken yet. -/
  pending : List WatchCommand := []
  instant : Nat := 0

namespace Watching

instance : Inhabited Watching := ⟨{}⟩

/-- What a handle shows. -/
def handle (watching : Watching) (number : Nat) : Watch := watching.watchdog.handle number

/-- The calls of the hook, oldest first. -/
def fired (watching : Watching) : List (String × Duration) := watching.watchdog.fired

/-- Makes a handle that nobody watches. -/
def detach (watching : Watching) : Watching × Nat :=
  let (watchdog, handle) := watching.watchdog.newHandle
  ({ watching with watchdog }, handle)

/-- Asks for work to be watched. -/
def monitor (watching : Watching) (task : String) (timeout : Duration) : Watching × Nat :=
  let (watching, handle) := watching.detach
  match Watchdog.watchCommand? watching.instant ⟨task, timeout, handle⟩ with
  | none => (watching, handle)
  | some command =>
    ({ watching with
        pending := watching.pending ++ [command]
        instant := watching.instant + 1 },
      handle)

/-- Stops watching. -/
def cancel (watching : Watching) (number : Nat) : Watching :=
  { watching with watchdog := watching.watchdog.cancel number }

/-- Stops watching anything. -/
def cancelAll (watching : Watching) : Watching :=
  { watching with watchdog := watching.watchdog.cancelAll }

/-- Lets the watchdog take the commands it has been sent. -/
def takePending (watching : Watching) : Watching :=
  { watching with
    watchdog := watching.pending.foldl (fun watchdog command ↦
      watchdog.receive watching.instant command) watching.watchdog
    pending := [] }

/-- Lets time go on to the next deadline. -/
def nextDeadline (watching : Watching) : Watching :=
  match watching.watchdog.deadlines with
  | [] => watching
  | (deadline, _) :: _ =>
    let instant := max watching.instant deadline
    { watching with instant, watchdog := watching.watchdog.wake instant }

/-- Lets time go on until a condition holds, but by no more than the given number of deadlines. -/
def awaitWithin (condition : Watching → Bool) : Nat → Watching → Watching
  | 0, watching => watching
  | deadlines + 1, watching =>
    if condition watching then watching
    else awaitWithin condition deadlines watching.nextDeadline

/-- Waits for a condition. -/
def await (watching : Watching) (condition : Watching → Bool) : Watching :=
  let taken := watching.takePending
  awaitWithin condition taken.watchdog.deadlines.length taken

/-- Waits until the hook has been called so often. -/
def awaitFired (watching : Watching) (count : Nat) : Watching :=
  watching.await fun watching ↦ count ≤ watching.fired.length

/-- Waits until a handle shows that its time is up. -/
def awaitExpired (watching : Watching) (number : Nat) : Watching :=
  watching.await fun watching ↦ (watching.handle number).expired

/-- Shuts the watchdog down after the commands it was sent before. -/
def shutdown (watching : Watching) : Watching :=
  let taken := watching.takePending
  { taken with watchdog := taken.watchdog.receive taken.instant .shutdown }

end Watching

end Admission.Simulation
