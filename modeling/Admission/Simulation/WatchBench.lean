import Admission.Simulation.Watching

/-!
# Trying a watchdog

A script of calls to one watchdog. Handles are numbered in the order in which they are made.
-/

set_option autoImplicit false
set_option relaxedAutoImplicit false

namespace Admission.Simulation

/-- What kind of watchdog is tried. -/
inductive WatchBenchKind where
  /-- It never watches anything. -/
  | idle
  /-- Its hook records its calls. -/
  | recording
  /-- Its hook only writes to a log. -/
  | logging
deriving DecidableEq, Inhabited

/-- A line of a script for a watchdog. -/
inductive WatchBenchCommand where
  /-- Asks for work to be watched, so many times. -/
  | monitor (task : String) (timeout : Duration) (times : Nat)
  | detach
  | cancel (handle : Nat)
  | cancelAll
  | inspect (handle : Nat)
  | awaitExpired (handle : Nat)
  | awaitFired (count : Nat)
  | shutDown
  | diagnose
  | unknown
deriving Inhabited

/-- The answer to a line. -/
inductive WatchBenchReply where
  | none
  | done
  | handles (count : Nat)
  | watch (watch : Watch)
  | fired (calls : List (String × Duration))
  | shape (text : Option String)
  | unknown
deriving Inhabited

/-- A watchdog under trial. -/
structure WatchBench where
  kind : WatchBenchKind
  watching : Watching := {}

namespace WatchBench

/-- Asks for work to be watched. -/
def monitor (bench : WatchBench) (task : String) (timeout : Duration) : WatchBench :=
  { bench with
    watching :=
      if bench.kind = .idle then bench.watching.detach.1
      else (bench.watching.monitor task timeout).1 }

/-- The number of handles made so far. -/
def handles (bench : WatchBench) : WatchBenchReply := .handles bench.watching.watchdog.handles.size

/-- The calls that the hook has recorded. -/
def recorded (bench : WatchBench) : List (String × Duration) :=
  if bench.kind = .recording then bench.watching.fired else []

/-- Obeys a command. -/
def obey (bench : WatchBench) : WatchBenchCommand → WatchBench × WatchBenchReply
  | .monitor task timeout times =>
    let bench := (List.range times).foldl (fun bench _ ↦ bench.monitor task timeout) bench
    (bench, bench.handles)
  | .detach =>
    let bench := { bench with watching := bench.watching.detach.1 }
    (bench, bench.handles)
  | .cancel handle => ({ bench with watching := bench.watching.cancel handle }, .none)
  | .cancelAll => ({ bench with watching := bench.watching.cancelAll }, .none)
  | .inspect handle => (bench, .watch (bench.watching.handle handle))
  | .awaitExpired handle =>
    ({ bench with watching := bench.watching.awaitExpired handle }, .done)
  | .awaitFired count =>
    let bench := { bench with watching := bench.watching.awaitFired count }
    (bench, .fired bench.recorded)
  | .shutDown =>
    let bench := { bench with watching := bench.watching.shutdown }
    (bench, .fired bench.recorded)
  | .diagnose =>
    (bench, .shape (if bench.kind = .idle then none else some Watchdog.shape))
  | .unknown => (bench, .unknown)

/-- Obeys the commands of a script in turn. -/
def run : List WatchBenchCommand → WatchBench → List WatchBenchReply
  | [], _ => []
  | command :: script, bench =>
    let (bench, reply) := bench.obey command
    reply :: run script bench

end WatchBench

end Admission.Simulation
