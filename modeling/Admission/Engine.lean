import Admission.Error

/-!
# Engines

An engine decides where and when admitted work runs. It may run work at once, keep it for later, or
refuse it. `EngineStats` is what it shows of itself; `Counters` are the numbers that every engine
keeps.
-/

set_option autoImplicit false
set_option relaxedAutoImplicit false

namespace Admission

/-- What an engine shows of itself. -/
structure EngineStats where
  /-- Work that waits to be run. -/
  queueDepth : Nat := 0
  /-- The most work that may wait. -/
  queueCapacity : Nat := 0
  /-- Workers that run work now. -/
  activeWorkers : Nat := 0
  /-- Workers that exist. -/
  liveWorkers : Nat := 0
  /-- Workers that are kept without work. -/
  coreWorkers : Nat := 0
  /-- The most workers that may exist. -/
  maxWorkers : Nat := 0
  /-- Work accepted. -/
  submitted : Nat := 0
  /-- Work that ran to its end. -/
  completed : Nat := 0
  /-- Work that panicked. -/
  panicked : Nat := 0
  /-- Work refused. -/
  rejected : Nat := 0
deriving DecidableEq

namespace EngineStats

instance : Inhabited EngineStats := ⟨{}⟩

/-- The numbers under their names. -/
def entries (stats : EngineStats) : List (String × Nat) :=
  [("queue_depth", stats.queueDepth), ("queue_capacity", stats.queueCapacity),
   ("active_workers", stats.activeWorkers), ("live_workers", stats.liveWorkers),
   ("core_workers", stats.coreWorkers), ("max_workers", stats.maxWorkers),
   ("submitted", stats.submitted), ("completed", stats.completed),
   ("panicked", stats.panicked), ("rejected", stats.rejected)]

/-- The numbers for a diagnosis. -/
def shape (stats : EngineStats) : String :=
  Text.Shape.record "EngineStats" (stats.entries.map fun entry ↦ (entry.1, toString entry.2))

end EngineStats

/-- The numbers that every engine keeps. -/
structure Counters where
  submitted : Nat := 0
  completed : Nat := 0
  panicked : Nat := 0
  rejected : Nat := 0
  /-- Work that runs now. -/
  active : Nat := 0
deriving DecidableEq

/-- How a run of work ended. -/
inductive WorkOutcome where
  | completed
  | failed (failure : WorkFailure)
deriving DecidableEq, Inhabited

namespace Counters

instance : Inhabited Counters := ⟨{}⟩

/-- Counts work accepted. -/
def accept (counters : Counters) : Counters := { counters with submitted := counters.submitted + 1 }

/-- Counts work refused. -/
def refuse (counters : Counters) : Counters := { counters with rejected := counters.rejected + 1 }

/-- Counts the start of a run. -/
def begin (counters : Counters) : Counters := { counters with active := counters.active + 1 }

/-- Counts the end of a run. -/
def finish (counters : Counters) : WorkOutcome → Counters
  | .completed =>
    { counters with active := counters.active - 1, completed := counters.completed + 1 }
  | .failed _ =>
    { counters with active := counters.active - 1, panicked := counters.panicked + 1 }

/-- Fills in the numbers of an engine's statistics. -/
def fill (counters : Counters) (stats : EngineStats) : EngineStats :=
  { stats with
    activeWorkers := counters.active
    submitted := counters.submitted
    completed := counters.completed
    panicked := counters.panicked
    rejected := counters.rejected }

/-- The statistics of an engine that runs work on the thread that submits it. -/
def inlineStats (counters : Counters) : EngineStats :=
  counters.fill { coreWorkers := 1, maxWorkers := 1, liveWorkers := 1 }

end Counters

end Admission
