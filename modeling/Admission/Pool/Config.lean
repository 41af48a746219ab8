import Admission.Json.Parser
import Admission.Json.Printer
import Admission.Json.Record
import Admission.Text.Shape
import Admission.Time

/-!
# Configuration of a worker pool

How many workers a pool keeps and may start, how much work may wait, and how long a worker that was
started for a burst stays without work.
-/

set_option autoImplicit false
set_option relaxedAutoImplicit false

namespace Admission

/-- The sizes and times of a worker pool. By default the numbers of workers go by the machine
(`PoolConfig.forProcessors`). -/
structure PoolConfig where
  /-- Workers that live as long as the pool. -/
  coreWorkers : Nat
  /-- The most workers there may be at once. -/
  maxWorkers : Nat
  /-- The most work that may wait for a worker. -/
  maxQueueDepth : Nat := 1024
  /-- A burst worker leaves after this many milliseconds without work. -/
  keepAlive : Nat := 60000
  /-- The stack of a worker's thread in bytes. -/
  stackSize : Nat := 2 * 1024 * 1024
  /-- The names of workers start with this. -/
  namePrefix : String := "fs-worker"
deriving DecidableEq

/-- What can be wrong with a pool's configuration. -/
inductive PoolFault where
  | zeroCoreWorkers
  | maxBelowCore (max core : Nat)
  | zeroQueueDepth
  | smallStack
deriving DecidableEq

/-- The fault in words. -/
def PoolFault.message : PoolFault → String
  | zeroCoreWorkers => "core_workers must be greater than 0"
  | maxBelowCore max core => s!"max_workers ({max}) must be at least core_workers ({core})"
  | zeroQueueDepth => "max_queue_depth must be greater than 0"
  | smallStack => "thread_stack_size must be at least 64 KiB"

namespace PoolConfig

/-- The default on a machine with some number of processors: a core worker for each of them, one at
least, and as many more for a burst. -/
def forProcessors (processors : Nat) : PoolConfig where
  coreWorkers := max processors 1
  maxWorkers := max processors 1 * 2

instance : Inhabited PoolConfig := ⟨forProcessors 1⟩

/-- The first fault of the configuration. -/
def fault? (config : PoolConfig) : Option PoolFault :=
  if config.coreWorkers = 0 then some .zeroCoreWorkers
  else if config.maxWorkers < config.coreWorkers then
    some (.maxBelowCore config.maxWorkers config.coreWorkers)
  else if config.maxQueueDepth = 0 then some .zeroQueueDepth
  else if config.stackSize < 64 * 1024 then some .smallStack
  else none

/-- Sets the number of core workers and makes room for them. -/
def withCoreWorkers (config : PoolConfig) (count : Nat) : PoolConfig :=
  { config with coreWorkers := count, maxWorkers := max config.maxWorkers count }

/-- Sets how long a burst worker stays. A time that does not fit a word counts as the longest one
that does. -/
def withKeepAlive (config : PoolConfig) (duration : Duration) : PoolConfig :=
  { config with keepAlive := min duration.wholeMillis 0xFFFFFFFFFFFFFFFF }

/-- How long a burst worker stays without work. -/
def keepAliveDuration (config : PoolConfig) : Duration := .ofMillis config.keepAlive

open Json (nat64? string?)

/-- The fields of the configuration. -/
def fields : List (Json.Field PoolConfig) :=
  [.of "core_workers" nat64? fun value config ↦ { config with coreWorkers := value },
   .of "max_workers" nat64? fun value config ↦ { config with maxWorkers := value },
   .of "max_queue_depth" nat64? fun value config ↦ { config with maxQueueDepth := value },
   .of "keep_alive_ms" nat64? fun value config ↦ { config with keepAlive := value },
   .of "thread_stack_size" nat64? fun value config ↦ { config with stackSize := value },
   .of "thread_name_prefix" string? fun value config ↦ { config with namePrefix := value }]

/-- Reads the configuration on a machine with some number of processors. -/
def readOn? (processors : Nat) : Json → Option PoolConfig :=
  Json.record? fields (forProcessors processors)

/-- Reads the configuration on a machine with one processor. -/
def ofJson? : Json → Option PoolConfig := readOn? 1

/-- Writes the configuration. -/
def toJson (config : PoolConfig) : Json :=
  Json.ofMembers
    [("core_workers", .ofNat config.coreWorkers),
     ("max_workers", .ofNat config.maxWorkers),
     ("max_queue_depth", .ofNat config.maxQueueDepth),
     ("keep_alive_ms", .ofNat config.keepAlive),
     ("thread_stack_size", .ofNat config.stackSize),
     ("thread_name_prefix", .ofText config.namePrefix)]

/-- The configuration for a diagnosis. -/
def shape (config : PoolConfig) : String :=
  Text.Shape.record "WorkerPoolConfig"
    [("core_workers", toString config.coreWorkers),
     ("max_workers", toString config.maxWorkers),
     ("max_queue_depth", toString config.maxQueueDepth),
     ("keep_alive_ms", toString config.keepAlive),
     ("thread_stack_size", toString config.stackSize),
     ("thread_name_prefix", Text.quote config.namePrefix)]

end PoolConfig

end Admission
