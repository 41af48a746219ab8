import Admission.Text.Shape
import Admission.Time

/-!
# A watchdog for running times

A watchdog is told of work with a deadline. When a deadline has passed and the work was not
cancelled before, it marks the work expired and calls a hook. It can stop nothing: expiry is
reported, not enforced.

The watchdog takes one command after another and after each fires every deadline that has passed, in
order of deadline and among equals in order of registration. Cancelled work keeps its place in the
queue of deadlines and is skipped when its turn comes; when very much work is watched, the cancelled
part is forgotten early.

Instants are nanoseconds since the watchdog's start.
-/

set_option autoImplicit false
set_option relaxedAutoImplicit false

namespace Admission

/-- What the watchdog and the holder of a handle share. -/
structure Watch where
  cancelled : Bool := false
  expired : Bool := false
deriving DecidableEq, Inhabited

/-- Work that is watched. -/
structure Watched where
  task : String
  timeout : Duration
  /-- The number of its handle. -/
  handle : Nat
deriving DecidableEq, Inhabited

/-- What the watchdog can be told. -/
inductive WatchCommand where
  | watch (deadline : Nat) (watched : Watched)
  | shutdown
deriving DecidableEq, Inhabited

/-- The state of a watchdog. -/
structure Watchdog where
  /-- Deadlines with the numbers of registrations, the next one first. -/
  deadlines : List (Nat × Nat) := []
  /-- The work of registrations that have not had their turn. -/
  watched : List (Nat × Watched) := []
  /-- The number of the latest registration. -/
  registrations : Nat := 0
  /-- What is shared, by number of handle. -/
  handles : Array Watch := #[]
  /-- The calls of the hook, oldest first. -/
  fired : List (String × Duration) := []
  stopped : Bool := false

namespace Watchdog

instance : Inhabited Watchdog := ⟨{}⟩

/-- An instant can be this many nanoseconds after the start at most. -/
def horizon : Nat := 0x7FFFFFFFFFFFFFFF * Duration.nanosPerSecond

/-- Cancelled work is forgotten early when more registrations than this are kept. -/
def pruneAbove : Nat := 1024

/-! ### Handles -/

/-- Makes a handle. -/
def newHandle (watchdog : Watchdog) : Watchdog × Nat :=
  ({ watchdog with handles := watchdog.handles.push {} }, watchdog.handles.size)

/-- What a handle shows. -/
def handle (watchdog : Watchdog) (number : Nat) : Watch := watchdog.handles[number]?.getD {}

/-- Stops watching. An expiry is not taken back. -/
def cancel (watchdog : Watchdog) (number : Nat) : Watchdog :=
  { watchdog with
    handles := watchdog.handles.modify number fun watch ↦ { watch with cancelled := true } }

/-- Cancels every handle. -/
def cancelAll (watchdog : Watchdog) : Watchdog :=
  { watchdog with handles := watchdog.handles.map fun watch ↦ { watch with cancelled := true } }

/-- The command that watches work from now on. A deadline past the horizon can never pass, so there
is none. -/
def watchCommand? (now : Nat) (watched : Watched) : Option WatchCommand :=
  let deadline := now + watched.timeout.toNanos
  if deadline < horizon then some (.watch deadline watched) else none

/-! ### The watchdog's own steps -/

/-- Puts a deadline in its place. -/
def insertDeadline (entry : Nat × Nat) : List (Nat × Nat) → List (Nat × Nat)
  | [] => [entry]
  | next :: rest =>
    if entry.1 < next.1 ∨ (entry.1 = next.1 ∧ entry.2 < next.2) then entry :: next :: rest
    else next :: insertDeadline entry rest

/-- Registers work. -/
def register (watchdog : Watchdog) (deadline : Nat) (watched : Watched) : Watchdog :=
  let number := watchdog.registrations + 1
  { watchdog with
    registrations := number
    deadlines := insertDeadline (deadline, number) watchdog.deadlines
    watched := (number, watched) :: watchdog.watched }

/-- The work of a registration. -/
def find? (watchdog : Watchdog) (number : Nat) : Option Watched :=
  (watchdog.watched.find? fun entry ↦ entry.1 = number).map (·.2)

/-- Forgets the work of a registration. -/
def forget (watchdog : Watchdog) (number : Nat) : Watchdog :=
  { watchdog with watched := watchdog.watched.filter fun entry ↦ entry.1 ≠ number }

/-- Marks work expired and calls the hook, unless it was cancelled. Hooks are taken to return:
nothing around the call stops a panic, which would end the watchdog. -/
def fire (watchdog : Watchdog) (watched : Watched) : Watchdog :=
  if (watchdog.handle watched.handle).cancelled then watchdog
  else
    { watchdog with
      handles := watchdog.handles.modify watched.handle fun watch ↦ { watch with expired := true }
      fired := watchdog.fired ++ [(watched.task, watched.timeout)] }

/-- Gives the next deadline its turn, if it has passed. -/
def turn? (watchdog : Watchdog) (now : Nat) : Option Watchdog :=
  match watchdog.deadlines with
  | [] => none
  | (deadline, number) :: rest =>
    if now < deadline then none
    else
      let watchdog := { watchdog with deadlines := rest }
      match watchdog.find? number with
      | none => some watchdog
      | some watched => some ((watchdog.forget number).fire watched)

/-- Gives every deadline that has passed its turn. -/
def turns (now : Nat) : Nat → Watchdog → Watchdog
  | 0, watchdog => watchdog
  | fuel + 1, watchdog =>
    match watchdog.turn? now with
    | none => watchdog
    | some watchdog => turns now fuel watchdog

/-- Forgets the work that was cancelled, if very much is watched. -/
def prune (watchdog : Watchdog) : Watchdog :=
  if pruneAbove < watchdog.watched.length then
    { watchdog with
      watched := watchdog.watched.filter fun entry ↦ !(watchdog.handle entry.2.handle).cancelled }
  else watchdog

/-- Fires what has passed and forgets what it can. Every deadline has one turn at most, so there are
no more turns than deadlines. -/
def pass (watchdog : Watchdog) (now : Nat) : Watchdog :=
  (turns now watchdog.deadlines.length watchdog).prune

/-- Takes a command. After it has been shut down a watchdog does nothing any more. -/
def receive (watchdog : Watchdog) (now : Nat) : WatchCommand → Watchdog
  | .watch deadline watched =>
    if watchdog.stopped then watchdog else (watchdog.register deadline watched).pass now
  | .shutdown => { watchdog with stopped := true }

/-- Wakes up without a command. -/
def wake (watchdog : Watchdog) (now : Nat) : Watchdog :=
  if watchdog.stopped then watchdog else watchdog.pass now

/-- A watchdog for a diagnosis, which shows nothing of its state. -/
def shape : String := Text.Shape.openRecord "ThreadWatchdog" []

end Watchdog

end Admission
