import Admission.Scalar
import Admission.Settings

/-!
# Overload of a category

A category enters overload when more than the warning percentage of its limit is in use and leaves
it when less than the release percentage is. Between the two nothing changes, so a category whose
use varies a little does not flap. Every change is told to a sink, in an event that also says when
the state before it began.
-/

set_option autoImplicit false
set_option relaxedAutoImplicit false

namespace Admission

/-- The two changes of state. -/
inductive Transition where
  | entered
  | cleared
deriving DecidableEq, Inhabited

/-- The name of a change in reports. -/
def Transition.name : Transition → String
  | entered => "entered"
  | cleared => "cleared"

/-- The name of a change in a diagnosis. -/
def Transition.shape : Transition → String
  | entered => "Entered"
  | cleared => "Cleared"

/-- A change of state of one category. -/
structure OverloadEvent where
  controller : String
  category : String
  transition : Transition
  /-- The leases held when the change was seen. -/
  active : Nat
  /-- The limit of the admission that saw it. -/
  limit : Nat
  /-- When the state before the change began. -/
  since : Nat
  /-- When the change was seen. -/
  time : Nat
deriving DecidableEq, Inhabited

/-- Whether a category is overloaded, and since when it is or is not. -/
structure OverloadState where
  overloaded : Bool
  changedAt : Nat
deriving DecidableEq, Inhabited

namespace OverloadState

variable {R : Type} [Scalar R]

/-- A percentage of a limit. -/
def band (limit percent : Nat) : R :=
  Scalar.ofNat limit * Scalar.ofNat percent / Scalar.ofNat 100

variable (R) in
/-- The change, if any, that a use and a limit call for. -/
def transition? (state : OverloadState) (active limit : Nat) (settings : ControllerSettings) :
    Option Transition :=
  if state.overloaded = false ∧ (band limit settings.warningPercent : R) < Scalar.ofNat active then
    some .entered
  else if state.overloaded = true ∧
      Scalar.ofNat active < (band limit settings.releasePercent : R) then
    some .cleared
  else none

/-- The state after a change. -/
def apply (state : OverloadState) (now : Nat) : Option Transition → OverloadState
  | none => state
  | some transition => ⟨transition = .entered, now⟩

end OverloadState

/-- A sink that stores the latest events. -/
structure EventBuffer (α : Type) where
  /-- The most events that are stored. -/
  capacity : Nat
  /-- The stored events, oldest first. -/
  events : List α := []

namespace EventBuffer

variable {α : Type}

/-- Stores an event, in place of the oldest one if the buffer is full. -/
def push (buffer : EventBuffer α) (event : α) : EventBuffer α :=
  if buffer.capacity = 0 then buffer
  else
    let kept := if buffer.capacity ≤ buffer.events.length then buffer.events.tail else buffer.events
    { buffer with events := kept ++ [event] }

end EventBuffer

end Admission
