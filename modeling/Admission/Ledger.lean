import Admission.Text.Shape

/-!
# Leases and how they are settled

A lease is the right to one slot, and it is settled once: by its release, or by a sweep that finds
it lost. Who settles it is decided by the phase of the lease, which all parties share and change
only by `Ledger.exchange`, a step that succeeds for exactly one of several parties that try it from
the same phase.

    active ── release ──────▸ released
      ├────── drop ─────────▸ abandoned   settled by the next sweep
      └────── stale sweep ──▸ reconciled ── late release ──▸ released

A party that drops a lease leaves its number in a queue for the sweep. A lease whose holder forgot
it is found by its heartbeat instead. Each definition below is one step that other parties may come
before or after; releases and sweeps are put together from them.
-/

set_option autoImplicit false
set_option relaxedAutoImplicit false

namespace Admission

/-- Who has, or has not yet, taken it on to settle a lease. -/
inductive Phase where
  | active
  | released
  | abandoned
  | reconciled
deriving DecidableEq, Inhabited

/-- The number of a phase in a diagnosis. -/
def Phase.code : Phase → Nat
  | active => 0
  | released => 1
  | abandoned => 2
  | reconciled => 3

/-- What does not change about a lease. -/
structure Lease where
  /-- How many leases were granted before it. -/
  number : Nat
  /-- The position of its category. -/
  category : Nat
  grantedAt : Nat
deriving DecidableEq, Inhabited

/-- The identifier that callers see. -/
def Lease.id (lease : Lease) : Nat := lease.number + 1

/-- The lease with the name of its category and its phase, for a diagnosis. -/
def Lease.shape (lease : Lease) (category : String) (phase : Phase) : String :=
  Text.Shape.record "SlotLease"
    [("id", toString lease.id), ("category", Text.quote category),
     ("granted_at_ms", toString lease.grantedAt), ("state", toString phase.code)]

/-- What the parties share about a lease. -/
structure Token where
  lease : Lease
  /-- The latest sign of life. -/
  heartbeat : Nat
  /-- Whether somebody is known to settle it, so that it cannot become stale. -/
  supervised : Bool := false
  phase : Phase := .active
deriving DecidableEq, Inhabited

/-- Every lease ever granted, and those that are not settled yet. -/
structure Ledger where
  /-- The shared parts, by number of lease. -/
  tokens : Array Token := #[]
  /-- The leases that are not settled, the latest first. -/
  outstanding : List Lease := []
  /-- The numbers of dropped leases that no sweep has taken up, in order of drop. -/
  dropped : List Nat := []

namespace Ledger

instance : Inhabited Ledger := ⟨{}⟩

/-- The leases ever granted, in order of grant. -/
def granted (ledger : Ledger) : List Lease := ledger.tokens.toList.map (·.lease)

/-- The lease of a number, settled or not. -/
def lease? (ledger : Ledger) (number : Nat) : Option Lease := (ledger.tokens[number]?).map (·.lease)

/-- The phase of a lease. -/
def phase? (ledger : Ledger) (number : Nat) : Option Phase := (ledger.tokens[number]?).map (·.phase)

/-- The identifier of the next lease. -/
def nextId (ledger : Ledger) : Nat := ledger.tokens.size + 1

/-- Enters a new lease. -/
def grant (ledger : Ledger) (category now : Nat) : Ledger × Lease :=
  let lease : Lease := ⟨ledger.tokens.size, category, now⟩
  ({ ledger with
      tokens := ledger.tokens.push { lease, heartbeat := now }
      outstanding := lease :: ledger.outstanding },
    lease)

/-- Changes the shared part of a lease. -/
def modifyToken (ledger : Ledger) (number : Nat) (change : Token → Token) : Ledger :=
  { ledger with tokens := ledger.tokens.modify number change }

/-- Puts a lease into a phase. -/
def setPhase (ledger : Ledger) (number : Nat) (phase : Phase) : Ledger :=
  ledger.modifyToken number fun token ↦ { token with phase }

/-- Moves a lease from one phase to another, if it is in that phase. -/
def exchange (ledger : Ledger) (number : Nat) (before after : Phase) : Option Ledger :=
  if ledger.phase? number = some before then some (ledger.setPhase number after) else none

/-- Records a sign of life. Signs may arrive out of order; the latest time stays. -/
def touch (ledger : Ledger) (number now : Nat) : Ledger :=
  ledger.modifyToken number fun token ↦ { token with heartbeat := max token.heartbeat now }

/-- Records that somebody is known to settle the lease. -/
def supervise (ledger : Ledger) (number : Nat) : Ledger :=
  ledger.modifyToken number fun token ↦ { token with supervised := true }

/-- Leaves the number of a dropped lease for the sweep. -/
def post (ledger : Ledger) (number : Nat) : Ledger :=
  { ledger with dropped := ledger.dropped ++ [number] }

/-- The lease of a number, if it is not settled. -/
def find? (ledger : Ledger) (number : Nat) : Option Lease :=
  ledger.outstanding.find? fun lease ↦ lease.number = number

/-- Takes a lease off the list of those not settled. -/
def remove (ledger : Ledger) (number : Nat) : Ledger :=
  { ledger with outstanding := ledger.outstanding.filter fun lease ↦ lease.number ≠ number }

/-! ### Steps of a sweep -/

/-- Why a sweep took a lease back. -/
inductive Loss where
  | dropped
  | stale
deriving DecidableEq, Inhabited

/-- The reason in words. -/
def Loss.message : Loss → String
  | dropped => "dropped without release"
  | stale => "heartbeat expired"

/-- A lease that a sweep took back. -/
structure Reclaimed where
  lease : Lease
  loss : Loss
deriving DecidableEq, Inhabited

/-- Takes one lease off the list, if it is there. -/
def reclaim (ledger : Ledger) (number : Nat) (loss : Loss) : Ledger × List Reclaimed :=
  match ledger.find? number with
  | none => (ledger, [])
  | some lease => (ledger.remove number, [⟨lease, loss⟩])

/-- Takes up the first dropped lease in the queue. It may have been settled as a stale one. -/
def receive (ledger : Ledger) : Option (Ledger × List Reclaimed) :=
  match ledger.dropped with
  | [] => none
  | number :: rest => some ({ ledger with dropped := rest }.reclaim number .dropped)

/-- Takes up every dropped lease of a list of numbers. -/
def receiveAll (ledger : Ledger) : List Nat → Ledger × List Reclaimed
  | [] => (ledger, [])
  | number :: rest =>
    let (ledger, taken) := { ledger with dropped := rest }.reclaim number .dropped
    let (ledger, others) := ledger.receiveAll rest
    (ledger, taken ++ others)

/-- Whether a lease is held by somebody who has not shown a sign of life for the given time. -/
def isStale (ledger : Ledger) (now bound : Nat) (lease : Lease) : Bool :=
  match ledger.tokens[lease.number]? with
  | none => false
  | some token => token.phase = .active && !token.supervised && bound ≤ now - token.heartbeat

/-- The numbers of the stale leases. -/
def staleNumbers (ledger : Ledger) (now bound : Nat) : List Nat :=
  (ledger.outstanding.filter (ledger.isStale now bound)).map (·.number)

/-- Takes it on to settle a lease that was seen to be stale. A lease that has been released since is
left to its holder; if it has been dropped since, its number in the queue will find nothing. -/
def claim (ledger : Ledger) (number : Nat) : Ledger × Bool :=
  match ledger.exchange number .active .reconciled with
  | some ledger => (ledger, true)
  | none => (ledger, ledger.phase? number = some .abandoned)

/-- Takes back a lease that was seen to be stale, unless it has been released since. -/
def claimStale (ledger : Ledger) (number : Nat) : Ledger × List Reclaimed :=
  match ledger.claim number with
  | (ledger, true) => ledger.reclaim number .stale
  | (ledger, false) => (ledger, [])

/-- Takes back every lease of a list that was seen to be stale. -/
def claimAll (ledger : Ledger) : List Nat → Ledger × List Reclaimed
  | [] => (ledger, [])
  | number :: rest =>
    let (ledger, taken) := ledger.claimStale number
    let (ledger, others) := ledger.claimAll rest
    (ledger, taken ++ others)

/-- Takes back every lost lease: the dropped ones, and the stale ones if there is a bound. -/
def collect (ledger : Ledger) (now : Nat) (bound : Option Nat) : Ledger × List Reclaimed :=
  let (ledger, dropped) := ledger.receiveAll ledger.dropped
  match bound with
  | none => (ledger, dropped)
  | some bound =>
    let (ledger, stale) := ledger.claimAll (ledger.staleNumbers now bound)
    (ledger, dropped ++ stale)

end Ledger

end Admission
