import Admission.Simulation.World

/-!
# Setting a simulation up

A `Setup` says what a simulation starts from: its configuration, whether that is checked, and the
kinds of sink, engine and watchdog that its controllers share.
-/

set_option autoImplicit false
set_option relaxedAutoImplicit false

namespace Admission.Simulation

/-- What a simulation starts from. -/
structure Setup where
  /-- The first reading of the clock. -/
  start : Nat
  config : AdmissionConfig
  /-- Whether faults of the configuration keep controllers from being built. -/
  checked : Bool
  /-- Whether the source sets the weights of single categories. -/
  servesWeights : Bool
  sinkKind : SinkKind
  /-- The most events that a sink stores. -/
  sinkCapacity : Nat
  engineKind : EngineKind
  watchdogKind : WatchdogKind

namespace Setup

variable {R : Type} [Scalar R]

/-- The controllers of a configuration that nobody checks. -/
def uncheckedRegistry (setup : Setup) : Except AdmissionError (Registry R × ConfigStore) :=
  let store := ConfigStore.ofConfig setup.config
  let source := if setup.servesWeights then store.source else store.sourceWithoutWeights
  (Registry.buildAll setup.config.timings source setup.start setup.config.controllers.keys {}).map
    fun registry ↦ (registry, store)

/-- The first state of the simulation. -/
def world (setup : Setup) : Except AdmissionError (World R) :=
  let built :=
    if setup.checked then Registry.ofConfig setup.config setup.start else setup.uncheckedRegistry
  built.map fun (registry, store) ↦
    { clock := ⟨setup.start⟩
      store
      servesWeights := setup.checked || setup.servesWeights
      timings := setup.config.timings
      registry
      sinkKind := setup.sinkKind
      buffer := { capacity := setup.sinkCapacity }
      engineKind := setup.engineKind
      watchdogKind := setup.watchdogKind }

end Setup

end Admission.Simulation
