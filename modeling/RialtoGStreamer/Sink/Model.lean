import Mathlib.Data.List.AList

/-!
# A sink and its delegate

The MSE base sink and the web-audio sink forward their properties to a delegate
and queue them as long as they have none. The code is the same in both: the
functions below are those of either sink, over its properties and their types.
A delegate is a pointer here, and a function returns the calls it makes on it.
-/

namespace RialtoGStreamer.Sink

variable {π ρ : Type*} {ν : π → Type*}

/-- A call of the delegate's `setProperty`. -/
structure Call (ρ : Type*) (ν : π → Type*) where
  delegate : ρ
  property : π
  value : ν property

/-- The private part of a sink. -/
structure State (ρ : Type*) (ν : π → Type*) where
  delegate : Option ρ := none
  queuedProperties : AList ν := ∅

namespace State

/-- `initialise_delegate`, a single section of the mutex. -/
def initialiseDelegate (s : State ρ ν) (delegate : ρ) : State ρ ν × List (Call ρ ν) :=
  (⟨some delegate, ∅⟩, s.queuedProperties.entries.map fun e ↦ ⟨delegate, e.1, e.2⟩)

variable [DecidableEq π]

/-- The section of `handle_set_property` for a sink without a delegate. -/
def enqueue (s : State ρ ν) (property : π) (value : ν property) : State ρ ν :=
  { s with queuedProperties := s.queuedProperties.insert property value }

/-- `handle_set_property` with nothing between its two sections. -/
def handleSetProperty (s : State ρ ν) (property : π) (value : ν property) :
    State ρ ν × List (Call ρ ν) :=
  match s.delegate with
  | some delegate => (s, [⟨delegate, property, value⟩])
  | none => (s.enqueue property value, [])

/-- `handle_get_property`: the delegate's answer to `getProperty`, or the queued
value if there is one. `value` is what the caller has filled in. -/
def handleGetProperty (s : State ρ ν) (getProperty : ρ → (property : π) → ν property)
    (property : π) (value : ν property) : ν property :=
  match s.delegate with
  | some delegate => getProperty delegate property
  | none => (s.queuedProperties.lookup property).getD value

end State

end RialtoGStreamer.Sink
