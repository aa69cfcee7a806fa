import RialtoGStreamer.Library.Machine
import RialtoGStreamer.Sink.Model

/-!
# The stored properties of the base sink

`PullModePlaybackDelegate` keeps these properties in members of its own, which
live from NULL->READY to READY->NULL. What is set in between is gone with the
delegate.
-/

namespace RialtoGStreamer.Sink

open Library

/-- The properties that a pull-mode delegate stores. -/
inductive StoredProperty where
  | isSinglePathStream
  | numberOfStreams
  | hasDrm
  | enableLastSample
  deriving DecidableEq

def StoredProperty.Value : StoredProperty → Type
  | .numberOfStreams => Int
  | .isSinglePathStream | .hasDrm | .enableLastSample => Bool

/-- The members of the delegate, as it is constructed. -/
structure Stored where
  isSinglePathStream : Bool := false
  numOfStreams : Int := 1
  hasDrm : Bool := true
  enableLastSample : Bool := false
  deriving DecidableEq

namespace Stored

def setProperty (d : Stored) : (property : StoredProperty) → property.Value → Stored
  | .isSinglePathStream, value => { d with isSinglePathStream := value }
  | .numberOfStreams, value => { d with numOfStreams := value }
  | .hasDrm, value => { d with hasDrm := value }
  | .enableLastSample, value => { d with enableLastSample := value }

def getProperty (d : Stored) : (property : StoredProperty) → property.Value
  | .isSinglePathStream => d.isSinglePathStream
  | .numberOfStreams => d.numOfStreams
  | .hasDrm => d.hasDrm
  | .enableLastSample => d.enableLastSample

def receive (d : Stored) (calls : List (Call Unit StoredProperty.Value)) : Stored :=
  calls.foldl (fun d c ↦ d.setProperty c.property c.value) d

end Stored

/-- The default that `get_property` fills in, and the one of the property's
specification. -/
def StoredProperty.default : (property : StoredProperty) → property.Value
  | .isSinglePathStream => false
  | .numberOfStreams => (1 : Int)
  | .hasDrm => true
  | .enableLastSample => false

/-- A sink in pull mode used by one thread. `stored` are the members of the
delegate that is installed; `last` is the history: the last value set. -/
structure Element where
  sink : State Unit StoredProperty.Value := {}
  stored : Stored := {}
  isReady : Bool := false
  last : (property : StoredProperty) → Option property.Value := fun _ ↦ none

/-- `nullToReady` with the result of the delegate's `changeState`. -/
inductive ElementEvent where
  | set (property : StoredProperty) (value : property.Value)
  | nullToReady (result : Bool)
  | readyToNull

namespace Element

def get (s : Element) (property : StoredProperty) : property.Value :=
  s.sink.handleGetProperty (fun _ ↦ s.stored.getProperty) property property.default

def set (s : Element) (property : StoredProperty) (value : property.Value) : Element :=
  let (sink, calls) := s.sink.handleSetProperty property value
  { s with sink, stored := s.stored.receive calls, last := Function.update s.last property value }

/-- A delegate is created and initialised; it stays when its `changeState` fails. -/
def nullToReady (s : Element) (result : Bool) : Element :=
  let (sink, calls) := s.sink.initialiseDelegate ()
  { s with sink, stored := Stored.receive {} calls, isReady := result }

/-- The delegate is dropped. -/
def readyToNull (s : Element) : Element :=
  { s with sink := { s.sink with delegate := none }, isReady := false }

def step (s : Element) : ElementEvent → Option Element
  | .set property value => some (s.set property value)
  | .nullToReady result => if s.isReady then none else some (s.nullToReady result)
  | .readyToNull => if s.isReady then some s.readyToNull else none

end Element

def element : Machine Element ElementEvent where
  step := Element.step

/-- Each property reads as it was last set, or as its default. -/
def Registers (s : Element) : Prop :=
  ∀ property, s.get property = (s.last property).getD property.default

/-- A delegate is dropped or replaced only with its properties at their defaults. -/
def DropsDefaults (s : Element) : ElementEvent → Prop
  | .set _ _ => True
  | .nullToReady _ => s.sink.delegate ≠ none →
      ∀ property, s.stored.getProperty property = property.default
  | .readyToNull => ∀ property, s.stored.getProperty property = property.default

/-- A delegate has received what was queued, and a sink in READY has one. -/
structure Initialised (s : Element) : Prop where
  drained : s.sink.delegate ≠ none → s.sink.queuedProperties = ∅
  ready : s.isReady = true → s.sink.delegate ≠ none

/-! ## Reading what was set -/

theorem getProperty_setProperty (d : Stored) (property : StoredProperty) (value : property.Value) :
    (d.setProperty property value).getProperty =
      Function.update d.getProperty property value := by
  funext other
  cases property <;> cases other <;> rfl

theorem getProperty_receive (d : Stored) {l : List (Sigma StoredProperty.Value)}
    (hkeys : l.NodupKeys) (property : StoredProperty) :
    (d.receive (l.map fun e ↦ ⟨(), e.1, e.2⟩)).getProperty property =
      (l.dlookup property).getD (d.getProperty property) := by
  induction l generalizing d with
  | nil => rfl
  | cons e l ih =>
      obtain ⟨hfresh, hkeys⟩ := List.nodupKeys_cons.mp hkeys
      have hrest := ih (d.setProperty e.1 e.2) hkeys
      rw [getProperty_setProperty] at hrest
      change (Stored.receive (d.setProperty e.1 e.2) _).getProperty property = _
      rw [hrest]
      by_cases hproperty : property = e.1
      · subst hproperty
        rw [List.dlookup_eq_none.mpr hfresh, Function.update_self, List.dlookup_cons_eq]
        rfl
      · rw [Function.update_of_ne hproperty, List.dlookup_cons_ne _ _ hproperty]

theorem get_of_delegate {s : Element} (h : s.sink.delegate ≠ none) :
    s.get = s.stored.getProperty := by
  obtain ⟨delegate, hdelegate⟩ := Option.ne_none_iff_exists'.mp h
  funext property
  unfold Element.get State.handleGetProperty
  rw [hdelegate]

theorem get_of_not_delegate {s : Element} (h : s.sink.delegate = none) (property : StoredProperty) :
    s.get property = (s.sink.queuedProperties.lookup property).getD property.default := by
  unfold Element.get State.handleGetProperty
  rw [h]

theorem getProperty_default : Stored.getProperty {} = StoredProperty.default := by
  funext property
  cases property <;> rfl

theorem get_set (s : Element) (property : StoredProperty) (value : property.Value) :
    (s.set property value).get = Function.update s.get property value := by
  cases hdelegate : s.sink.delegate with
  | some delegate =>
      have hset : s.set property value = { s with
          stored := s.stored.setProperty property value
          last := Function.update s.last property value } := by
        unfold Element.set State.handleSetProperty
        rw [hdelegate]
        rfl
      rw [hset, get_of_delegate (s := s) (by simp [hdelegate]), ← getProperty_setProperty]
      exact get_of_delegate (by simp [hdelegate])
  | none =>
      have hset : s.set property value = { s with
          sink := s.sink.enqueue property value
          last := Function.update s.last property value } := by
        unfold Element.set State.handleSetProperty
        rw [hdelegate]
        rfl
      funext other
      rw [hset, get_of_not_delegate (by simpa [State.enqueue] using hdelegate)]
      by_cases hother : other = property
      · subst hother
        simp [State.enqueue]
      · rw [Function.update_of_ne hother, get_of_not_delegate hdelegate]
        simp [State.enqueue, hother]

theorem get_nullToReady (s : Element) (result : Bool) (property : StoredProperty) :
    (s.nullToReady result).get property =
      (s.sink.queuedProperties.lookup property).getD property.default := by
  have hget : (s.nullToReady result).get = (s.nullToReady result).stored.getProperty :=
    get_of_delegate (by simp [Element.nullToReady, State.initialiseDelegate])
  rw [hget]
  apply (getProperty_receive {} s.sink.queuedProperties.nodupKeys property).trans
  rw [getProperty_default]
  rfl

/-! ## One step -/

theorem initialised_of_step {s t : Element} {e : ElementEvent} (h : Initialised s)
    (hstep : s.step e = some t) : Initialised t := by
  cases e with
  | set property value =>
      cases hstep
      unfold Element.set State.handleSetProperty
      cases hdelegate : s.sink.delegate with
      | some delegate => exact ⟨h.drained, h.ready⟩
      | none =>
          refine ⟨fun hsome ↦ absurd hdelegate hsome, fun hready ↦ ?_⟩
          exact absurd hdelegate (h.ready hready)
  | nullToReady result =>
      simp only [Element.step] at hstep
      split at hstep <;> cases hstep
      exact ⟨fun _ ↦ rfl, fun _ ↦ Option.some_ne_none _⟩
  | readyToNull =>
      simp only [Element.step] at hstep
      split at hstep <;> cases hstep
      exact ⟨fun hnone ↦ absurd rfl hnone, fun hready ↦ absurd hready Bool.false_ne_true⟩

/-- Where every property reads as its default, the registers hold exactly if the
delegate before had the defaults. -/
theorem registers_iff_of_default {s t : Element} (h : Registers s)
    (hdelegate : s.sink.delegate ≠ none) (hlast : t.last = s.last)
    (hget : ∀ property, t.get property = property.default) :
    Registers t ↔ ∀ property, s.stored.getProperty property = property.default := by
  unfold Registers at h ⊢
  rw [get_of_delegate hdelegate] at h
  constructor
  · intro ht property
    rw [h, ← hlast, ← ht, hget]
  · intro hdefault property
    rw [hget, hlast, ← h, hdefault]

theorem registers_iff_of_step {s t : Element} {e : ElementEvent} (hinit : Initialised s)
    (h : Registers s) (hstep : s.step e = some t) : Registers t ↔ DropsDefaults s e := by
  cases e with
  | set property value =>
      cases hstep
      refine iff_of_true (fun other ↦ ?_) trivial
      rw [get_set]
      change _ = (Function.update s.last property (some value) other).getD other.default
      by_cases hother : other = property
      · subst hother
        rw [Function.update_self, Function.update_self, Option.getD_some]
      · rw [Function.update_of_ne hother, Function.update_of_ne hother]
        exact h other
  | nullToReady result =>
      simp only [Element.step] at hstep
      split at hstep <;> cases hstep
      by_cases hdelegate : s.sink.delegate = none
      · refine iff_of_true (fun property ↦ ?_) fun hsome ↦ absurd hdelegate hsome
        rw [get_nullToReady, ← get_of_not_delegate hdelegate]
        exact h property
      · have hget : ∀ property, (s.nullToReady result).get property = property.default := by
          intro property
          rw [get_nullToReady, hinit.drained hdelegate, AList.lookup_empty, Option.getD_none]
        apply (registers_iff_of_default (t := s.nullToReady result) h hdelegate rfl hget).trans
        exact ⟨fun hdefault _ ↦ hdefault, fun hdrops ↦ hdrops hdelegate⟩
  | readyToNull =>
      simp only [Element.step] at hstep
      split at hstep <;> cases hstep
      next hready =>
        have hdelegate := hinit.ready hready
        have hget : ∀ property, s.readyToNull.get property = property.default := by
          intro property
          rw [get_of_not_delegate rfl]
          change (s.sink.queuedProperties.lookup property).getD _ = _
          rw [hinit.drained hdelegate, AList.lookup_empty, Option.getD_none]
        exact registers_iff_of_default h hdelegate rfl hget

/-! ## Runs -/

theorem registers_start : Registers {} := by
  intro property
  rw [get_of_not_delegate rfl]
  rfl

/-- The properties are registers throughout a run exactly if only delegates with
default properties are dropped or replaced. -/
theorem always_registers_iff {es : List ElementEvent} {t : Element}
    (hrun : element.run {} es = some t) :
    element.Always Registers {} es ↔ element.Meets DropsDefaults {} es := by
  refine element.always_iff_meets (J := Initialised)
    (fun s e u hinit _ _ hstep ↦ initialised_of_step hinit hstep)
    (fun s e u hinit h hstep ↦ registers_iff_of_step hinit h hstep) ?_ registers_start hrun
  exact ⟨fun hnone ↦ absurd rfl hnone, fun hready ↦ absurd hready Bool.false_ne_true⟩

/-- The number of streams is set, and the sink goes to READY and back. -/
def streamsThenCycle : List ElementEvent :=
  [.set .numberOfStreams (2 : Int), .nullToReady true, .readyToNull]

theorem streamsThenCycle_run : ∃ s, element.run {} streamsThenCycle = some s ∧
    s.get .numberOfStreams = (1 : Int) ∧ s.last .numberOfStreams = some (2 : Int) :=
  ⟨_, rfl, rfl, rfl⟩

theorem always_registers_iff_streamsThenCycle :
    ¬element.Meets DropsDefaults {} streamsThenCycle := by
  intro hmeets
  obtain ⟨s, hs, hget, hlast⟩ := streamsThenCycle_run
  have h := ((always_registers_iff hs).mpr hmeets).last element hs .numberOfStreams
  rw [hget, hlast] at h
  have heq : (1 : Int) = 2 := h
  exact absurd heq (by decide)

theorem lost_setting_reachable : ¬∀ (es : List ElementEvent) (s : Element),
    element.run {} es = some s → Registers s := by
  intro h
  obtain ⟨s, hs, hget, hlast⟩ := streamsThenCycle_run
  have hread := h streamsThenCycle s hs .numberOfStreams
  rw [hget, hlast] at hread
  have heq : (1 : Int) = 2 := hread
  exact absurd heq (by decide)

end RialtoGStreamer.Sink
