import RialtoGStreamer.PullMode.Conservation

/-!
# The handling of one pull request

`PullBufferMessage::handle` with what it did so far: the samples it obtained and
what became of them, the samples that it popped, what it posted. The streaming
thread and the flushes go on in between.
-/

namespace RialtoGStreamer.PullMode

open Library NeedData

/-- What became of a sample that an iteration obtained. -/
inductive Attempt where
  | unmapped
  | unparsed
  | added (status : AddSegmentStatus)
  deriving DecidableEq

/-- `drained` says that `isEos` found the queue empty with `m_isEos` set,
`notified` counts the calls of `notifyDataPushed`, and `steps` those of the
puller. `covered` says that `m_isServerFlushOngoing` was set all the time. -/
structure Handling where
  frameCount : ℕ
  attempts : List (ℕ × Attempt) := []
  left : List ℕ := []
  drained : Bool := false
  posted : List MediaSourceStatus := []
  notified : ℕ := 0
  steps : ℕ := 0
  covered : Bool
  deriving DecidableEq

/-- The steps of the puller. -/
def Event.isPulling : Event → Bool
  | .pullBuffer _ | .isReadyToSendData | .getFrontSample | .isEos | .map _ | .parseBuffer _
  | .addSegment _ | .popSample | .postHaveData => true
  | .handleBuffer _ | .wake _ | .startFlushing | .flushServer | .stopFlushing
  | .handleFlushCompleted | .setEos | .setSegment | .readyToPaused | .pausedToReady => false

/-- The steps of the loop but `isEos` and `popSample`. -/
def Event.asks : Event → Bool
  | .isReadyToSendData | .getFrontSample | .map _ | .parseBuffer _ | .addSegment _ => true
  | _ => false

/-- The steps that may empty the queue. -/
def Event.clears : Event → Bool
  | .startFlushing | .pausedToReady => true
  | _ => false

/-- `handle` notifies the synchronizer of data with these statuses. -/
def notifiesData : MediaSourceStatus → Bool
  | .ok | .eos => true
  | .error | .noAvailableSamples => false

namespace PullerPc

/-- The sample whose fate an event decides. -/
def attempt : PullerPc → Event → Option (ℕ × Attempt)
  | .map _ k, .map false => some (k, .unmapped)
  | .parse _ k, .parseBuffer false => some (k, .unparsed)
  | .add _ k, .addSegment status => some (k, .added status)
  | _, _ => none

def posts : PullerPc → Event → Option MediaSourceStatus
  | .done p, .postHaveData => some p.status
  | _, _ => none

end PullerPc

/-- The sample that `popSample` pops. -/
def State.leaves (s : State) : Event → Option ℕ
  | .popSample => s.samples.head?
  | _ => none

def State.drains (s : State) : Event → Bool
  | .isEos => s.isEosReached
  | _ => false

/-- The handling after a step of the delegate from `s` to `t`. -/
def Handling.record (h : Handling) (s : State) (e : Event) (t : State) : Handling :=
  { h with
    attempts := h.attempts ++ (s.puller.attempt e).toList
    left := h.left ++ (s.leaves e).toList
    drained := h.drained || s.drains e
    posted := h.posted ++ (s.puller.posts e).toList
    notified := h.notified + (s.puller.posts e).toList.countP notifiesData
    steps := h.steps + if e.isPulling then 1 else 0
    covered := h.covered && t.isServerFlushOngoing }

/-- One delegate, the handling in progress and those that are over. -/
structure Accounts where
  delegate : State := {}
  current : Option Handling := none
  finished : List Handling := []
  deriving DecidableEq

namespace Accounts

/-- A `pullBuffer` begins a handling, `postHaveData` ends it. -/
def enter (s : Accounts) (e : Event) (delegate : State) : Accounts :=
  match e, s.current with
  | .pullBuffer frameCount, _ =>
      { s with
        delegate
        current := some { frameCount, covered := s.delegate.isServerFlushOngoing } }
  | .postHaveData, some h =>
      { delegate, current := none, finished := s.finished ++ [h.record s.delegate e delegate] }
  | _, some h => { s with delegate, current := some (h.record s.delegate e delegate) }
  | _, none => { s with delegate }

def step (s : Accounts) (e : Event) : Option Accounts :=
  (s.delegate.step e).map (s.enter e)

end Accounts

def accounts : Machine Accounts Event where
  step := Accounts.step

theorem delegate_enter (s : Accounts) (e : Event) (t : State) : (s.enter e t).delegate = t := by
  unfold Accounts.enter
  split <;> rfl

theorem accounts_records : accounts.Records machine Accounts.delegate := by
  intro s e
  change ((s.delegate.step e).map (s.enter e)).map _ = s.delegate.step e
  rw [Option.map_map]
  exact (congrArg (Option.map · _) (funext (delegate_enter s e))).trans Option.map_id'

/-! ## The steps of the delegate -/

/-- The samples that a step of another thread queues or clears. -/
inductive Supply (s : State) (e : Event) (t : State) : Prop
  | same (hsamples : t.samples = s.samples) (harrived : t.arrived = s.arrived)
  | queue (hsamples : t.samples = s.samples ++ [s.arrived]) (harrived : t.arrived = s.arrived + 1)
  | clear (he : e.clears = true) (hsamples : t.samples = []) (harrived : t.arrived = s.arrived)

/-- A step of another thread, or one of the puller. -/
inductive Turn (s : State) (e : Event) (t : State) : Prop
  | other (he : e.isPulling = false) (hpuller : t.puller = s.puller) (hsupply : Supply s e t)
  | pull (hmove : PullMove s e t)

theorem supply_queueBuffer (s : State) (e : Event) (waiting created : Bool) :
    Supply s e ({ s with waiting := waiting }.queueBuffer created).2 ∧
      ({ s with waiting := waiting }.queueBuffer created).2.puller = s.puller := by
  unfold State.queueBuffer
  split
  · exact ⟨.same rfl rfl, rfl⟩
  · split
    · exact ⟨.queue rfl rfl, rfl⟩
    · exact ⟨.same rfl rfl, rfl⟩

theorem turn_of_step {s t : State} {e : Event} (h : s.step e = some t) : Turn s e t := by
  cases step_move h with
  | queue _ waiting created he =>
      obtain ⟨hsupply, hpuller⟩ := supply_queueBuffer s e waiting created
      refine .other ?_ hpuller hsupply
      rcases he with rfl | rfl <;> rfl
  | startFlushing =>
      unfold State.startFlushing
      split
      · exact .other rfl rfl (.same rfl rfl)
      · exact .other rfl rfl (.clear rfl rfl rfl)
  | pausedToReady => exact .other rfl rfl (.clear rfl rfl rfl)
  | wait | flushServer | stopFlushing | handleFlushCompleted | setEos | setSegment
  | readyToPaused => exact .other rfl rfl (.same rfl rfl)
  | pull hmove => exact .pull hmove

/-! ## The handling in a step -/

/-- The steps of the other threads leave no mark on the handling. -/
theorem record_of_other {h : Handling} {s t : State} {e : Event} (he : e.isPulling = false) :
    h.record s e t = { h with covered := h.covered && t.isServerFlushOngoing } := by
  have hattempt : s.puller.attempt e = none := by
    cases s.puller <;> cases e <;> first | rfl | cases he
  have hposts : s.puller.posts e = none := by
    cases s.puller <;> cases e <;> first | rfl | cases he
  have hleaves : s.leaves e = none := by
    cases e <;> first | rfl | cases he
  have hdrains : s.drains e = false := by
    cases e <;> first | rfl | cases he
  simp [Handling.record, hattempt, hposts, hleaves, hdrains, he]

theorem enter_of_other {s : Accounts} {e : Event} (t : State) (he : e.isPulling = false) :
    s.enter e t = { s with
      delegate := t
      current := s.current.map fun h ↦
        { h with covered := h.covered && t.isServerFlushOngoing } } := by
  cases hcurrent : s.current with
  | none =>
      unfold Accounts.enter
      rw [hcurrent]
      cases e <;> first | rfl | cases he
  | some h =>
      have hrecord := record_of_other (h := h) (s := s.delegate) (t := t) he
      unfold Accounts.enter
      rw [hcurrent]
      cases e <;>
        first
        | exact congrArg (Accounts.mk t · s.finished) (congrArg some hrecord)
        | cases he

theorem enter_of_pulling {s : Accounts} {h : Handling} {e : Event} (t : State)
    (hcurrent : s.current = some h) (hbegin : ∀ frameCount, e ≠ .pullBuffer frameCount)
    (hpost : e ≠ .postHaveData) :
    s.enter e t = { s with delegate := t, current := some (h.record s.delegate e t) } := by
  unfold Accounts.enter
  rw [hcurrent]
  split
  · exact absurd rfl (hbegin _)
  · exact absurd rfl hpost
  · next hsome =>
      cases hsome
      rfl
  · next hnone => cases hnone

/-- In the steps of the loop but `isEos` and `popSample` only the fate of a
sample is recorded. -/
theorem record_of_asks {h : Handling} {s t : State} {e : Event} (he : e.asks = true) :
    h.record s e t = { h with
      attempts := h.attempts ++ (s.puller.attempt e).toList
      steps := h.steps + 1, covered := h.covered && t.isServerFlushOngoing } := by
  have hposts : s.puller.posts e = none := by
    cases s.puller <;> cases e <;> first | rfl | cases he
  have hleaves : s.leaves e = none := by
    cases e <;> first | rfl | cases he
  have hdrains : s.drains e = false := by
    cases e <;> first | rfl | cases he
  have hpulling : e.isPulling = true := by
    cases e <;> first | rfl | cases he
  simp [Handling.record, hposts, hleaves, hdrains, hpulling]

theorem enter_of_asks {s : Accounts} {h : Handling} {e : Event} (t : State)
    (he : e.asks = true) (hcurrent : s.current = some h) :
    s.enter e t = { s with
      delegate := t
      current := some { h with
        attempts := h.attempts ++ (s.delegate.puller.attempt e).toList
        steps := h.steps + 1, covered := h.covered && t.isServerFlushOngoing } } := by
  rw [← record_of_asks he]
  apply enter_of_pulling t hcurrent
  · rintro _ rfl
    cases he
  · rintro rfl
    cases he

theorem enter_of_post {s : Accounts} {h : Handling} (t : State) (hcurrent : s.current = some h) :
    s.enter .postHaveData t =
      { delegate := t, current := none
        finished := s.finished ++ [h.record s.delegate .postHaveData t] } := by
  unfold Accounts.enter
  rw [hcurrent]

theorem record_of_isEos {h : Handling} {s t : State} {p : Pull} (hpc : s.puller = .eos p) :
    h.record s .isEos t = { h with
      drained := h.drained || s.isEosReached, steps := h.steps + 1
      covered := h.covered && t.isServerFlushOngoing } := by
  simp [Handling.record, PullerPc.attempt, PullerPc.posts, State.leaves, State.drains,
    Event.isPulling, hpc]

/-- The first answer. -/
theorem record_of_post {h : Handling} {s t : State} {p : Pull} (hposted : h.posted = [])
    (hpc : s.puller = .done p) :
    h.record s .postHaveData t = { h with
      posted := [p.status], notified := h.notified + [p.status].countP notifiesData
      steps := h.steps + 1, covered := h.covered && t.isServerFlushOngoing } := by
  simp [Handling.record, PullerPc.attempt, PullerPc.posts, State.leaves, State.drains,
    Event.isPulling, hposted, hpc]

/-- A run behind which one handling is over. -/
theorem exists_mem_finished {M : Machine Accounts Event} {es : List Event} {h : Handling}
    (hfinished : (M.run {} es).map (·.finished) = some [h]) :
    ∃ s, M.run {} es = some s ∧ h ∈ s.finished := by
  obtain ⟨s, hrun, hs⟩ := Option.map_eq_some_iff.mp hfinished
  refine ⟨s, hrun, ?_⟩
  rw [hs]
  exact List.mem_singleton_self h

end RialtoGStreamer.PullMode
