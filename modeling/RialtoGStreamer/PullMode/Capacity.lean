import RialtoGStreamer.PullMode.Moves

/-!
# How many samples a pull-mode sink holds

`handleBuffer` waits for space once and does not look again at the queue. Whoever
notifies the condition variable has made room, so the bound on the queue hangs on
the wake-ups that nobody notified.
-/

namespace RialtoGStreamer.PullMode

open Library

/-- The steps that call `m_needDataCondVariable.notify_all()`. -/
def notifies (s : State) : Event → Bool
  | .popSample | .pausedToReady => true
  | .startFlushing => !s.isSinkFlushOngoing
  | _ => false

/-- The delegate, and whether the wait of `handleBuffer` has been notified. -/
structure Watched where
  delegate : State := {}
  notified : Bool := false
  deriving DecidableEq

def Watched.after (w : Watched) (e : Event) (t : State) : Watched where
  delegate := t
  notified := t.waiting && (w.notified || notifies w.delegate e)

def watched : Machine Watched Event where
  step w e := (w.delegate.step e).map (w.after e)

/-- The bound of the queue. -/
def Bounded (s : State) : Prop :=
  s.samples.length ≤ maxInternalBuffersQueueSize

/-- A wait that ends spuriously finds room, or does not queue its buffer. -/
def SpuriousWakeHarmless (w : Watched) : Event → Prop
  | .wake created => w.notified = false →
      w.delegate.samples.length < maxInternalBuffersQueueSize ∨
        w.delegate.isSinkFlushOngoing = true ∨ created = false
  | _ => True

instance (w : Watched) : ∀ e, Decidable (SpuriousWakeHarmless w e)
  | .wake _ => inferInstanceAs (Decidable (_ → _ ∨ _ ∨ _))
  | .handleBuffer _ | .startFlushing | .flushServer | .stopFlushing | .handleFlushCompleted
  | .setEos | .setSegment | .readyToPaused | .pausedToReady | .pullBuffer _ | .isReadyToSendData
  | .getFrontSample | .isEos | .map _ | .parseBuffer _ | .addSegment _ | .popSample
  | .postHaveData => isTrue trivial

/-- Who notifies the wait has made room. -/
def NotifiedRoom (w : Watched) : Prop :=
  w.notified = true → w.delegate.samples.length < maxInternalBuffersQueueSize

/-! ## The queue in one step -/

theorem length_queueBuffer (s : State) (created : Bool) :
    (s.queueBuffer created).2.samples.length =
      if s.isSinkFlushOngoing = false ∧ created = true then s.samples.length + 1
      else s.samples.length := by
  unfold State.queueBuffer
  cases s.isSinkFlushOngoing <;> cases created <;> simp

theorem waiting_queueBuffer (s : State) (created : Bool) :
    (s.queueBuffer created).2.waiting = s.waiting := by
  unfold State.queueBuffer
  cases s.isSinkFlushOngoing <;> cases created <;> rfl

theorem handleBuffer_cases {s t : State} {created : Bool}
    (h : s.step (.handleBuffer created) = some t) :
    s.waiting = false ∧
      ((maxInternalBuffersQueueSize ≤ s.samples.length ∧ t = { s with waiting := true }) ∨
        (s.samples.length < maxInternalBuffersQueueSize ∧ t = (s.queueBuffer created).2)) := by
  simp only [State.step] at h
  split at h
  · cases h
  · next hwaiting =>
      refine ⟨Bool.eq_false_iff.mpr hwaiting, ?_⟩
      split at h
      · next hfull => exact .inl ⟨hfull, (Option.some.inj h).symm⟩
      · next hroom => exact .inr ⟨Nat.lt_of_not_le hroom, (Option.some.inj h).symm⟩

theorem wake_cases {s t : State} {created : Bool} (h : s.step (.wake created) = some t) :
    s.waiting = true ∧ t = ({ s with waiting := false }.queueBuffer created).2 := by
  simp only [State.step] at h
  split at h
  · next hwaiting => exact ⟨hwaiting, (Option.some.inj h).symm⟩
  · cases h

theorem length_popSample (s : State) (obtained : ℕ) (outcome : Outcome) :
    (s.popSample obtained outcome).samples.length = s.samples.length - 1 := by
  unfold State.popSample
  split
  · next hempty => rw [hempty]; rfl
  · next k samples hsamples => rw [hsamples]; rfl

theorem length_startFlushing (s : State) :
    s.startFlushing.samples.length =
      if s.isSinkFlushOngoing then s.samples.length else 0 := by
  unfold State.startFlushing
  split <;> rfl

theorem length_pull {s t : State} {e : Event} (h : PullMove s e t) :
    t.samples.length = if notifies s e then s.samples.length - 1 else s.samples.length := by
  cases h with
  | pop p k outcome hpc => exact length_popSample s k outcome
  | give => rfl
  | begin | ready | leave | obtain | nothing | isEos | map | unmapped | parse | unparsed | noSpace
  | post => rfl

/-- Every step but the two of `handleBuffer` leaves no more samples than there
were, and less than that if it notifies. -/
theorem length_of_step {s t : State} {e : Event} (h : s.step e = some t)
    (hother : ∀ created, e ≠ .handleBuffer created ∧ e ≠ .wake created) :
    t.samples.length ≤ if notifies s e then s.samples.length - 1 else s.samples.length := by
  cases step_move h with
  | wait created => exact absurd rfl (hother created).1
  | queue e waiting created he =>
      rcases he with rfl | rfl
      · exact absurd rfl (hother created).1
      · exact absurd rfl (hother created).2
  | startFlushing =>
      rw [length_startFlushing]
      cases hflush : s.isSinkFlushOngoing <;> simp [notifies, hflush]
  | pausedToReady => exact Nat.zero_le _
  | flushServer | stopFlushing | handleFlushCompleted | setEos | setSegment | readyToPaused =>
      exact Nat.le_refl _
  | pull hmove => exact Nat.le_of_eq (length_pull hmove)

/-! ## The bound in one step -/

theorem bounded_wake_iff {w : Watched} (hroom : NotifiedRoom w) (hbounded : Bounded w.delegate)
    {created : Bool} {t : State} (h : w.delegate.step (.wake created) = some t) :
    Bounded t ↔ SpuriousWakeHarmless w (.wake created) := by
  obtain ⟨-, rfl⟩ := wake_cases h
  unfold Bounded SpuriousWakeHarmless at *
  rw [length_queueBuffer]
  change (if w.delegate.isSinkFlushOngoing = false ∧ created = true then
      w.delegate.samples.length + 1 else w.delegate.samples.length) ≤ _ ↔ _
  cases hnotified : w.notified with
  | true =>
      have hlt := hroom hnotified
      refine iff_of_true ?_ fun hfalse ↦ absurd hfalse (by decide)
      split <;> omega
  | false => cases w.delegate.isSinkFlushOngoing <;> cases created <;> simp <;> omega

theorem bounded_handleBuffer {s t : State} (hbounded : Bounded s) {created : Bool}
    (h : s.step (.handleBuffer created) = some t) : Bounded t := by
  obtain ⟨-, ⟨-, rfl⟩ | ⟨hroom, rfl⟩⟩ := handleBuffer_cases h
  · exact hbounded
  · unfold Bounded
    rw [length_queueBuffer]
    split <;> omega

/-- A wait is not notified when it begins, and is over when it ends. -/
theorem notifiedRoom_handleBuffer {w : Watched} (hroom : NotifiedRoom w) {created : Bool}
    {t : State} (h : w.delegate.step (.handleBuffer created) = some t) :
    NotifiedRoom (w.after (.handleBuffer created) t) := by
  intro hnotified
  obtain ⟨hwaiting, ⟨hfull, rfl⟩ | ⟨-, rfl⟩⟩ := handleBuffer_cases h
  · have hlt := hroom (by simpa [Watched.after, notifies] using hnotified)
    omega
  · simp [Watched.after, waiting_queueBuffer, hwaiting] at hnotified

theorem notifiedRoom_wake {w : Watched} {created : Bool} {t : State}
    (h : w.delegate.step (.wake created) = some t) :
    NotifiedRoom (w.after (.wake created) t) := by
  intro hnotified
  obtain ⟨-, rfl⟩ := wake_cases h
  simp [Watched.after, waiting_queueBuffer] at hnotified

theorem notifiedRoom_other {w : Watched} {e : Event} {t : State} (hroom : NotifiedRoom w)
    (hbounded : Bounded w.delegate)
    (hlength : t.samples.length ≤
      if notifies w.delegate e then w.delegate.samples.length - 1 else w.delegate.samples.length) :
    NotifiedRoom (w.after e t) := by
  intro hnotified
  obtain ⟨-, hnotified⟩ := Bool.and_eq_true_iff.mp hnotified
  change t.samples.length < maxInternalBuffersQueueSize
  unfold Bounded at hbounded
  split at hlength
  · have hpositive : 0 < maxInternalBuffersQueueSize := by decide
    omega
  · next hsilent =>
      have hlt := hroom (by simpa [hsilent] using hnotified)
      omega

theorem watched_step {w u : Watched} {e : Event} (hroom : NotifiedRoom w)
    (hbounded : Bounded w.delegate) (h : watched.step w e = some u) :
    NotifiedRoom u ∧ (Bounded u.delegate ↔ SpuriousWakeHarmless w e) := by
  obtain ⟨t, ht, rfl⟩ := Option.map_eq_some_iff.mp h
  by_cases hother : ∀ created, e ≠ .handleBuffer created ∧ e ≠ .wake created
  · have hlength := length_of_step ht hother
    refine ⟨notifiedRoom_other hroom hbounded hlength, iff_of_true ?_ ?_⟩
    · have hle : t.samples.length ≤ w.delegate.samples.length := by
        split at hlength <;> omega
      exact Nat.le_trans hle hbounded
    · unfold SpuriousWakeHarmless
      split
      · exact absurd rfl (hother _).2
      · trivial
  · cases e with
    | handleBuffer created =>
        have hkept := bounded_handleBuffer hbounded ht
        exact ⟨notifiedRoom_handleBuffer hroom ht, iff_of_true hkept trivial⟩
    | wake created => exact ⟨notifiedRoom_wake ht, bounded_wake_iff hroom hbounded ht⟩
    | _ => exact absurd (by simp) hother

/-! ## Runs -/

theorem watched_records : watched.Records machine Watched.delegate := by
  intro w e
  change ((w.delegate.step e).map (w.after e)).map _ = w.delegate.step e
  rw [Option.map_map]
  exact Option.map_id'

/-- The bound holds throughout a run exactly if every spurious wake-up in it is
harmless. -/
theorem always_bounded_iff {s : State} {es : List Event} (hrun : machine.run {} es = some s) :
    machine.Always Bounded {} es ↔ watched.Meets SpuriousWakeHarmless {} es := by
  have hstart : NotifiedRoom {} := fun h ↦ absurd h (by decide)
  rw [← watched_records.run {}] at hrun
  obtain ⟨u, hu, -⟩ := Option.map_eq_some_iff.mp hrun
  rw [← watched_records.always_iff (s := {})]
  exact watched.always_iff_meets
    (fun w e v hroom hbounded _ hstep ↦ (watched_step hroom hbounded hstep).1)
    (fun w e v hroom hbounded hstep ↦ (watched_step hroom hbounded hstep).2)
    hstart (Nat.zero_le _) hu

/-- The queue is full when another buffer arrives, and the puller takes a sample. -/
def fullThenPulled : List Event :=
  .setSegment :: List.replicate 25 (.handleBuffer true) ++
    [.pullBuffer 1, .isReadyToSendData, .getFrontSample, .map true, .parseBuffer true,
      .addSegment .ok, .popSample, .wake true]

theorem fullThenPulled_run :
    (machine.run {} fullThenPulled).map (·.samples.length) = some 24 := by
  decide +kernel

theorem bounded_fullThenPulled : ∃ s, machine.run {} fullThenPulled = some s ∧
    s.samples.length = 24 ∧ machine.Always Bounded {} fullThenPulled := by
  obtain ⟨s, hrun, hlength⟩ := Option.map_eq_some_iff.mp fullThenPulled_run
  exact ⟨s, hrun, hlength, (always_bounded_iff hrun).mpr (by decide +kernel)⟩

/-- The same buffer after a spurious wake-up. -/
def fullThenSpurious : List Event :=
  List.replicate 25 (.handleBuffer true) ++ [.wake true]

theorem overfull_reachable :
    ¬∀ es s, machine.run {} es = some s → machine.Always Bounded {} es := by
  intro h
  have hrun : (machine.run {} fullThenSpurious).map (·.samples.length) = some 25 := by
    decide +kernel
  obtain ⟨s, hs, hlength⟩ := Option.map_eq_some_iff.mp hrun
  have hbounded : s.samples.length ≤ 24 := (h fullThenSpurious s hs).last machine hs
  omega

end RialtoGStreamer.PullMode
