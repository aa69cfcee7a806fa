import RialtoGStreamer.WebAudio.Moves

/-!
# Queued samples and the next push

Between two messages nothing but the push timer, or an expiration of it that is
still in the backend queue, brings queued samples to the player. Without either
a producer that waits for room in the queue waits forever.
-/

namespace RialtoGStreamer.WebAudio

open Library

variable {β : Type*}

/-- When the event loop is at rest over queued samples, the player is open and a
push is to come. -/
def Scheduled (s : State β) : Prop :=
  s.worker = .idle → s.dataBuffers ≠ [] → s.isOpen = true ∧ (s.timer = true ∨ 0 < s.scheduled)

/-- The events that bring about the next push. -/
def Event.isTimer : Event β → Bool
  | .timerExpired | .notifyPushSamplesTimerExpired => true
  | _ => false

/-- No stall: the next push is scheduled, and with the queue full at rest the
timer alone leads to it. -/
structure Drainable (s : State β) : Prop where
  scheduled : Scheduled s
  wakes : s.worker = .idle → maxQueueSize ≤ s.dataBuffers.length →
    ∃ es t, (∀ e ∈ es, e.isTimer = true) ∧ (machine β).run s es = some t ∧ t.worker = .pushing

/-- Samples arrive while the player is open, and a player is closed or replaced
by none only over an empty queue. -/
def InSession (s : State β) : Event β → Prop
  | .notifyNewSample _ => s.isOpen = true
  | .close => s.dataBuffers = []
  | .open mimeType pcm created =>
      (!s.isOpen || s.isNewConfig mimeType pcm) = true → created = false → s.dataBuffers = []
  | _ => True

/-- Nothing is pushed without a player. -/
def PushesOpen (s : State β) : Prop :=
  s.worker ≠ .idle → s.isOpen = true

/-! ## The beginning and the end of a push -/

theorem pushSamples_of_open {s : State β} (hopen : s.isOpen = true) (hqueue : s.dataBuffers ≠ []) :
    s.pushSamples = { s with worker := .pushing } := by
  simp [State.pushSamples, hopen, hqueue]

theorem pushesOpen_pushSamples {s : State β} (h : PushesOpen s) : PushesOpen s.pushSamples := by
  unfold State.pushSamples
  split
  · exact h
  · next hskip =>
      intro _
      simp only [Bool.or_eq_true, Bool.not_eq_true', not_or] at hskip
      simpa using hskip.1

/-- A push that starts over queued samples leaves the rest. -/
theorem scheduled_pushSamples {s : State β} (hopen : s.dataBuffers ≠ [] → s.isOpen = true) :
    Scheduled s.pushSamples := by
  intro hworker hqueue
  have hsame : s.pushSamples.dataBuffers = s.dataBuffers := by
    unfold State.pushSamples
    split <;> rfl
  rw [hsame] at hqueue
  rw [pushSamples_of_open (hopen hqueue) hqueue] at hworker
  cases hworker

theorem drain_of_finishPush {s : State β} (h : PushesOpen s) (hworker : s.worker = .pushed) :
    s.finishPush.worker = .idle ∧ Scheduled s.finishPush := by
  have hopen : s.isOpen = true := h (by simp [hworker])
  unfold State.finishPush
  split
  · next hempty =>
      rw [List.isEmpty_iff] at hempty
      split <;> exact ⟨rfl, fun _ hqueue ↦ absurd hempty hqueue⟩
  · exact ⟨rfl, fun _ _ ↦ ⟨hopen, .inl rfl⟩⟩

/-! ## One step -/

theorem drain_of_open {s : State β} (h : Scheduled s) (hworker : s.worker = .idle)
    (mimeType : String) (pcm : PcmConfig) (created : Bool) :
    PushesOpen (s.openWith mimeType pcm created) ∧
      (Scheduled (s.openWith mimeType pcm created) ↔
        InSession s (.open mimeType pcm created)) := by
  unfold State.openWith InSession
  by_cases hnew : (!s.isOpen || s.isNewConfig mimeType pcm) = true
  · rw [if_pos hnew]
    cases created with
    | true =>
        refine ⟨fun _ ↦ rfl, iff_of_true (fun _ hqueue ↦ ⟨rfl, ?_⟩) (by simp)⟩
        exact (h hworker hqueue).2
    | false =>
        refine ⟨fun hbusy ↦ absurd hworker hbusy, fun hnone _ _ ↦ ?_, fun hempty _ hqueue ↦ ?_⟩
        · by_contra hqueue
          exact absurd (hnone hworker hqueue).1 Bool.false_ne_true
        · exact absurd (hempty hnew rfl) hqueue
  · rw [if_neg hnew]
    exact ⟨fun hbusy ↦ absurd hworker hbusy, iff_of_true h fun hyes ↦ absurd hyes hnew⟩

theorem drain_of_close {s : State β} (hworker : s.worker = .idle) :
    PushesOpen s.close ∧ (Scheduled s.close ↔ InSession s .close) := by
  refine ⟨fun hbusy ↦ absurd hworker hbusy, fun hnone ↦ ?_, fun hempty _ hqueue ↦ ?_⟩
  · by_contra hqueue
    exact absurd (hnone hworker hqueue).1 Bool.false_ne_true
  · exact absurd hempty hqueue

theorem drain_of_notifyNewSample {s : State β} (hpush : PushesOpen s) (hworker : s.worker = .idle)
    (buf : List β) : PushesOpen (s.notifyNewSample buf) ∧
      (Scheduled (s.notifyNewSample buf) ↔ InSession s (.notifyNewSample buf)) := by
  refine ⟨pushesOpen_pushSamples hpush, fun h ↦ ?_, fun hopen ↦ scheduled_pushSamples fun _ ↦ hopen⟩
  -- A closed player leaves the sample in the queue.
  by_contra hclosed
  have hskip : s.notifyNewSample buf =
      { s with
        timer := false, dataBuffers := s.dataBuffers ++ [buf]
        accepted := s.accepted ++ buf, ended := false } := by
    unfold State.notifyNewSample State.pushSamples
    have hfalse : s.isOpen = false := Bool.not_eq_true _ ▸ hclosed
    rw [if_pos (by simp [hfalse])]
  rw [hskip] at h
  exact hclosed (h hworker (by simp)).1

theorem drain_of_setEos {s : State β} (hpush : PushesOpen s) (h : Scheduled s) :
    PushesOpen s.setEos ∧ Scheduled s.setEos := by
  unfold State.setEos
  split
  · next hopen =>
      split
      · exact ⟨hpush, h⟩
      · split
        · exact ⟨hpush, h⟩
        · exact ⟨pushesOpen_pushSamples fun _ ↦ hopen, scheduled_pushSamples fun _ ↦ hopen⟩
  · exact ⟨hpush, h⟩

theorem drain_of_step {s t : State β} {e : Event β} (hpush : PushesOpen s) (h : Scheduled s)
    (hstep : s.step e = some t) : PushesOpen t ∧ (Scheduled t ↔ InSession s e) := by
  cases step_move hstep with
  | «open» mimeType pcm created hworker => exact drain_of_open h hworker mimeType pcm created
  | close hworker => exact drain_of_close hworker
  | notifyNewSample buf hworker => exact drain_of_notifyNewSample hpush hworker buf
  | setEos =>
      obtain ⟨hpush', h'⟩ := drain_of_setEos hpush h
      exact ⟨hpush', iff_of_true h' trivial⟩
  | timerExpired =>
      refine ⟨hpush, iff_of_true (fun hworker hqueue ↦ ?_) trivial⟩
      exact ⟨(h hworker hqueue).1, .inr (Nat.succ_pos _)⟩
  | notifyPushSamplesTimerExpired hworker =>
      refine ⟨pushesOpen_pushSamples hpush, iff_of_true (scheduled_pushSamples ?_) trivial⟩
      exact fun hqueue ↦ (h hworker hqueue).1
  | iterate available mapped written hworker hmove =>
      obtain ⟨hbusy, _, _, _, _, rfl⟩ := hmove.frame
      exact ⟨fun _ ↦ hpush (by simp [hworker]),
        iff_of_true (fun hidle ↦ absurd hidle hbusy) trivial⟩
  | finishPush hworker =>
      obtain ⟨hidle, h'⟩ := drain_of_finishPush hpush hworker
      exact ⟨fun hbusy ↦ absurd hidle hbusy, iff_of_true h' trivial⟩
  | notifyEndOfStream => exact ⟨hpush, iff_of_true h trivial⟩

/-! ## Runs -/

theorem step_notifyPushSamplesTimerExpired {s : State β} (hworker : s.worker = .idle)
    (hopen : s.isOpen = true) (hqueue : s.dataBuffers ≠ []) (hdue : 0 < s.scheduled) :
    s.step .notifyPushSamplesTimerExpired =
      some { s with scheduled := s.scheduled - 1, worker := .pushing } := by
  simp only [State.step]
  rw [if_pos ⟨hworker, hdue⟩]
  exact congrArg some (pushSamples_of_open hopen hqueue)

/-- A scheduled push starts: the timer expires, unless it did, and the expiration
is handled. -/
theorem wakes_of_scheduled {s : State β} (h : Scheduled s) (hworker : s.worker = .idle)
    (hqueue : s.dataBuffers ≠ []) :
    ∃ es t, (∀ e ∈ es, e.isTimer = true) ∧ (machine β).run s es = some t ∧
      t.worker = .pushing := by
  obtain ⟨hopen, htimer | hdue⟩ := h hworker hqueue
  · have hlast := step_notifyPushSamplesTimerExpired
      (s := { s with timer := false, scheduled := s.scheduled + 1 }) hworker hopen hqueue
      (Nat.succ_pos _)
    refine ⟨[.timerExpired, .notifyPushSamplesTimerExpired], { s with
      timer := false, scheduled := s.scheduled + 1 - 1, worker := .pushing },
      by simp [Event.isTimer], ?_, rfl⟩
    refine (machine β).run_cons_eq_some_iff.mpr ⟨_, if_pos htimer, ?_⟩
    exact (machine β).run_cons_eq_some_iff.mpr ⟨_, hlast, rfl⟩
  · have hlast := step_notifyPushSamplesTimerExpired hworker hopen hqueue hdue
    refine ⟨[.notifyPushSamplesTimerExpired],
      { s with scheduled := s.scheduled - 1, worker := .pushing }, by simp [Event.isTimer], ?_, rfl⟩
    exact (machine β).run_cons_eq_some_iff.mpr ⟨_, hlast, rfl⟩

theorem drainable_iff_scheduled {s : State β} : Drainable s ↔ Scheduled s := by
  refine ⟨fun h ↦ h.scheduled, fun h ↦ ⟨h, fun hworker hfull ↦ ?_⟩⟩
  apply wakes_of_scheduled h hworker
  rintro hempty
  simp [hempty, maxQueueSize] at hfull

/-- The queue never stalls exactly if samples are queued only for an open player. -/
theorem always_drainable_iff {es : List (Event β)} {t : State β}
    (hrun : (machine β).run {} es = some t) :
    (machine β).Always Drainable {} es ↔ (machine β).Meets InSession {} es := by
  refine (machine β).always_iff_meets (J := PushesOpen) (fun s e u hpush h _ hstep ↦ ?_)
    (fun s e u hpush h hstep ↦ ?_) ?_ ?_ hrun
  · exact (drain_of_step hpush h.scheduled hstep).1
  · rw [drainable_iff_scheduled]
    exact (drain_of_step hpush h.scheduled hstep).2
  · exact fun hbusy ↦ absurd rfl hbusy
  · exact drainable_iff_scheduled.mpr fun _ hqueue ↦ absurd rfl hqueue

/-- The server has no room for the only sample when the player is closed. -/
def closedEarly : List (Event ℕ) :=
  [.open "audio/x-raw" { channels := 2, sampleSize := 16 } true,
    .notifyNewSample [0, 1, 2, 3], .iterate (some 0) true true, .finishPush, .close]

theorem closedEarly_run : ∃ s, (machine ℕ).run {} closedEarly = some s ∧ s.worker = .idle ∧
    s.dataBuffers = [[0, 1, 2, 3]] ∧ s.isOpen = false :=
  ⟨_, rfl, rfl, rfl, rfl⟩

theorem always_drainable_iff_closedEarly : ¬(machine ℕ).Meets InSession {} closedEarly := by
  intro hmeets
  obtain ⟨s, hs, hworker, hqueue, hclosed⟩ := closedEarly_run
  have h := ((always_drainable_iff hs).mpr hmeets).last (machine ℕ) hs
  have hopen := (h.scheduled hworker (by simp [hqueue])).1
  rw [hclosed] at hopen
  cases hopen

theorem stall_reachable : ¬∀ (es : List (Event ℕ)) (s : State ℕ),
    (machine ℕ).run {} es = some s → Drainable s := by
  intro h
  obtain ⟨s, hs, hworker, hqueue, hclosed⟩ := closedEarly_run
  have hopen := ((h closedEarly s hs).scheduled hworker (by simp [hqueue])).1
  rw [hclosed] at hopen
  cases hopen

end RialtoGStreamer.WebAudio
