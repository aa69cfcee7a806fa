import RialtoGStreamer.WebAudio.Model

/-!
# What one step of the web-audio client can do

The inversion of an iteration of the push loop and of a whole step, and the frame
of the operations between two players: of the members that `open` and `close`
write they touch none.
-/

namespace RialtoGStreamer.WebAudio

open Library

variable {β : Type*}

/-- The three ways through an iteration. -/
inductive IterateMove (s : State β) (mapped written : Bool) : Option UInt32 → State β → Prop
  | refused (hqueue : s.dataBuffers ≠ []) :
      IterateMove s mapped written none { s with
        dataBuffers := [], dropped := s.dropped ++ s.dataBuffers.flatten, worker := .pushed }
  | full (hqueue : s.dataBuffers ≠ []) :
      IterateMove s mapped written (some 0) { s with worker := .pushed }
  | granted (availableFrames : UInt32) (buffer : List β) (rest : List (List β))
      (hframes : availableFrames ≠ 0) (hsize : s.frameSize ≠ 0)
      (hqueue : s.dataBuffers = buffer :: rest) :
      IterateMove s mapped written (some availableFrames)
        (s.process availableFrames buffer rest mapped written).loop

inductive Move (s : State β) : Event β → State β → Prop
  | open (mimeType : String) (pcm : PcmConfig) (created : Bool) (hworker : s.worker = .idle) :
      Move s (.open mimeType pcm created) (s.openWith mimeType pcm created)
  | close (hworker : s.worker = .idle) : Move s .close s.close
  | notifyNewSample (buf : List β) (hworker : s.worker = .idle)
      (hroom : s.dataBuffers.length < maxQueueSize) :
      Move s (.notifyNewSample buf) (s.notifyNewSample buf)
  | setEos (hworker : s.worker = .idle) : Move s .setEos s.setEos
  | timerExpired (htimer : s.timer = true) :
      Move s .timerExpired { s with timer := false, scheduled := s.scheduled + 1 }
  | notifyPushSamplesTimerExpired (hworker : s.worker = .idle) (hdue : 0 < s.scheduled) :
      Move s .notifyPushSamplesTimerExpired
        { s with scheduled := s.scheduled - 1 }.pushSamples
  | iterate (available : Option UInt32) (mapped written : Bool) {t : State β}
      (hworker : s.worker = .pushing) (hmove : IterateMove s mapped written available t) :
      Move s (.iterate available mapped written) t
  | finishPush (hworker : s.worker = .pushed) : Move s .finishPush s.finishPush
  | notifyEndOfStream : Move s .notifyEndOfStream { s with isEos := false }

/-! ## Inversions -/

theorem iterate_move {s t : State β} {available : Option UInt32} {mapped written : Bool}
    (h : s.iterate available mapped written = some t) :
    s.worker = .pushing ∧ IterateMove s mapped written available t := by
  unfold State.iterate at h
  split at h
  · next buffer rest hworker hqueue =>
      refine ⟨hworker, ?_⟩
      split at h
      · cases h
        exact .refused (by simp [hqueue])
      · next availableFrames =>
          split at h
          · next hzero =>
              cases h
              subst hzero
              exact .full (by simp [hqueue])
          · next hframes =>
              split at h
              · cases h
              · next hsize =>
                  cases h
                  exact .granted availableFrames buffer rest hframes hsize hqueue
  · cases h

theorem step_move {s t : State β} {e : Event β} (h : s.step e = some t) : Move s e t := by
  cases e with
  | «open» mimeType pcm created =>
      simp only [State.step] at h
      split at h <;> cases h
      exact .open mimeType pcm created ‹_›
  | close =>
      simp only [State.step] at h
      split at h <;> cases h
      exact .close ‹_›
  | notifyNewSample buf =>
      simp only [State.step] at h
      split at h <;> cases h
      next hwait => exact .notifyNewSample buf hwait.1 hwait.2
  | setEos =>
      simp only [State.step] at h
      split at h <;> cases h
      exact .setEos ‹_›
  | timerExpired =>
      simp only [State.step] at h
      split at h <;> cases h
      exact .timerExpired ‹_›
  | notifyPushSamplesTimerExpired =>
      simp only [State.step] at h
      split at h <;> cases h
      next hdue => exact .notifyPushSamplesTimerExpired hdue.1 hdue.2
  | iterate available mapped written =>
      obtain ⟨hworker, hmove⟩ := iterate_move h
      exact .iterate available mapped written hworker hmove
  | finishPush =>
      simp only [State.step] at h
      split at h <;> cases h
      exact .finishPush ‹_›
  | notifyEndOfStream =>
      cases h
      exact .notifyEndOfStream

/-! ## Frames -/

/-- The front buffer is processed in the queue, the history of the writes, and
the dropped bytes. -/
theorem process_frame (s : State β) (availableFrames : UInt32) (buffer : List β)
    (rest : List (List β)) (mapped written : Bool) :
    ∃ writes dataBuffers dropped,
      s.process availableFrames buffer rest mapped written =
        { s with writes := writes, dataBuffers := dataBuffers, dropped := dropped } := by
  unfold State.process
  dsimp only
  split
  · exact ⟨_, _, _, rfl⟩
  · split <;> exact ⟨_, _, _, rfl⟩

theorem loop_worker (s : State β) : s.loop.worker ≠ .idle := by
  unfold State.loop
  dsimp only
  split <;> simp

theorem IterateMove.frame {s t : State β} {available : Option UInt32} {mapped written : Bool}
    (h : IterateMove s mapped written available t) :
    t.worker ≠ .idle ∧ ∃ writes dataBuffers dropped worker,
      t = { s with
        writes := writes, dataBuffers := dataBuffers, dropped := dropped, worker := worker } := by
  cases h with
  | refused | full => exact ⟨by simp, _, _, _, _, rfl⟩
  | granted availableFrames buffer rest =>
      obtain ⟨_, _, _, hprocess⟩ :=
        process_frame s availableFrames buffer rest mapped written
      rw [hprocess]
      exact ⟨loop_worker _, _, _, _, _, rfl⟩

/-- The members that `open` and `close` write. -/
def State.session (s : State β) : Bool × String × PcmConfig × UInt32 :=
  (s.isOpen, s.mimeType, s.config, s.frameSize)

/-- The operations that begin or end the life of a player. -/
def Event.isSession : Event β → Bool
  | .open _ _ _ | .close => true
  | _ => false

theorem session_pushSamples (s : State β) : s.pushSamples.session = s.session := by
  unfold State.pushSamples
  split <;> rfl

theorem session_of_move {s t : State β} {e : Event β} (he : e.isSession = false)
    (h : Move s e t) : t.session = s.session := by
  cases h with
  | «open» | close => cases he
  | notifyNewSample | notifyPushSamplesTimerExpired => exact session_pushSamples _
  | setEos =>
      unfold State.setEos
      split
      · split
        · rfl
        · split
          · rfl
          · exact session_pushSamples _
      · rfl
  | iterate _ _ _ _ hmove =>
      obtain ⟨-, _, _, _, _, rfl⟩ := hmove.frame
      rfl
  | finishPush =>
      unfold State.finishPush
      split
      · split <;> rfl
      · rfl
  | timerExpired | notifyEndOfStream => rfl

end RialtoGStreamer.WebAudio
