import RialtoGStreamer.PullMode.Model

/-!
# What one step of the delegate can do

The inversions of a step of the puller, and of a step of any thread. The
properties of the delegate are derived from these and do not unfold the step.
-/

namespace RialtoGStreamer.PullMode

open Library NeedData

/-- A step of the puller from where it is. -/
inductive PullMove (s : State) : Event → State → Prop
  | begin (frameCount : ℕ) (hpc : s.puller = .idle) :
      PullMove s (.pullBuffer frameCount) { s with puller := .loop { frameCount } }
  | ready (p : Pull) (hpc : s.puller = .loop p) (hframe : p.frame < p.frameCount)
      (hready : s.isReadyToSendData = true) :
      PullMove s .isReadyToSendData { s with puller := .front p }
  | leave (p : Pull) (hpc : s.puller = .loop p)
      (hleave : ¬(p.frame < p.frameCount ∧ s.isReadyToSendData = true)) :
      PullMove s .isReadyToSendData { s with puller := .done p }
  | obtain (p : Pull) (k : ℕ) (hpc : s.puller = .front p)
      (hserver : s.isServerFlushOngoing = false) (hk : s.samples.head? = some k) :
      PullMove s .getFrontSample { s with puller := .map p k, overtaken := false }
  | nothing (p : Pull) (hpc : s.puller = .front p) (hnone : s.getFrontSample = none) :
      PullMove s .getFrontSample { s with puller := .eos p }
  | isEos (p : Pull) (hpc : s.puller = .eos p) :
      PullMove s .isEos { s with puller := .done { p with isEos := s.isEosReached } }
  | map (p : Pull) (k : ℕ) (hpc : s.puller = .map p k) :
      PullMove s (.map true) { s with puller := .parse p k }
  | unmapped (p : Pull) (k : ℕ) (hpc : s.puller = .map p k) :
      PullMove s (.map false) { s with puller := .pop p k .unmapped }
  | parse (p : Pull) (k : ℕ) (hpc : s.puller = .parse p k) :
      PullMove s (.parseBuffer true) { s with puller := .add p k }
  | unparsed (p : Pull) (k : ℕ) (hpc : s.puller = .parse p k) :
      PullMove s (.parseBuffer false) { s with puller := .pop p k .unparsed }
  | noSpace (p : Pull) (k : ℕ) (hpc : s.puller = .add p k) :
      PullMove s (.addSegment .noSpace) { s with puller := .done p }
  | give (p : Pull) (k : ℕ) (status : AddSegmentStatus) (hstatus : status ≠ .noSpace)
      (hpc : s.puller = .add p k) :
      PullMove s (.addSegment status) { s with puller := .pop p k .given, given := s.given ++ [k] }
  | pop (p : Pull) (k : ℕ) (outcome : Outcome) (hpc : s.puller = .pop p k outcome) :
      PullMove s .popSample
        { s.popSample k outcome with puller := .loop (p.afterPop outcome) }
  | post (p : Pull) (hpc : s.puller = .done p) :
      PullMove s .postHaveData { s with puller := .idle, answers := s.answers ++ [p.status] }

/-- A step of a thread; `handleBuffer` queues the buffer at once or behind a wait. -/
inductive StepMove (s : State) : Event → State → Prop
  | wait (created : Bool) (hfull : maxInternalBuffersQueueSize ≤ s.samples.length) :
      StepMove s (.handleBuffer created) { s with waiting := true }
  | queue (e : Event) (waiting created : Bool)
      (he : e = .handleBuffer created ∨ e = .wake created) :
      StepMove s e ({ s with waiting := waiting }.queueBuffer created).2
  | startFlushing : StepMove s .startFlushing s.startFlushing
  | flushServer : StepMove s .flushServer s.flushServer
  | stopFlushing : StepMove s .stopFlushing s.stopFlushing
  | handleFlushCompleted : StepMove s .handleFlushCompleted s.handleFlushCompleted
  | setEos : StepMove s .setEos { s with isEos := true }
  | setSegment : StepMove s .setSegment { s with segmentSet := true }
  | readyToPaused : StepMove s .readyToPaused { s with isSinkFlushOngoing := false }
  | pausedToReady : StepMove s .pausedToReady s.clearBuffersUnlocked
  | pull {e : Event} {t : State} (hmove : PullMove s e t) : StepMove s e t

theorem pull_move {s t : State} {e : Event} (h : s.pull s.puller e = some t) :
    PullMove s e t := by
  unfold State.pull at h
  split at h
  · next frameCount hpc =>
      cases h
      exact .begin frameCount hpc
  · next p hpc =>
      split at h
      · next htest =>
          cases h
          exact .ready p hpc htest.1 htest.2
      · next htest =>
          cases h
          exact .leave p hpc htest
  · next p hpc =>
      split at h
      · next k hk =>
          cases h
          unfold State.getFrontSample at hk
          split at hk
          · cases hk
          · next hserver => exact .obtain p k hpc (Bool.eq_false_iff.mpr hserver) hk
      · next hnone =>
          cases h
          exact .nothing p hpc hnone
  · next p hpc =>
      cases h
      exact .isEos p hpc
  · next p k result hpc =>
      cases h
      cases result with
      | true => exact .map p k hpc
      | false => exact .unmapped p k hpc
  · next p k result hpc =>
      cases h
      cases result with
      | true => exact .parse p k hpc
      | false => exact .unparsed p k hpc
  · next p k status hpc =>
      cases h
      cases status with
      | noSpace => exact .noSpace p k hpc
      | ok => exact .give p k .ok (by simp) hpc
      | error => exact .give p k .error (by simp) hpc
  · next p k outcome hpc =>
      cases h
      exact .pop p k outcome hpc
  · next p hpc =>
      cases h
      exact .post p hpc
  · cases h

theorem step_move {s t : State} {e : Event} (h : s.step e = some t) : StepMove s e t := by
  cases e with
  | handleBuffer created =>
      simp only [State.step] at h
      split at h
      · cases h
      · split at h
        · next hfull =>
            cases h
            exact .wait created hfull
        · cases h
          exact .queue _ s.waiting created (.inl rfl)
  | wake created =>
      simp only [State.step] at h
      split at h <;> cases h
      exact .queue _ false created (.inr rfl)
  | startFlushing =>
      cases h
      exact .startFlushing
  | flushServer =>
      cases h
      exact .flushServer
  | stopFlushing =>
      cases h
      exact .stopFlushing
  | handleFlushCompleted =>
      cases h
      exact .handleFlushCompleted
  | setEos =>
      cases h
      exact .setEos
  | setSegment =>
      cases h
      exact .setSegment
  | readyToPaused =>
      cases h
      exact .readyToPaused
  | pausedToReady =>
      cases h
      exact .pausedToReady
  | pullBuffer | isReadyToSendData | getFrontSample | isEos | map | parseBuffer | addSegment
  | popSample | postHaveData => exact .pull (pull_move h)

end RialtoGStreamer.PullMode
