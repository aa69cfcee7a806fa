import RialtoGStreamer.PushMode.Model
import RialtoGStreamer.WebAudio.Lifecycle

/-!
# What one step of the push-mode delegate can do

A step as the client sees it, and what it does to the members of delayed play.
-/

namespace RialtoGStreamer.PushMode

open Library
open MediaPlayerClient (PlaybackState)
open WebAudio (Caps)

variable {β : Type*}

/-! ## The client -/

/-- What the client is asked to do in a step; CAPS that cannot be parsed do not get
to it. -/
def Event.onClient : Event β → List (WebAudio.Event β)
  | .changeState .pausedToReady _ => [.close]
  | .changeState _ _ => []
  | .caps gstCaps created _ _ =>
      match gstCaps.parse with
      | some (mimeType, pcm) => [.open mimeType pcm created]
      | none => []
  | .eos => [.setEos]
  | .handleBuffer buffer => [.notifyNewSample buffer]
  | .setVolume | .handleStateChanged _ _ => []
  | .client e => [e]

theorem client_changeState (s : State β) (transition : Transition) (answer : Bool) :
    (s.changeState transition answer).2.client =
      if transition = .pausedToReady then s.client.close else s.client := by
  unfold State.changeState
  cases transition with
  | nullToReady | readyToPaused | pausedToReady | readyToNull => rfl
  | playingToPaused =>
      dsimp only
      split <;> rfl
  | pausedToPlaying =>
      dsimp only
      split
      · rfl
      · split <;> rfl

theorem client_handleCaps (s : State β) (caps : Caps) (created volumeSet played : Bool) :
    (s.handleCaps caps created volumeSet played).2.client =
      (s.client.openCaps caps created).1 := by
  have hplay : ∀ s : State β, (s.playDelayed played).2.client = s.client := by
    intro s
    unfold State.playDelayed
    split <;> rfl
  have hvolume : ∀ s : State β, (s.setQueuedVolume volumeSet).2.client = s.client := by
    intro s
    unfold State.setQueuedVolume
    split <;> rfl
  unfold State.handleCaps
  dsimp only
  split
  · exact (hplay _).trans (hvolume _)
  · rfl

theorem run_singleton {client client' : WebAudio.State β} {e : WebAudio.Event β}
    (h : client.step e = some client') :
    (WebAudio.machine β).run client [e] = some client' :=
  (WebAudio.machine β).run_cons_eq_some_iff.mpr ⟨client', h, rfl⟩

theorem client_step {s t : State β} {e : Event β} (h : s.step e = some t) :
    (WebAudio.machine β).run s.client e.onClient = some t.client := by
  cases e with
  | changeState transition answer =>
      simp only [State.step] at h
      split at h <;> cases h
      next hidle =>
        rw [client_changeState]
        cases transition with
        | pausedToReady =>
            have hworker : s.client.worker = .idle := by simpa [Transition.callsClient] using hidle
            exact run_singleton (if_pos hworker)
        | nullToReady | readyToPaused | pausedToPlaying | playingToPaused | readyToNull => rfl
  | caps caps created volumeSet played =>
      simp only [State.step] at h
      split at h <;> cases h
      next hworker =>
        rw [client_handleCaps]
        cases hparse : caps.parse with
        | none => simp [Event.onClient, WebAudio.State.openCaps, hparse]
        | some parsed =>
            simp only [Event.onClient, WebAudio.State.openCaps, hparse]
            exact run_singleton (if_pos hworker)
  | eos | handleBuffer buffer =>
      obtain ⟨client, hclient, rfl⟩ := Option.map_eq_some_iff.mp h
      exact run_singleton hclient
  | setVolume =>
      simp only [State.step] at h
      split at h <;> cases h
      unfold State.setVolume
      split <;> rfl
  | handleStateChanged state next =>
      cases h
      unfold State.handleStateChanged
      split <;> rfl
  | client e =>
      simp only [State.step] at h
      split at h
      · obtain ⟨client, hclient, rfl⟩ := Option.map_eq_some_iff.mp h
        exact run_singleton hclient
      · cases h

/-- Whatever the delegate does is a run of its client. -/
theorem client_run {s t : State β} {es : List (Event β)}
    (h : (machine β).run s es = some t) :
    (WebAudio.machine β).run s.client (es.flatMap Event.onClient) = some t.client :=
  (machine β).run_flatMap (WebAudio.machine β) (fun _ _ _ ↦ client_step) h

/-! ## Delayed play -/

/-- The members that delayed play is about. -/
structure Pending where
  isPlayingDelayed : Bool
  requested : Option Transition
  delays : ℕ
  delayedPlays : List DelayedPlay
  deriving DecidableEq

def State.pending (s : State β) : Pending where
  isPlayingDelayed := s.isPlayingDelayed
  requested := s.requested
  delays := s.delays
  delayedPlays := s.delayedPlays

/-- A transition sets the flag when it asks for PLAYING and the client is closed. -/
theorem pending_changeState (s : State β) (transition : Transition) (answer : Bool) :
    (s.changeState transition answer).2.pending =
      if transition = .pausedToPlaying ∧ s.client.isOpen = false then
        { (s.request transition).pending with isPlayingDelayed := true, delays := s.delays + 1 }
      else (s.request transition).pending := by
  unfold State.changeState
  cases transition with
  | nullToReady | readyToPaused | pausedToReady | readyToNull => rfl
  | playingToPaused =>
      dsimp only
      split <;> rfl
  | pausedToPlaying =>
      have hclient : (s.request .pausedToPlaying).client = s.client := rfl
      simp only [hclient, true_and]
      cases s.client.isOpen with
      | false => rfl
      | true =>
          simp only [Bool.not_true, Bool.false_eq_true, if_false]
          split <;> rfl

theorem isOpen_openCaps {client : WebAudio.State β} {caps : Caps} {created : Bool}
    (h : (client.openCaps caps created).2 = true) :
    (client.openCaps caps created).1.isOpen = true := by
  unfold WebAudio.State.openCaps at h ⊢
  split at h
  · cases h
  · next mimeType pcm hparse =>
      obtain ⟨hnew, rfl⟩ := Bool.and_eq_true_iff.mp h
      exact (WebAudio.openWith_of_new true hnew).1

theorem setQueuedVolume_frame (s : State β) (volumeSet : Bool) :
    ∃ queued, (s.setQueuedVolume volumeSet).2 = { s with isVolumeQueued := queued } := by
  unfold State.setQueuedVolume
  split
  · exact ⟨_, rfl⟩
  · exact ⟨s.isVolumeQueued, rfl⟩

theorem pending_playDelayed {s : State β} (hopen : s.client.isOpen = true) (played : Bool) :
    (s.playDelayed played).2.pending =
      if s.isPlayingDelayed then
        { s.pending with
          isPlayingDelayed := !played
          delayedPlays := s.delayedPlays ++ [⟨s.requested, s.delays, played⟩] }
      else s.pending := by
  simp only [State.playDelayed, State.ask, hopen, if_true, Bool.true_and]
  split <;> rfl

/-- CAPS calls `play` when it opened the client and the flag is set. -/
theorem pending_handleCaps (s : State β) (caps : Caps) (created volumeSet played : Bool) :
    (s.handleCaps caps created volumeSet played).2.pending =
      if (s.client.openCaps caps created).2 = true ∧ s.isPlayingDelayed = true then
        { s.pending with
          isPlayingDelayed := !played
          delayedPlays := s.delayedPlays ++ [⟨s.requested, s.delays, played⟩] }
      else s.pending := by
  by_cases hopened : (s.client.openCaps caps created).2 = true
  · obtain ⟨queued, hvolume⟩ := setQueuedVolume_frame
      { s with client := (s.client.openCaps caps created).1 } volumeSet
    simp only [State.handleCaps, hopened, if_true, true_and, hvolume]
    exact pending_playDelayed (isOpen_openCaps hopened) played
  · rw [if_neg fun hboth ↦ hopened hboth.1]
    simp only [State.handleCaps, hopened]
    rfl

/-- What a step does to delayed play. -/
inductive PendingMove (s t : State β) : Event β → Prop
  | changeState (transition : Transition) (answer : Bool)
      (ht : t.pending =
        if transition = .pausedToPlaying ∧ s.client.isOpen = false then
          { (s.request transition).pending with isPlayingDelayed := true, delays := s.delays + 1 }
        else (s.request transition).pending) :
      PendingMove s t (.changeState transition answer)
  | caps (caps : Caps) (created volumeSet played : Bool)
      (ht : t.pending =
        if (s.client.openCaps caps created).2 = true ∧ s.isPlayingDelayed = true then
          { s.pending with
            isPlayingDelayed := !played
            delayedPlays := s.delayedPlays ++ [⟨s.requested, s.delays, played⟩] }
        else s.pending) :
      PendingMove s t (.caps caps created volumeSet played)
  | eos (ht : t.pending = s.pending) : PendingMove s t .eos
  | handleBuffer (buffer : List β) (ht : t.pending = s.pending) :
      PendingMove s t (.handleBuffer buffer)
  | setVolume (ht : t.pending = s.pending) : PendingMove s t .setVolume
  | handleStateChanged (state : PlaybackState) (next : GstState) (ht : t.pending = s.pending) :
      PendingMove s t (.handleStateChanged state next)
  | client (e : WebAudio.Event β) (ht : t.pending = s.pending) : PendingMove s t (.client e)

theorem pending_move {s t : State β} {e : Event β} (h : s.step e = some t) :
    PendingMove s t e := by
  cases e with
  | changeState transition answer =>
      simp only [State.step] at h
      split at h <;> cases h
      exact .changeState transition answer (pending_changeState s transition answer)
  | caps caps created volumeSet played =>
      simp only [State.step] at h
      split at h <;> cases h
      exact .caps caps created volumeSet played
        (pending_handleCaps s caps created volumeSet played)
  | eos =>
      obtain ⟨client, -, rfl⟩ := Option.map_eq_some_iff.mp h
      exact .eos rfl
  | handleBuffer buffer =>
      obtain ⟨client, -, rfl⟩ := Option.map_eq_some_iff.mp h
      exact .handleBuffer buffer rfl
  | setVolume =>
      simp only [State.step] at h
      split at h <;> cases h
      refine .setVolume ?_
      unfold State.setVolume
      split <;> rfl
  | handleStateChanged state next =>
      cases h
      refine .handleStateChanged state next ?_
      unfold State.handleStateChanged
      split <;> rfl
  | client e =>
      simp only [State.step] at h
      split at h
      · obtain ⟨client, -, rfl⟩ := Option.map_eq_some_iff.mp h
        exact .client e rfl
      · cases h

end RialtoGStreamer.PushMode
