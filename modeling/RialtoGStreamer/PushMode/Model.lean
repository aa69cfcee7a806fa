import RialtoGStreamer.MediaPlayerClient.Model
import RialtoGStreamer.WebAudio.Caps

/-!
# The push-mode delegate

`PushModeAudioPlaybackDelegate` in front of the web-audio client. State changes
come from the application, CAPS, EOS and buffers from the streaming thread; each
of them is one step, with the answers of the backend. The client goes on by itself
in between.
-/

namespace RialtoGStreamer.PushMode

open Library
open MediaPlayerClient (PlaybackState)
open WebAudio (Caps)

inductive GstState where
  | voidPending
  | null
  | ready
  | paused
  | playing
  deriving DecidableEq

inductive Transition where
  | nullToReady
  | readyToPaused
  | pausedToPlaying
  | playingToPaused
  | pausedToReady
  | readyToNull
  deriving DecidableEq

inductive StateChangeReturn where
  | failure
  | success
  | async
  deriving DecidableEq

/-- A call of the backend's `play` while CAPS is handled: the transition requested
last, the number of the delayed request, and the answer. -/
structure DelayedPlay where
  requested : Option Transition
  request : ℕ
  accepted : Bool
  deriving DecidableEq

/-- The last three fields are the history: the last transition requested other than
those from and to NULL, how often PLAYING was delayed, and the calls of `play` that
were made up for. -/
structure State (β : Type*) where
  client : WebAudio.State β := {}
  isPlayingDelayed : Bool := false
  isStateCommitNeeded : Bool := false
  isVolumeQueued : Bool := false
  requested : Option Transition := none
  delays : ℕ := 0
  delayedPlays : List DelayedPlay := []

/-- `changeState` with the answer of `waitForRunning`, `play` or `pause`, CAPS with
the answers of `createWebAudioBackend`, `setVolume` and `play`, and
`handleStateChanged` with the next state of the sink. `client` is what the client
does by itself. -/
inductive Event (β : Type*) where
  | changeState (transition : Transition) (answer : Bool)
  | caps (caps : Caps) (created volumeSet played : Bool)
  | eos
  | handleBuffer (buffer : List β)
  | setVolume
  | handleStateChanged (state : PlaybackState) (next : GstState)
  | client (e : WebAudio.Event β)

def Transition.isBetweenReadyAndPlaying : Transition → Bool
  | .readyToPaused | .pausedToPlaying | .playingToPaused | .pausedToReady => true
  | .nullToReady | .readyToNull => false

/-- The transitions that call the client. -/
def Transition.callsClient : Transition → Bool
  | .pausedToPlaying | .playingToPaused | .pausedToReady => true
  | .nullToReady | .readyToPaused | .readyToNull => false

namespace State

variable {β : Type*}

def request (s : State β) (transition : Transition) : State β :=
  { s with
    requested := if transition.isBetweenReadyAndPlaying then some transition else s.requested }

def postAsyncStart (s : State β) : State β :=
  { s with isStateCommitNeeded := true }

/-- The client asks the backend only if it is open. -/
def ask (s : State β) (answer : Bool) : Bool :=
  s.client.isOpen && answer

def changeState (s : State β) (transition : Transition) (answer : Bool) :
    StateChangeReturn × State β :=
  let s := s.request transition
  match transition with
  | .nullToReady => (if answer then .success else .failure, s)
  | .readyToPaused => (.success, s)
  | .pausedToPlaying =>
      if !s.client.isOpen then
        (.async, { s with isPlayingDelayed := true, delays := s.delays + 1 }.postAsyncStart)
      else if s.ask answer then (.async, s.postAsyncStart)
      else (.failure, s)
  | .playingToPaused =>
      if s.ask answer then (.async, s.postAsyncStart) else (.failure, s)
  | .pausedToReady => (.success, { s with client := s.client.close })
  | .readyToNull => (.success, s)

def setQueuedVolume (s : State β) (volumeSet : Bool) : Bool × State β :=
  if s.isVolumeQueued then (volumeSet, { s with isVolumeQueued := !volumeSet }) else (true, s)

/-- `play`, if it was delayed; it stays delayed when it fails. -/
def playDelayed (s : State β) (played : Bool) : Bool × State β :=
  if s.isPlayingDelayed then
    (s.ask played, { s with
      isPlayingDelayed := !s.ask played
      delayedPlays :=
        if s.client.isOpen then s.delayedPlays ++ [⟨s.requested, s.delays, played⟩]
        else s.delayedPlays })
  else (true, s)

/-- `handleEvent` with CAPS. -/
def handleCaps (s : State β) (caps : Caps) (created volumeSet played : Bool) :
    Bool × State β :=
  let opened := s.client.openCaps caps created
  let s := { s with client := opened.1 }
  if opened.2 then
    let volume := s.setQueuedVolume volumeSet
    let play := volume.2.playDelayed played
    (volume.1 && play.1, play.2)
  else (false, s)

/-- `setProperty` with the volume: it is queued, or set at once. -/
def setVolume (s : State β) : State β :=
  if s.client.isOpen then s else { s with isVolumeQueued := true }

def handleStateChanged (s : State β) (state : PlaybackState) (next : GstState) : State β :=
  if s.isStateCommitNeeded && ((state = .paused && next = .paused) ||
      (state = .playing && next = .playing)) then
    { s with isStateCommitNeeded := false }
  else s

/-- Steps that the client takes in its own threads. -/
def ofClient : WebAudio.Event β → Bool
  | .timerExpired | .notifyPushSamplesTimerExpired | .iterate _ _ _ | .finishPush
  | .notifyEndOfStream => true
  | .open _ _ _ | .close | .notifyNewSample _ | .setEos => false

def step (s : State β) : Event β → Option (State β)
  | .changeState transition answer =>
      if transition.callsClient ∧ s.client.worker ≠ .idle then none
      else some (s.changeState transition answer).2
  | .caps caps created volumeSet played =>
      if s.client.worker = .idle then some (s.handleCaps caps created volumeSet played).2 else none
  | .eos => (s.client.step .setEos).map fun client ↦ { s with client }
  | .handleBuffer buffer =>
      (s.client.step (.notifyNewSample buffer)).map fun client ↦ { s with client }
  | .setVolume => if s.client.worker = .idle then some s.setVolume else none
  | .handleStateChanged state next => some (s.handleStateChanged state next)
  | .client e =>
      if ofClient e then (s.client.step e).map fun client ↦ { s with client } else none

end State

/-- One delegate, from its construction on. -/
def machine (β : Type*) : Machine (State β) (Event β) where
  step := State.step

end RialtoGStreamer.PushMode
