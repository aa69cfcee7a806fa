import Mathlib.Logic.Function.Basic
import RialtoGStreamer.Library.Machine

/-!
# The properties that a pull-mode delegate forwards

A delegate keeps each value in a member and passes it to the client, at once or
when the client or the source is there: a flag says that the value is queued.
`setProperty`, `getProperty`, READY->PAUSED and CAPS treat all the properties
alike, up to the entries of a table for each of the three delegates.
-/

namespace RialtoGStreamer.Properties

open Library

/-- What `getProperty` does to the members, besides answering: it queues the value
if there is no client, or it replaces the value by the client's. -/
inductive OnGet where
  | nothing
  | queues
  | replaces
  deriving DecidableEq

/-- What the code does differently from one property to another: `needsSource`
says that it is queued without an attached source too, `perSource` that it is
passed with the id of the source, `atPaused` and `atCaps` are the queued ones that
READY->PAUSED and CAPS pass, in this order. -/
structure Kind where
  Property : Type
  Value : Property → Type
  initial : (p : Property) → Value p
  member : (p : Property) → Value p → Value p := fun _ value ↦ value
  needsSource : Property → Bool
  perSource : Property → Bool
  atPaused : List Property
  atCaps : List Property
  onGet : Property → OnGet := fun _ ↦ .nothing
  decidableEq : DecidableEq Property

attribute [instance] Kind.decidableEq

/-- The client after `attachMediaPlayerClient`: the one that the delegate last had,
another one, or none because it could not be created. -/
inductive ClientAfter where
  | same
  | other
  | none
  deriving DecidableEq

/-- A value passed to the client, with the source id of the call and what had last
been given to `setProperty` by then. -/
structure Delivery (K : Kind) where
  property : K.Property
  value : K.Value property
  sourceId : Int
  given : Option (K.Value property)

/-- The last three fields are the history: the values last given to `setProperty`,
the values last passed to the client it has or had last, and all that was passed. -/
structure State (K : Kind) where
  client : Bool := false
  sourceAttached : Bool := false
  sourceId : Int := -1
  value : (p : K.Property) → K.Value p := K.initial
  queued : K.Property → Bool := fun _ ↦ false
  last : (p : K.Property) → Option (K.Value p) := fun _ ↦ none
  passed : (p : K.Property) → Option (K.Value p × Int) := fun _ ↦ none
  deliveries : List (Delivery K) := []

/-- `getProperty` with the value that the client may have cached, `readyToPaused`
with the outcomes of `attachMediaPlayerClient` and of `setStreamsNumber`, `caps`
with the id that the backend gives to the source. -/
inductive Event (K : Kind) where
  | setProperty (p : K.Property) (value : K.Value p)
  | getProperty (p : K.Property) (cached : Option (K.Value p))
  | readyToPaused (client : ClientAfter) (streams : Bool)
  | pausedToReady
  | readyToNull
  | caps (id : Int)

namespace State

variable {K : Kind}

/-- Call the client with the value of the member. -/
def pass (s : State K) (p : K.Property) : State K :=
  { s with
    passed := Function.update s.passed p (some (s.value p, s.sourceId))
    deliveries := s.deliveries ++ [⟨p, s.value p, s.sourceId, s.last p⟩] }

def passQueued (s : State K) (p : K.Property) : State K :=
  if s.queued p then { s.pass p with queued := Function.update s.queued p false } else s

def passAllQueued (s : State K) (properties : List K.Property) : State K :=
  properties.foldl passQueued s

/-- Keep what is given to `setProperty` in the member. -/
def store (s : State K) (p : K.Property) (value : K.Value p) : State K :=
  { s with
    value := Function.update s.value p (K.member p value)
    last := Function.update s.last p (some value) }

def enqueue (s : State K) (p : K.Property) : State K :=
  { s with queued := Function.update s.queued p true }

def setProperty (s : State K) (p : K.Property) (value : K.Value p) : State K :=
  if !s.client || (K.needsSource p && !s.sourceAttached) then (s.store p value).enqueue p
  else (s.store p value).pass p

def getProperty (s : State K) (p : K.Property) (cached : Option (K.Value p)) : State K :=
  match K.onGet p with
  | .nothing => s
  | .queues => if s.client then s else s.enqueue p
  | .replaces =>
      if s.client then { s with value := Function.update s.value p (cached.getD (s.value p)) }
      else s

/-- The client after `attachMediaPlayerClient`; another one has been passed nothing. -/
def attachClient (s : State K) : ClientAfter → State K
  | .same => { s with client := true }
  | .other => { s with client := true, passed := fun _ ↦ none }
  | .none => { s with client := false }

def readyToPaused (s : State K) (client : ClientAfter) (streams : Bool) : State K :=
  let s := s.attachClient client
  if s.client && streams then s.passAllQueued K.atPaused else s

def caps (s : State K) (id : Int) : State K :=
  if s.sourceAttached || !s.client then s
  else { s with sourceAttached := true, sourceId := id }.passAllQueued K.atCaps

def step (s : State K) : Event K → State K
  | .setProperty p value => s.setProperty p value
  | .getProperty p cached => s.getProperty p cached
  | .readyToPaused client streams => s.readyToPaused client streams
  | .pausedToReady => if s.client then { s with sourceAttached := false } else s
  | .readyToNull => { s with client := false }
  | .caps id => s.caps id

end State

def machine (K : Kind) : Machine (State K) (Event K) where
  step s e := some (s.step e)

/-! ## The three delegates -/

inductive EaseType where
  | linear
  | inCubic
  | outCubic
  deriving DecidableEq

/-- An `audio-fade` string, parsed. -/
structure AudioFadeConfig where
  volume : Float
  duration : UInt32
  easeType : EaseType

inductive AudioProperty where
  | volume
  | mute
  | lowLatency
  | sync
  | syncOff
  | streamSyncMode
  | audioFade
  | limitBufferingMs
  | useBuffering
  deriving DecidableEq

def AudioProperty.Value : AudioProperty → Type
  | .volume => Float
  | .audioFade => AudioFadeConfig
  | .streamSyncMode => Int32
  | .limitBufferingMs => UInt32
  | .mute | .lowLatency | .sync | .syncOff | .useBuffering => Bool

def AudioProperty.initial : (p : AudioProperty) → p.Value
  | .volume => (1.0 : Float)
  | .audioFade => (⟨0.0, 0, .linear⟩ : AudioFadeConfig)
  | .streamSyncMode => (0 : Int32)
  | .limitBufferingMs => (750 : UInt32)
  | .mute | .lowLatency | .sync | .syncOff | .useBuffering => false

/-- `PullModeAudioPlaybackDelegate`. -/
def audio : Kind where
  Property := AudioProperty
  Value := AudioProperty.Value
  initial := AudioProperty.initial
  needsSource p := p = .volume || p = .mute || p = .streamSyncMode
  perSource p := p = .mute || p = .streamSyncMode
  atPaused := [.volume, .audioFade]
  atCaps := [.mute, .lowLatency, .sync, .syncOff, .streamSyncMode, .limitBufferingMs, .useBuffering]
  onGet
    | .volume => .replaces
    | _ => .nothing
  decidableEq := inferInstance

inductive VideoProperty where
  | windowSet
  | immediateOutput
  | syncmodeStreaming
  | showVideoWindow
  deriving DecidableEq

def VideoProperty.Value : VideoProperty → Type
  | .windowSet => String
  | .immediateOutput | .syncmodeStreaming | .showVideoWindow => Bool

/-- `show-video-window` is kept as the mute state that it means. -/
def VideoProperty.member : (p : VideoProperty) → p.Value → p.Value
  | .windowSet, value => value
  | .immediateOutput, value => value
  | .syncmodeStreaming, value => value
  | .showVideoWindow, value => !value

def VideoProperty.initial : (p : VideoProperty) → p.Value
  | .windowSet => "0,0,1920,1080"
  | .immediateOutput | .syncmodeStreaming | .showVideoWindow => false

/-- `PullModeVideoPlaybackDelegate`. -/
def video : Kind where
  Property := VideoProperty
  Value := VideoProperty.Value
  initial := VideoProperty.initial
  member := VideoProperty.member
  needsSource p := p = .showVideoWindow
  perSource p := p ≠ .windowSet
  atPaused := [.windowSet]
  atCaps := [.immediateOutput, .syncmodeStreaming, .showVideoWindow]
  onGet
    | .windowSet | .immediateOutput => .queues
    | _ => .nothing
  decidableEq := inferInstance

inductive SubtitleProperty where
  | mute
  | textTrackIdentifier
  deriving DecidableEq

def SubtitleProperty.Value : SubtitleProperty → Type
  | .mute => Bool
  | .textTrackIdentifier => String

def SubtitleProperty.initial : (p : SubtitleProperty) → p.Value
  | .mute => false
  | .textTrackIdentifier => ""

/-- `PullModeSubtitlePlaybackDelegate`. -/
def subtitle : Kind where
  Property := SubtitleProperty
  Value := SubtitleProperty.Value
  initial := SubtitleProperty.initial
  needsSource _ := true
  perSource p := p = .mute
  atPaused := []
  atCaps := [.mute, .textTrackIdentifier]
  decidableEq := inferInstance

/-- The pull-mode delegates. -/
inductive PullModeDelegate where
  | audio
  | video
  | subtitle
  deriving DecidableEq

def PullModeDelegate.kind : PullModeDelegate → Kind
  | .audio => Properties.audio
  | .video => Properties.video
  | .subtitle => Properties.subtitle

end RialtoGStreamer.Properties
