import Mathlib.Data.List.Perm.Basic
import RialtoGStreamer.Library.Machine
import RialtoGStreamer.Library.Table

/-!
# The media player client

`GStreamerMSEMediaPlayerClient` as far as the playback state goes. All the
operations below run inside `callInEventLoop`, hence one after another on the
worker of the backend queue, and an event is one whole operation together with
the answers the backend gives to it. The exception is a delegate that asks for
PLAYING while it is told of PAUSED: its call of `play` runs in place, in the
middle of `handlePlaybackStateChange`.
-/

namespace RialtoGStreamer.MediaPlayerClient

open Library

inductive ClientState where
  | idle
  | ready
  | awaitingPaused
  | paused
  | awaitingPlaying
  | playing
  deriving DecidableEq

inductive PlaybackState where
  | unknown
  | idle
  | playing
  | paused
  | seekDone
  | stopped
  | endOfStream
  | failure
  deriving DecidableEq

inductive MediaSourceType where
  | unknown
  | audio
  | video
  | subtitle
  deriving DecidableEq

inductive StateChangeResult where
  | successAsync
  | successSync
  | notAttached
  deriving DecidableEq

/-- An `int32_t` chosen by the backend. -/
abbrev SourceId := ℤ

structure AttachedSource where
  type : MediaSourceType
  state : ClientState := .ready
  isFlushing : Bool := false
  deriving DecidableEq

def unknownStreamsNumber : ℤ := -1

/-- The members of the client that its playback state depends on. -/
structure Members where
  attachedSources : Table SourceId AttachedSource := ∅
  audioStreams : ℤ := unknownStreamsNumber
  videoStreams : ℤ := unknownStreamsNumber
  subtitleStreams : ℤ := unknownStreamsNumber
  wasAllSourcesAttachedSent : Bool := false
  wasPlayingBeforeEos : Bool := false
  serverPlaybackState : PlaybackState := .idle
  clientState : ClientState := .idle

/-- The calls of `m_clientBackend` made by the operations below. -/
inductive Command where
  | attachSource (id : SourceId) (type : MediaSourceType)
  | removeSource (id : SourceId)
  | allSourcesAttached
  | play
  | pause
  | flush (id : SourceId) (resetTime : Bool)
  deriving DecidableEq

/-- The client with its history: what it has sent to the backend, each command
with the members at that moment, the `PlaybackStateMessage`s it has posted to its
own queue, and the target states of the requests it answered by the shortcuts. -/
structure Client extends Members where
  sent : List (Command × Members) := []
  posted : List PlaybackState := []
  shortcuts : List PlaybackState := []

namespace Members

def checkIfAllAttachedSourcesInStates (m : Members) (states : List ClientState) : Bool :=
  m.attachedSources.all fun source ↦ source.state ∈ states

/-- How many sources of one type are attached. -/
def attachedSourcesOf (m : Members) (type : MediaSourceType) : ℤ :=
  Table.count (fun source ↦ source.type = type) m.attachedSources

def areAllStreamsAttached (m : Members) : Bool :=
  m.attachedSourcesOf .video = m.videoStreams ∧ m.attachedSourcesOf .audio = m.audioStreams ∧
    m.attachedSourcesOf .subtitle = m.subtitleStreams

/-- The test at the head of `play`. -/
def isServerPlaying (m : Members) : Bool :=
  m.serverPlaybackState = .playing ∨
    (m.serverPlaybackState = .endOfStream ∧ m.wasPlayingBeforeEos = true)

/-- The test at the head of `pause`. -/
def isServerPaused (m : Members) : Bool :=
  m.serverPlaybackState = .paused ∧ m.clientState ≠ .awaitingPlaying ∧
    m.clientState ≠ .awaitingPaused

end Members

namespace Client

def send (c : Client) (command : Command) : Client :=
  { c with sent := c.sent ++ [(command, c.toMembers)] }

def takeShortcut (c : Client) (target : PlaybackState) : Client :=
  { c with shortcuts := c.shortcuts ++ [target] }

/-- Write `m_state` of an attached source. -/
def setState (c : Client) (id : SourceId) (state : ClientState) : Client :=
  { c with attachedSources := Table.modify id ({ · with state := state }) c.attachedSources }

/-- `play`; `async` is what the backend's `play` leaves in its out parameter. -/
def play (c : Client) (id : SourceId) (async : Bool) : Client × StateChangeResult :=
  match c.attachedSources.lookup id with
  | none => (c, .notAttached)
  | some _ =>
    if c.isServerPlaying then
      let c := (c.setState id .playing).takeShortcut .playing
      if c.checkIfAllAttachedSourcesInStates [.playing] then
        ({ c with clientState := .playing }, .successSync)
      else (c, .successSync)
    else
      let c := c.setState id .awaitingPlaying
      if c.clientState = .paused ∧
          c.checkIfAllAttachedSourcesInStates [.awaitingPlaying, .playing] then
        let c := { c.send .play with clientState := .awaitingPlaying }
        if async then (c, .successAsync)
        else ({ c with posted := c.posted ++ [.playing] }, .successSync)
      else (c, .successAsync)

/-- Whether `pause` sends the command, once the source is awaiting PAUSED. -/
def shouldPause (c : Client) : Bool :=
  match c.clientState with
  | .ready => c.checkIfAllAttachedSourcesInStates [.awaitingPaused]
  | .awaitingPlaying | .playing => true
  | _ => false

def pause (c : Client) (id : SourceId) : Client × StateChangeResult :=
  match c.attachedSources.lookup id with
  | none => (c, .notAttached)
  | some _ =>
    if c.isServerPaused then
      let c := (c.setState id .paused).takeShortcut .paused
      if c.checkIfAllAttachedSourcesInStates [.paused] then
        ({ c with clientState := .paused }, .successSync)
      else (c, .successSync)
    else
      let c := c.setState id .awaitingPaused
      if c.shouldPause then
        ({ c.send .pause with clientState := .awaitingPaused }, .successAsync)
      else (c, .successAsync)

/-- `flush` inside the event loop. The backend refuses, or accepts and says
whether the flush is asynchronous. -/
def flush (c : Client) (id : SourceId) (resetTime : Bool) (answer : Option Bool) : Client :=
  let c := { c with wasPlayingBeforeEos := false }
  match c.attachedSources.lookup id with
  | none => c
  | some _ =>
    let c := c.send (.flush id resetTime)
    match answer with
    | none => c
    | some async =>
      let c := { c with
        attachedSources := Table.modify id ({ · with isFlushing := true }) c.attachedSources }
      if async then
        { c.setState id .awaitingPaused with
          clientState := match c.clientState with
            | .playing => .awaitingPlaying
            | .paused => .awaitingPaused
            | state => state }
      else c

def sendAllSourcesAttachedIfPossibleInternal (c : Client) : Client :=
  if c.wasAllSourcesAttachedSent = false ∧ c.areAllStreamsAttached then
    let c := { c.send .allSourcesAttached with
      wasAllSourcesAttachedSent := true
      clientState := .ready }
    if c.checkIfAllAttachedSourcesInStates [.awaitingPaused] then
      { c.send .pause with clientState := .awaitingPaused }
    else c
  else c

/-- `attachSource`; the backend accepts or not, and it is the backend that
gives the source its id. -/
def attachSource (c : Client) (id : SourceId) (type : MediaSourceType) (result : Bool) :
    Client × Bool :=
  if type = .unknown then (c, false)
  else
    let c := c.send (.attachSource id type)
    let c :=
      if result = true ∧ c.attachedSources.lookup id = none then
        { c with attachedSources := c.attachedSources.insert id { type := type } }
      else c
    (c.sendAllSourcesAttachedIfPossibleInternal, result)

/-- `removeSource`; a refusal by the backend is only logged. -/
def removeSource (c : Client) (id : SourceId) : Client :=
  let c := c.send (.removeSource id)
  { c with attachedSources := c.attachedSources.erase id }

def handleStreamCollection (c : Client) (audioStreams videoStreams subtitleStreams : ℤ) :
    Client :=
  let update (known new : ℤ) := if known = unknownStreamsNumber then new else known
  { c with
    audioStreams := update c.audioStreams audioStreams
    videoStreams := update c.videoStreams videoStreams
    subtitleStreams := update c.subtitleStreams subtitleStreams }

/-- The state of a source after the notification `state`. -/
def stateAfter (state : PlaybackState) (source : AttachedSource) : AttachedSource :=
  if state = .paused ∧ source.state = .awaitingPaused then { source with state := .paused }
  else if state = .playing ∧ source.state = .awaitingPlaying then
    { source with state := .playing }
  else source

def tellSource (c : Client) (id : SourceId) (state : PlaybackState) : Client :=
  { c with attachedSources := Table.modify id (stateAfter state) c.attachedSources }

/-- One round of the loop in `handlePlaybackStateChange`. On PAUSED the delegate
of the source may call `play` from within its `handleStateChanged`; the visit
then holds the answer of the backend to that call. -/
def notifySource (state : PlaybackState) (c : Client) (visit : SourceId × Option Bool) :
    Client :=
  let c := c.tellSource visit.1 state
  match state, visit.2 with
  | .paused, some async => (c.play visit.1 async).1
  | _, _ => c

/-- `handlePlaybackStateChange`. The order of the visits is the one in which
the unordered map is walked. -/
def handlePlaybackStateChange (c : Client) (state : PlaybackState)
    (visits : List (SourceId × Option Bool)) : Client :=
  let previousState := c.serverPlaybackState
  let c := { c with serverPlaybackState := state }
  match state with
  | .paused =>
    let c := { c with wasPlayingBeforeEos := false }
    let c := if c.clientState = .awaitingPaused then { c with clientState := .paused } else c
    visits.foldl (notifySource .paused) c
  | .playing =>
    let c := { c with wasPlayingBeforeEos := false }
    if c.clientState = .awaitingPaused then c -- an outdated notification
    else
      let c := if c.clientState = .awaitingPlaying then { c with clientState := .playing } else c
      visits.foldl (notifySource .playing) c
  | .endOfStream =>
    if c.wasPlayingBeforeEos = false ∧ previousState = .playing then
      { c with wasPlayingBeforeEos := true }
    else c
  | .failure => { c with wasPlayingBeforeEos := false }
  | _ => c

def handleSourceFlushed (c : Client) (id : SourceId) : Client :=
  { c with
    attachedSources := Table.modify id ({ · with isFlushing := false }) c.attachedSources }

end Client

/-- One operation on the worker of the backend queue. -/
inductive Event where
  | attachSource (id : SourceId) (type : MediaSourceType) (result : Bool)
  | removeSource (id : SourceId)
  | handleStreamCollection (audioStreams videoStreams subtitleStreams : ℤ)
  | sendAllSourcesAttachedIfPossible
  | play (id : SourceId) (async : Bool)
  | pause (id : SourceId)
  | flush (id : SourceId) (resetTime : Bool) (answer : Option Bool)
  | handlePlaybackStateChange (state : PlaybackState) (visits : List (SourceId × Option Bool))
  | handleSourceFlushed (id : SourceId)

/-- A notification is delivered with a walk over exactly the attached sources. -/
def Client.step (c : Client) : Event → Option Client
  | .attachSource id type result => some (c.attachSource id type result).1
  | .removeSource id => some (c.removeSource id)
  | .handleStreamCollection audioStreams videoStreams subtitleStreams =>
      some (c.handleStreamCollection audioStreams videoStreams subtitleStreams)
  | .sendAllSourcesAttachedIfPossible => some c.sendAllSourcesAttachedIfPossibleInternal
  | .play id async => some (c.play id async).1
  | .pause id => some (c.pause id).1
  | .flush id resetTime answer => some (c.flush id resetTime answer)
  | .handlePlaybackStateChange state visits =>
      if (visits.map Prod.fst).Perm c.attachedSources.keys then
        some (c.handlePlaybackStateChange state visits)
      else none
  | .handleSourceFlushed id => some (c.handleSourceFlushed id)

/-- The client with an environment that calls and notifies in any order. -/
def machine : Machine Client Event where
  step := Client.step

end RialtoGStreamer.MediaPlayerClient
