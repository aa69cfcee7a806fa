import RialtoGStreamer.Library.EventLoop
import RialtoGStreamer.MediaPlayerClient.Model
import RialtoGStreamer.Properties.Model

/-!
# The mutexes and event loops of the sinks of one client

Of every handler of the pull-mode delegates, of the client and of its messages this
keeps the locks, the calls into the event loops, and the tests for a client and an
attached source. Delegates are numbered, and delegate `i` is of kind `kind i`; a
handler that lists the attached sources names their delegates.
-/

namespace RialtoGStreamer.Locks

open Library Library.EventLoop
open MediaPlayerClient (PlaybackState)
open Properties (PullModeDelegate)

/-- `m_sinkMutex` of each delegate, the mutexes of an audio, a video and a subtitle
delegate, the one of `MediaPlayerManager`, and the two of the client. -/
inductive Mutex where
  | sink (i : ℕ)
  | audioFadeConfig (i : ℕ)
  | property (i : ℕ)
  | textTrack (i : ℕ)
  | mediaPlayerClients
  | playbackInfo
  | synchronizer
  deriving DecidableEq

inductive Loop where
  | backend
  | puller (i : ℕ)
  deriving DecidableEq

/-- `getMediaPlayerClient` is not null, and `m_sourceAttached`. -/
inductive Test where
  | client (i : ℕ)
  | sourceAttached (i : ℕ)

inductive Write where
  | client (i : ℕ) (value : Bool)
  | sourceAttached (i : ℕ) (value : Bool)

structure World where
  client : ℕ → Bool := fun _ ↦ false
  sourceAttached : ℕ → Bool := fun _ ↦ false

def World.eval (w : World) : Test → Bool
  | .client i => w.client i
  | .sourceAttached i => w.sourceAttached i

def World.exec (w : World) : Write → World
  | .client i value => { w with client := Function.update w.client i value }
  | .sourceAttached i value =>
      { w with sourceAttached := Function.update w.sourceAttached i value }

/-- The functions that the client runs by `callInEventLoop`. `attached` are the
sources that the worker finds, and `later` those that it finds when it handles a
message posted by this one. -/
inductive Operation where
  | createBackend
  | getDuration
  | setImmediateOutput
  | getImmediateOutput
  | getStats
  | play (later : List ℕ)
  | pause
  | stop
  | setPlaybackRate
  | flush
  | setSourcePosition
  | setSubtitleOffset
  | processAudioGap
  | attachSource
  | sendAllSourcesAttachedIfPossible
  | removeSource (i : ℕ)
  | handlePlaybackStateChange (state : PlaybackState) (attached later : List ℕ)
  | handleSourceFlushed (i : ℕ)
  | setVideoRectangle
  | getVideoRectangle
  | renderFrame
  | setVolume
  | getVolume
  | setMute
  | getMute
  | setTextTrackIdentifier
  | getTextTrackIdentifier
  | setLowLatency
  | setSync
  | getSync
  | setSyncOff
  | setStreamSyncMode
  | getStreamSyncMode
  | handleStreamCollection
  | setBufferingLimit
  | getBufferingLimit
  | setUseBuffering
  | getUseBuffering
  | switchSource
  | requestPullBuffer (i frameCount : ℕ)
  | handleQos
  | handleBufferUnderflow
  | handleFirstFrameReceived
  | handlePlaybackError

inductive Message where
  | playbackState (state : PlaybackState) (attached later : List ℕ)
  | needData (i frameCount : ℕ)
  | haveData
  | qos
  | bufferUnderflow
  | firstFrameReceived
  | playbackError
  | setPosition
  | setDuration
  | sourceFlushed (i : ℕ)

inductive Job where
  | operation (op : Operation)
  | message (message : Message)
  | pullBuffer (i frameCount : ℕ)

abbrev Code := EventLoop.Code Mutex Loop Test Write Job

/-- A section that only reads and writes members. -/
def critical (m : Mutex) : Code := .scope m .skip

def callInEventLoop (op : Operation) : Code := .call .backend (.operation op)

def postMessage (message : Message) : Code := .post .backend (.message message)

/-- `if (client)`. -/
def withClient (i : ℕ) (c : Code) : Code := .test (.client i) c .skip

/-- `if (client && m_sourceAttached)`. -/
def withSource (i : ℕ) (c : Code) : Code :=
  withClient i (.test (.sourceAttached i) c .skip)

/-- A section, and after it `c` if there was a client before it. -/
def criticalThen (i : ℕ) (m : Mutex) (c : Code) : Code :=
  .test (.client i) (.seq (critical m) c) (critical m)

/-! ## The client -/

/-- The functions that return early without `m_clientBackend`. -/
def Operation.checksBackend : Operation → Bool
  | .getDuration | .setImmediateOutput | .getImmediateOutput | .getStats => true
  | .setLowLatency | .setSync | .getSync | .setSyncOff => true
  | .setStreamSyncMode | .getStreamSyncMode => true
  | .setBufferingLimit | .getBufferingLimit | .setUseBuffering | .getUseBuffering => true
  | _ => false

namespace GStreamerMSEMediaPlayerClient

/-- A function of the client that does nothing but the call. -/
def ask (op : Operation) : Code :=
  if op.checksBackend then .maybe (callInEventLoop op) else callInEventLoop op

def flush : Code := .seq (critical .synchronizer) (ask .flush)

def getPosition : Code := critical .playbackInfo

def getCachedVolume : Code := critical .playbackInfo

def notifyPlaybackInfo : Code := .seq (critical .synchronizer) (.maybe (critical .playbackInfo))

/-- The worker ends, and then each puller. -/
def stopStreaming (attached : List ℕ) : Code :=
  .maybe (.seq (.join .backend) (.block (attached.map fun i ↦ .join (.puller i))))

end GStreamerMSEMediaPlayerClient

namespace FlushAndDataSynchronizer

def notifyDataReceived : Code := critical .synchronizer

/-- The thread is woken so many times before the condition is true. -/
def waitIfRequired (wakeups : ℕ) : Code :=
  .scope .synchronizer (.block (.replicate wakeups (.wait .synchronizer)))

end FlushAndDataSynchronizer

open GStreamerMSEMediaPlayerClient FlushAndDataSynchronizer

/-! ## The managers -/

namespace MediaPlayerManager

def createMediaPlayerClient (i : ℕ) : Code :=
  .scope .mediaPlayerClients
    (.choose (.write (.client i true))
      (.seq (ask .createBackend) (.maybe (.write (.client i true)))))

/-- The last manager of a client stops it under the mutex. -/
def releaseMediaPlayerClient (i : ℕ) (attached : List ℕ) : Code :=
  withClient i (.scope .mediaPlayerClients (.maybe (.seq
    (.maybe (.seq (ask .stop) (stopStreaming attached))) (.write (.client i false)))))

/-- `success` is what follows when there is a client. -/
def attachMediaPlayerClient (i : ℕ) (attached : List ℕ) (success : Code) : Code :=
  .block [
    critical .mediaPlayerClients,
    .test (.client i)
      (.maybe (.seq (releaseMediaPlayerClient i attached) (createMediaPlayerClient i)))
      (createMediaPlayerClient i),
    critical .mediaPlayerClients,
    withClient i success]

/-- `granted` is what follows when the manager is the controller. -/
def hasControl (i : ℕ) (granted : Code) : Code :=
  withClient i (.seq (critical .mediaPlayerClients) (.maybe granted))

end MediaPlayerManager

open Locks.MediaPlayerManager

/-! ## `PullModePlaybackDelegate` -/

inductive StateChange where
  | nullToReady
  | readyToPaused
  | pausedToPlaying
  | playingToPaused
  | pausedToReady
  | readyToNull
  | other
  deriving DecidableEq

/-- The events that some delegate handles, custom downstream events by their names. -/
inductive PadEvent where
  | segment
  | eos
  | caps
  | sinkMessage
  | customInstantRateChange
  | switchSource
  | setPtsOffset
  | flushStart (wakeups : ℕ)
  | flushStop
  | streamCollection
  | instantRateChange
  | other

inductive SentEvent where
  | flushingSeek
  | instantRateChangeSeek
  | instantRateSyncTime
  | other

inductive Query where
  | seeking
  | position
  | segment
  | duration
  | other

/-- `IPlaybackDelegate::Property`, as far as pull-mode delegates use it. -/
inductive Property where
  | isSinglePathStream
  | numberOfStreams
  | hasDrm
  | enableLastSample
  | lastSample
  | stats
  | volume
  | mute
  | gap
  | lowLatency
  | sync
  | syncOff
  | streamSyncMode
  | audioFade
  | fadeVolume
  | limitBufferingMs
  | useBuffering
  | async
  | windowSet
  | maxVideoWidth
  | maxVideoHeight
  | frameStepOnPreroll
  | immediateOutput
  | syncmodeStreaming
  | showVideoWindow
  | videoPts
  | textTrackIdentifier
  | windowId

namespace PullModePlaybackDelegate

/-- `success` is what follows when it returns true. -/
def setStreamsNumber (i : ℕ) (success : Code) : Code :=
  .maybe (.seq (.maybe (critical (.sink i)))
    (withClient i (.seq (ask .handleStreamCollection) success)))

def attachToMediaClientAndSetStreamsNumber (i : ℕ) (attached : List ℕ) (success : Code) : Code :=
  attachMediaPlayerClient i attached (setStreamsNumber i success)

def changeState (i : ℕ) (attached : List ℕ) : StateChange → Code
  | .readyToPaused => withClient i (ask .pause)
  | .pausedToPlaying => withClient i (ask (.play attached))
  | .playingToPaused => withClient i (ask .pause)
  | .pausedToReady =>
      withClient i (.seq (ask (.removeSource i))
        (.scope (.sink i) (.write (.sourceAttached i false))))
  | .readyToNull => releaseMediaPlayerClient i attached
  | .nullToReady | .other => .skip

def setProperty (i : ℕ) : Property → Code
  | .isSinglePathStream | .numberOfStreams | .hasDrm | .enableLastSample => critical (.sink i)
  | _ => .skip

def getLastSample (i : ℕ) : Code := critical (.sink i)

def getProperty (i : ℕ) : Property → Code
  | .isSinglePathStream | .numberOfStreams | .hasDrm | .enableLastSample => critical (.sink i)
  | .stats => withClient i (ask .getStats)
  | .lastSample => getLastSample i
  | _ => .skip

def handleQuery (i : ℕ) : Query → Code
  | .position => withClient i (.seq (critical (.sink i)) (.maybe getPosition))
  | .segment => critical (.sink i)
  | .duration => withClient i (.maybe (ask .getDuration))
  | .seeking | .other => .skip

def copySegment (i : ℕ) : Code := critical (.sink i)

def setSegment (i : ℕ) : Code := withClient i (ask .setSourcePosition)

def changePlaybackRate (i : ℕ) : Code :=
  .maybe (withClient i (hasControl i (ask .setPlaybackRate)))

def startFlushing (i wakeups : ℕ) : Code :=
  .seq (withClient i (waitIfRequired wakeups)) (critical (.sink i))

def flushServer (i : ℕ) : Code :=
  withClient i (.seq (critical (.sink i)) GStreamerMSEMediaPlayerClient.flush)

def stopFlushing (i : ℕ) : Code := .seq (flushServer i) (critical (.sink i))

def handleEvent (i : ℕ) : PadEvent → Code
  | .segment => .seq (copySegment i) (setSegment i)
  | .eos => .scope (.sink i) (withClient i notifyDataReceived)
  | .caps => critical (.sink i)
  | .customInstantRateChange => changePlaybackRate i
  | .flushStart wakeups => startFlushing i wakeups
  | .flushStop => stopFlushing i
  | .streamCollection =>
      withClient i (.seq (ask .handleStreamCollection) (ask .sendAllSourcesAttachedIfPossible))
  | .sinkMessage | .switchSource | .setPtsOffset | .instantRateChange | .other => .skip

def handleBuffer (i : ℕ) : Code :=
  .scope (.sink i) (.seq (.maybe (.wait (.sink i))) (.maybe (withClient i notifyDataReceived)))

def getFrontSample (i : ℕ) : Code := critical (.sink i)

def popSample (i : ℕ) : Code := critical (.sink i)

def isEos (i : ℕ) : Code := critical (.sink i)

def isReadyToSendData (i : ℕ) : Code := critical (.sink i)

/-- In PAUSED or PLAYING the mutex is taken. -/
def handleEos (i : ℕ) : Code := .maybe (critical (.sink i))

def handleFlushCompleted (i : ℕ) : Code := critical (.sink i)

/-- What the three CAPS handlers have in common: `createMediaSource`, and `settings`
for what is passed to the client once the source is attached. -/
def attachSource (i : ℕ) (createMediaSource : Code) (settings : List Code) : Code :=
  .test (.sourceAttached i) .skip (.seq createMediaSource (.maybe (withClient i
    (.seq (ask .attachSource) (.maybe (.block (.write (.sourceAttached i true) :: settings)))))))

end PullModePlaybackDelegate

/-! ## `PullModeAudioPlaybackDelegate` -/

namespace PullModeAudioPlaybackDelegate

def changeState (i : ℕ) (attached : List ℕ) : StateChange → Code
  | .readyToPaused =>
      PullModePlaybackDelegate.attachToMediaClientAndSetStreamsNumber i attached
        (withClient i (.block [
          .maybe (ask .setVolume),
          .maybe (.seq (critical (.audioFadeConfig i)) (ask .setVolume)),
          PullModePlaybackDelegate.changeState i attached .readyToPaused]))
  | transition => PullModePlaybackDelegate.changeState i attached transition

def handleEvent (i : ℕ) : PadEvent → Code
  | .caps =>
      .seq
        (PullModePlaybackDelegate.attachSource i .skip [
          .maybe (ask .setMute), .maybe (ask .setLowLatency), .maybe (ask .setSync),
          .maybe (ask .setSyncOff), .maybe (ask .setStreamSyncMode),
          .maybe (ask .setBufferingLimit), .maybe (ask .setUseBuffering), .maybe (ask .pause)])
        (PullModePlaybackDelegate.handleEvent i .caps)
  | .switchSource => .maybe (withClient i (ask .switchSource))
  | event => PullModePlaybackDelegate.handleEvent i event

def getProperty (i : ℕ) : Property → Code
  | .volume => withClient i getCachedVolume
  | .mute => withClient i (ask .getMute)
  | .sync => withClient i (ask .getSync)
  | .streamSyncMode => withClient i (ask .getStreamSyncMode)
  | .fadeVolume => withClient i (ask .getVolume)
  | .limitBufferingMs => withClient i (ask .getBufferingLimit)
  | .useBuffering => withClient i (ask .getUseBuffering)
  | .async => .skip
  | type => PullModePlaybackDelegate.getProperty i type

def setProperty (i : ℕ) : Property → Code
  | .volume => withSource i (ask .setVolume)
  | .mute => withSource i (ask .setMute)
  | .gap => ask .processAudioGap
  | .lowLatency => withClient i (ask .setLowLatency)
  | .sync => withClient i (ask .setSync)
  | .syncOff => withClient i (ask .setSyncOff)
  | .streamSyncMode => withSource i (ask .setStreamSyncMode)
  | .audioFade => .maybe (criticalThen i (.audioFadeConfig i) (ask .setVolume))
  | .limitBufferingMs => withClient i (ask .setBufferingLimit)
  | .useBuffering => withClient i (ask .setUseBuffering)
  | .async => .skip
  | type => PullModePlaybackDelegate.setProperty i type

end PullModeAudioPlaybackDelegate

/-! ## `PullModeVideoPlaybackDelegate` -/

namespace PullModeVideoPlaybackDelegate

def changeState (i : ℕ) (attached : List ℕ) : StateChange → Code
  | .readyToPaused =>
      PullModePlaybackDelegate.attachToMediaClientAndSetStreamsNumber i attached
        (withClient i (.seq (.scope (.property i) (.maybe (ask .setVideoRectangle)))
          (PullModePlaybackDelegate.changeState i attached .readyToPaused)))
  | transition => PullModePlaybackDelegate.changeState i attached transition

def handleEvent (i : ℕ) : PadEvent → Code
  | .caps =>
      .seq
        (PullModePlaybackDelegate.attachSource i .skip [
          .maybe (ask .pause),
          .scope (.property i) (.block [
            .maybe (ask .setImmediateOutput), .maybe (ask .setStreamSyncMode),
            .maybe (ask .setMute)])])
        (PullModePlaybackDelegate.handleEvent i .caps)
  | event => PullModePlaybackDelegate.handleEvent i event

def getProperty (i : ℕ) : Property → Code
  | .windowSet => criticalThen i (.property i) (ask .getVideoRectangle)
  | .immediateOutput => criticalThen i (.property i) (ask .getImmediateOutput)
  -- The client is fetched inside the section, and called after it.
  | .videoPts => criticalThen i (.property i) getPosition
  | .maxVideoWidth | .maxVideoHeight | .frameStepOnPreroll => .skip
  | type => PullModePlaybackDelegate.getProperty i type

def setProperty (i : ℕ) : Property → Code
  | .windowSet => .maybe (criticalThen i (.property i) (ask .setVideoRectangle))
  | .maxVideoWidth | .maxVideoHeight => .skip
  | .frameStepOnPreroll => withClient i (.maybe (ask .renderFrame))
  | .immediateOutput => criticalThen i (.property i) (ask .setImmediateOutput)
  | .syncmodeStreaming => criticalThen i (.property i) (ask .setStreamSyncMode)
  -- The flag is read inside the section, and the call made after it.
  | .showVideoWindow =>
      criticalThen i (.property i) (.test (.sourceAttached i) (ask .setMute) .skip)
  | type => PullModePlaybackDelegate.setProperty i type

end PullModeVideoPlaybackDelegate

/-! ## `PullModeSubtitlePlaybackDelegate` -/

namespace PullModeSubtitlePlaybackDelegate

def changeState (i : ℕ) (attached : List ℕ) : StateChange → Code
  | .readyToPaused =>
      PullModePlaybackDelegate.attachToMediaClientAndSetStreamsNumber i attached
        (PullModePlaybackDelegate.changeState i attached .readyToPaused)
  | transition => PullModePlaybackDelegate.changeState i attached transition

/-- An event without a value changes nothing. -/
def setPtsOffset (i : ℕ) : Code :=
  .maybe (.scope (.sink i) (withSource i (ask .setSubtitleOffset)))

def handleEvent (i : ℕ) : PadEvent → Code
  | .caps =>
      .seq
        (PullModePlaybackDelegate.attachSource i (.maybe (critical (.textTrack i))) [
          .maybe (ask .setMute),
          .scope (.textTrack i) (.seq
            (.maybe (ask .setTextTrackIdentifier)) (.maybe (ask .setSubtitleOffset))),
          .maybe (ask .pause)])
        (PullModePlaybackDelegate.handleEvent i .caps)
  | .setPtsOffset => setPtsOffset i
  | event => PullModePlaybackDelegate.handleEvent i event

def getProperty (i : ℕ) : Property → Code
  | .mute => withClient i (ask .getMute)
  | .textTrackIdentifier => criticalThen i (.textTrack i) (ask .getTextTrackIdentifier)
  | .windowId | .async => .skip
  | type => PullModePlaybackDelegate.getProperty i type

def setProperty (i : ℕ) : Property → Code
  | .mute => withSource i (ask .setMute)
  | .textTrackIdentifier =>
      .maybe (.test (.client i)
        (.scope (.textTrack i) (.test (.sourceAttached i) (ask .setTextTrackIdentifier) .skip))
        (critical (.textTrack i)))
  | .windowId | .async => .skip
  | type => PullModePlaybackDelegate.setProperty i type

end PullModeSubtitlePlaybackDelegate

/-! ## The delegate of each kind -/

def changeState (i : ℕ) (attached : List ℕ) (transition : StateChange) : PullModeDelegate → Code
  | .audio => PullModeAudioPlaybackDelegate.changeState i attached transition
  | .video => PullModeVideoPlaybackDelegate.changeState i attached transition
  | .subtitle => PullModeSubtitlePlaybackDelegate.changeState i attached transition

def handleEvent (i : ℕ) (event : PadEvent) : PullModeDelegate → Code
  | .audio => PullModeAudioPlaybackDelegate.handleEvent i event
  | .video => PullModeVideoPlaybackDelegate.handleEvent i event
  | .subtitle => PullModeSubtitlePlaybackDelegate.handleEvent i event

def getProperty (i : ℕ) (type : Property) : PullModeDelegate → Code
  | .audio => PullModeAudioPlaybackDelegate.getProperty i type
  | .video => PullModeVideoPlaybackDelegate.getProperty i type
  | .subtitle => PullModeSubtitlePlaybackDelegate.getProperty i type

def setProperty (i : ℕ) (type : Property) : PullModeDelegate → Code
  | .audio => PullModeAudioPlaybackDelegate.setProperty i type
  | .video => PullModeVideoPlaybackDelegate.setProperty i type
  | .subtitle => PullModeSubtitlePlaybackDelegate.setProperty i type

/-- A seek that changes the rate at once sends an event to the pad of the sink. -/
def handleSendEvent (i : ℕ) (delegate : PullModeDelegate) : SentEvent → Code
  | .flushingSeek => .maybe (critical (.sink i))
  | .instantRateChangeSeek => handleEvent i .instantRateChange delegate
  | .instantRateSyncTime => withClient i (hasControl i (ask .setPlaybackRate))
  | .other => .skip

/-! ## The threads of the queues -/

/-- A preroll that ends while PLAYING is requested goes on to PLAYING at once. -/
def handleStateChanged (i : ℕ) (delegate : PullModeDelegate) (later : List ℕ) :
    PlaybackState → Code
  | .paused => .maybe (changeState i later .pausedToPlaying delegate)
  | _ => .skip

/-- An outdated PLAYING is discarded. -/
def handlePlaybackStateChange (kind : ℕ → PullModeDelegate) (attached later : List ℕ) :
    PlaybackState → Code
  | .paused => .block (attached.map fun i ↦ handleStateChanged i (kind i) later .paused)
  | .playing =>
      .maybe (.block (attached.map fun i ↦ handleStateChanged i (kind i) later .playing))
  | .endOfStream => .block (attached.map PullModePlaybackDelegate.handleEos)
  | .failure => critical .playbackInfo
  | _ => .skip

/-- What the worker runs for the client. -/
def Operation.run (kind : ℕ → PullModeDelegate) : Operation → Code
  | .play later => .maybe (postMessage (.playbackState .playing later []))
  | .attachSource => .maybe (critical .synchronizer)
  | .removeSource i => .seq (.maybe (.join (.puller i))) (critical .synchronizer)
  | .handlePlaybackStateChange state attached later =>
      Locks.handlePlaybackStateChange kind attached later state
  | .handleSourceFlushed i =>
      .maybe (.seq (PullModePlaybackDelegate.handleFlushCompleted i) (critical .synchronizer))
  | .setVolume => critical .playbackInfo
  | .requestPullBuffer i frameCount => .maybe (.post (.puller i) (.pullBuffer i frameCount))
  | _ => .skip

def Message.handle : Message → Code
  | .playbackState state attached later =>
      callInEventLoop (.handlePlaybackStateChange state attached later)
  | .needData i frameCount =>
      .seq (callInEventLoop (.requestPullBuffer i frameCount)) (.maybe (postMessage .haveData))
  | .sourceFlushed i => callInEventLoop (.handleSourceFlushed i)
  | .qos => callInEventLoop .handleQos
  | .bufferUnderflow => callInEventLoop .handleBufferUnderflow
  | .firstFrameReceived => callInEventLoop .handleFirstFrameReceived
  | .playbackError => callInEventLoop .handlePlaybackError
  | .haveData | .setPosition | .setDuration => .skip

/-- The loop of `PullBufferMessage::handle`; a break leaves it. -/
def pullFrames (i : ℕ) : ℕ → Code
  | 0 => .skip
  | frameCount + 1 =>
      .seq (PullModePlaybackDelegate.isReadyToSendData i) (.maybe
        (.seq (PullModePlaybackDelegate.getFrontSample i) (.choose
          (PullModePlaybackDelegate.isEos i)
          (.maybe (.seq (PullModePlaybackDelegate.popSample i) (pullFrames i frameCount))))))

/-- `PullBufferMessage::handle`. -/
def pullBuffer (i frameCount : ℕ) : Code :=
  .block [pullFrames i frameCount, .maybe (critical .synchronizer), postMessage .haveData]

def Job.body (kind : ℕ → PullModeDelegate) : Job → Code
  | .operation op => op.run kind
  | .message posted => posted.handle
  | .pullBuffer i frameCount => Locks.pullBuffer i frameCount

/-! ## The program -/

/-- What the threads of the application, of the pads and of the server do. -/
inductive Entry where
  | changeState (i : ℕ) (transition : StateChange) (attached : List ℕ)
  | handleEvent (i : ℕ) (event : PadEvent)
  | handleSendEvent (i : ℕ) (event : SentEvent)
  | handleBuffer (i : ℕ)
  | handleQuery (i : ℕ) (query : Query)
  | getProperty (i : ℕ) (type : Property)
  | setProperty (i : ℕ) (type : Property)
  | notify (message : Message)
  | notifyPlaybackInfo

def Entry.code (kind : ℕ → PullModeDelegate) : Entry → Code
  | .changeState i transition attached => Locks.changeState i attached transition (kind i)
  | .handleEvent i event => Locks.handleEvent i event (kind i)
  | .handleSendEvent i event => Locks.handleSendEvent i (kind i) event
  | .handleBuffer i => PullModePlaybackDelegate.handleBuffer i
  | .handleQuery i query => PullModePlaybackDelegate.handleQuery i query
  | .getProperty i type => Locks.getProperty i type (kind i)
  | .setProperty i type => Locks.setProperty i type (kind i)
  | .notify message => postMessage message
  | .notifyPlaybackInfo => GStreamerMSEMediaPlayerClient.notifyPlaybackInfo

abbrev program (kind : ℕ → PullModeDelegate) : Program where
  Mutex := Mutex
  Loop := Loop
  Test := Test
  Write := Write
  Job := Job
  Entry := Entry
  World := World
  eval := World.eval
  exec := World.exec
  body := Job.body kind
  entry := Entry.code kind
  decidableMutex := inferInstance
  decidableLoop := inferInstance

/-- A thread has a delegate's `m_sinkMutex` and is blocked in `callInEventLoop`, while
the worker, or a puller that it joins, waits for this mutex. -/
def LockCycle {kind : ℕ → PullModeDelegate} {τ : Type} (s : State (program kind) τ) : Prop :=
  ∃ i u, s.owner (.sink i) = some u ∧ (s.pc u).calls = some .backend ∧
    ((s.pc (.loop .backend)).waitsFor = some (.sink i) ∨
      ∃ j, (s.pc (.loop .backend)).joins = some (.puller j) ∧
        (s.pc (.loop (.puller j))).waitsFor = some (.sink i))

end RialtoGStreamer.Locks
