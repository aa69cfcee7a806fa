import RialtoGStreamer.Flush.Synchronizer
import RialtoGStreamer.PullMode.Model

/-!
# The sections of one flush

`FLUSH_START` and `FLUSH_STOP` of one sink, section by section: those of its
delegate under `m_sinkMutex`, the one of the synchronizer, and `flush` in the
event loop. The worker of the backend queue, which runs `flush`, also handles
the confirmations of the server and its END_OF_STREAM.
-/

namespace RialtoGStreamer.Flush

open Library MediaPlayerClient

inductive GstState where
  | null
  | ready
  | paused
  | playing
  deriving DecidableEq

/-- What `handleEos` posts on the bus. -/
inductive GstMessage where
  | eos
  | error
  deriving DecidableEq

/-- Where the sink's thread is: outside `FLUSH_STOP`, before or after a
`FLUSH_START`, or inside, behind the named section. -/
inductive SinkSection where
  | idle
  | started
  | flushedServer
  | notified
  | flushed
  deriving DecidableEq

/-- Where the worker is inside `handleSourceFlushed`. -/
inductive WorkerSection where
  | idle
  | confirming (id : SourceId)
  | completed (id : SourceId)
  deriving DecidableEq

/-- The client, its synchronizer and the delegate of one sink with the id of its
source. `ongoing` says that a `FLUSH_START` was handled and its flush has not
been completed, `messages` what `handleEos` posted, and whether it was then. -/
structure World where
  sourceId : SourceId
  client : Client := {}
  synchronizer : Synchronizer := {}
  delegate : PullMode.State := {}
  sink : SinkSection := .idle
  worker : WorkerSection := .idle
  ongoing : Bool := false
  messages : List (GstMessage × Bool) := []

/-- `flush` comes with the answer of the backend: `none` if it refuses, else
whether the flush is asynchronous. `delegate` is any step of the delegate that
is not listed on its own. -/
inductive Section where
  | startFlushing
  | flushServer
  | notifyFlushStarted
  | flush (resetTime : Bool) (answer : Option Bool)
  | stopFlushing
  | sourceFlushed (id : SourceId)
  | handleFlushCompleted
  | notifyFlushCompleted
  | handleEos (current : GstState)
  | delegate (e : PullMode.Event)

/-- The steps of a delegate that are sections of a flush. -/
def isFlushEvent : PullMode.Event → Bool
  | .startFlushing | .flushServer | .stopFlushing | .handleFlushCompleted => true
  | _ => false

/-- The message that `handleEos` posts, if any. -/
def postedByHandleEos (delegate : PullMode.State) (current : GstState) : Option GstMessage :=
  if current ≠ .paused ∧ current ≠ .playing then some .error
  else if !delegate.isSinkFlushOngoing && !delegate.isServerFlushOngoing then some .eos
  else none

/-- A position query fails during a flush of the server that resets the time. -/
def skipsPositionQuery (delegate : PullMode.State) : Bool :=
  delegate.isServerFlushOngoing && delegate.isTimeResetOngoing

namespace World

/-- `m_isFlushing` of an attached source. -/
def isFlushing (w : World) (id : SourceId) : Bool :=
  (w.client.attachedSources.lookup id).any (·.isFlushing)

/-- One section. The worker runs `flush` and the messages of its queue one at a
time, the sink's thread one event at a time. -/
def step (w : World) : Section → Option World
  | .startFlushing =>
      if w.sink = .idle ∨ w.sink = .started then
        some { w with delegate := w.delegate.startFlushing, sink := .started, ongoing := true }
      else none
  | .flushServer =>
      if w.sink = .idle ∨ w.sink = .started then
        some { w with delegate := w.delegate.flushServer, sink := .flushedServer }
      else none
  | .notifyFlushStarted =>
      if w.sink = .flushedServer then
        some { w with
          synchronizer := w.synchronizer.notifyFlushStarted w.sourceId, sink := .notified }
      else none
  | .flush resetTime answer =>
      if w.sink = .notified ∧ w.worker = .idle then
        some { w with client := w.client.flush w.sourceId resetTime answer, sink := .flushed }
      else none
  | .stopFlushing =>
      if w.sink = .flushed then
        some { w with delegate := w.delegate.stopFlushing, sink := .idle }
      else none
  | .sourceFlushed id =>
      if w.worker = .idle then
        if w.isFlushing id then
          some { w with client := w.client.handleSourceFlushed id, worker := .confirming id }
        else some w
      else none
  | .handleFlushCompleted =>
      match w.worker with
      | .confirming id =>
          if id = w.sourceId then
            some { w with
              delegate := w.delegate.handleFlushCompleted
              worker := .completed id
              ongoing := false }
          else some { w with worker := .completed id }
      | _ => none
  | .notifyFlushCompleted =>
      match w.worker with
      | .completed id =>
          some { w with
            synchronizer := w.synchronizer.notifyFlushCompleted id, worker := .idle }
      | _ => none
  | .handleEos current =>
      if w.worker = .idle then
        some { w with
          messages := w.messages ++
            ((postedByHandleEos w.delegate current).map (·, w.ongoing)).toList }
      else none
  | .delegate e =>
      if isFlushEvent e then none
      else (w.delegate.step e).map fun delegate ↦ { w with delegate }

end World

/-- One sink and the worker of its client, from any world on. -/
def sections : Machine World Section where
  step := World.step

end RialtoGStreamer.Flush
