import RialtoGStreamer.MessageQueue.Mailbox
import RialtoGStreamer.NeedData.Model

/-!
# Need-data requests over the queues themselves

The client with the backend queue and the queues of its pullers, each of them a
`rialto::MessageQueue` with all its steps. A handler is not one step either: the
worker posts to a puller, posts an error or waits for the destructor of a puller
by the steps of the queue concerned, and any number of threads post meanwhile.
-/

namespace RialtoGStreamer.NeedData

open Library MediaPlayerClient
open MessageQueue (Thread)

/-- The threads that use the backend queue, besides its worker. -/
inductive Poster (τ : Type*) where
  | thread (t : τ)
  | puller (i : ℕ)
  deriving DecidableEq

/-- Where the handler of the worker's message is. `requesting` is inside the
`postMessage` of a puller's queue, which had accepted so many messages before,
`failing` inside the post of an error, `removing` inside the destructor of a
puller. -/
inductive HandlerPc where
  | entered
  | requesting (puller accepted : ℕ)
  | failing (r : Request)
  | removing (puller : ℕ)
  | returned
  deriving DecidableEq

/-- A `BufferPuller` that was started. Only the worker of the backend queue uses its
queue. `answered` says that the handler of its message has come to the post of the
answer. -/
structure QueuedPuller where
  queue : MessageQueue.State Unit Request := .started _ _
  answered : Bool := false

/-- As in `State`, `pullers` holds every puller that was ever started. -/
structure Queues (τ : Type*) where
  backend : MessageQueue.State (Poster τ) Message := .started _ _
  handler : HandlerPc := .entered
  attachedSources : Table SourceId ℕ := ∅
  pullers : List QueuedPuller := []
  haveData : List (MediaSourceStatus × ℕ) := []

/-- A thread enters an operation, or the handler of a message posts another one.
`advance` and `advancePuller` are the next step of a thread inside an operation on a
queue, `work` and `workPuller` of the loop of a worker, `handle` of the handler of
the worker. `haveData` is the end of the loop over the frames. -/
inductive QueuesEvent (τ : Type*) where
  | notifyNeedMediaData (t : τ) (r : Request)
  | call (t : τ) (operation : Message)
  | post (t : τ)
  | postFromHandler
  | advance (u : Thread (Poster τ))
  | work
  | handle
  | advancePuller (puller : ℕ)
  | workPuller (puller : ℕ)
  | haveData (puller : ℕ) (status : MediaSourceStatus)

namespace Queues

variable {τ : Type*} [DecidableEq τ]

/-- A step of the backend queue. -/
def stepBackend (s : Queues τ) (e : MessageQueue.Event (Poster τ) Message) : Option (Queues τ) :=
  (s.backend.step e).map fun queue ↦ { s with backend := queue }

def setPuller (s : Queues τ) (puller : ℕ) (p : QueuedPuller) : Queues τ :=
  { s with pullers := s.pullers.set puller p }

/-- A step of the queue of a puller. -/
def stepPuller (s : Queues τ) (puller : ℕ) (e : MessageQueue.Event Unit Request) :
    Option (Queues τ) :=
  match s.pullers[puller]? with
  | some p => (p.queue.step e).map fun queue ↦ s.setPuller puller { p with queue }
  | none => none

/-- The error path of `NeedDataMessage::handle`. -/
def fail (s : Queues τ) (r : Request) : Option (Queues τ) :=
  { s with handler := .failing r }.stepBackend
    (.begin .worker (.postMessage (.haveData .error r)))

/-- `requestPullBuffer` up to the post to the puller. -/
def requestPullBuffer (s : Queues τ) (r : Request) : Option (Queues τ) :=
  match s.attachedSources.lookup r.sourceId with
  | some puller =>
      match s.pullers[puller]? with
      | some p =>
          { s with handler := .requesting puller p.queue.accepted.length }.stepPuller puller
            (.begin (.client ()) (.postMessage r))
      | none => none
  | none => s.fail r

/-- The post to the puller has returned false. -/
def isRefused (s : Queues τ) (puller accepted : ℕ) : Bool :=
  (s.pullers[puller]?).any fun p ↦
    p.queue.pc (.client ()) = .idle && p.queue.accepted.length = accepted

/-- `handle` of the message of the worker, up to the next step of a queue. -/
def handle (s : Queues τ) (m : Message) : Option (Queues τ) :=
  match s.handler, m with
  | .entered, .needData r => s.requestPullBuffer r
  | .requesting puller accepted, .needData r =>
      if s.isRefused puller accepted then s.fail r else none
  | .entered, .haveData status r =>
      some { s with
        haveData :=
          if (s.attachedSources.lookup r.sourceId).isSome then
            s.haveData ++ [(status, r.needDataRequestId)]
          else s.haveData
        handler := .returned }
  | .entered, .attachSource id result =>
      if result = true ∧ s.attachedSources.lookup id = none then
        some { s with
          attachedSources := s.attachedSources.insert id s.pullers.length
          pullers := s.pullers ++ [{}]
          handler := .returned }
      else some { s with handler := .returned }
  | .entered, .removeSource id =>
      match s.attachedSources.lookup id with
      | some puller =>
          { s with
            attachedSources := s.attachedSources.erase id
            handler := .removing puller }.stepPuller puller (.begin (.client ()) .stop)
      | none => some { s with handler := .returned }
  | .entered, .other => some { s with handler := .returned }
  | _, _ => none

/-- The handler is done, apart from an operation of the worker on its own queue. -/
def mayReturn (s : Queues τ) : Bool :=
  match s.handler with
  | .entered => false
  | .requesting puller accepted =>
      (s.pullers[puller]?).any fun p ↦
        p.queue.pc (.client ()) = .idle && accepted < p.queue.accepted.length
  | .removing puller => (s.pullers[puller]?).any fun p ↦ p.queue.pc (.client ()) = .idle
  | .failing _ | .returned => true

/-- The loop of the worker of the backend queue. -/
def work (s : Queues τ) : Option (Queues τ) :=
  if s.backend.worker.busy = none ∨ s.mayReturn then
    { s with handler := .entered }.stepBackend .work
  else none

/-- The loop of the thread of a puller. -/
def workPuller (s : Queues τ) (puller : ℕ) (p : QueuedPuller) : Option (Queues τ) :=
  if p.queue.worker.busy = none ∨
      (p.answered ∧ s.backend.pc (.client (.puller puller)) = .idle) then
    (p.queue.step .work).map fun queue ↦ s.setPuller puller { queue, answered := false }
  else none

/-- The end of `PullBufferMessage::handle`. -/
def answer (s : Queues τ) (puller : ℕ) (p : QueuedPuller) (status : MediaSourceStatus) :
    Option (Queues τ) :=
  match p.queue.worker.busy with
  | some r =>
      if p.answered then none
      else (s.setPuller puller { p with answered := true }).stepBackend
        (.begin (.client (.puller puller)) (.postMessage (.haveData status r)))
  | none => none

def step (s : Queues τ) : QueuesEvent τ → Option (Queues τ)
  | .notifyNeedMediaData t r =>
      s.stepBackend (.begin (.client (.thread t)) (.postMessage (.needData r)))
  | .call t operation =>
      match operation with
      | .attachSource _ _ | .removeSource _ | .other =>
          s.stepBackend (.begin (.client (.thread t)) (.callInEventLoop operation))
      | .needData _ | .haveData _ _ => none
  | .post t => s.stepBackend (.begin (.client (.thread t)) (.postMessage .other))
  | .postFromHandler =>
      if s.backend.worker.busy = some .other then
        s.stepBackend (.begin .worker (.postMessage .other))
      else none
  | .advance u => s.stepBackend (.advance u)
  | .work => s.work
  | .handle => s.backend.worker.busy.bind s.handle
  | .advancePuller puller => s.stepPuller puller (.advance (.client ()))
  | .workPuller puller => (s.pullers[puller]?).bind (s.workPuller puller)
  | .haveData puller status => (s.pullers[puller]?).bind fun p ↦ s.answer puller p status

end Queues

/-- The client with any number of threads, and any number of sources, never stopped. -/
def queues (τ : Type*) [DecidableEq τ] : Machine (Queues τ) (QueuesEvent τ) where
  step := Queues.step

end RialtoGStreamer.NeedData
