import RialtoGStreamer.MessageQueue.Model
import RialtoGStreamer.NeedData.Model

/-!
# The end of a media player client

The queue of the client and the queues of its pullers, each one a
`rialto::MessageQueue` with all its steps, and the threads between them: the
worker of the client, the pullers, any number of threads that notify or call the
client, and the thread of the last manager, which stops the queues and destroys
the backend. An event is one step of one of these threads.
-/

namespace RialtoGStreamer.Teardown

open Library MediaPlayerClient
open MessageQueue (Thread Operation)
open NeedData (Request MediaSourceStatus)

/-- The threads that use the queue of the client, besides its worker. -/
inductive Caller (τ : Type*) where
  | thread (t : τ)
  | puller (i : ℕ)
  deriving DecidableEq

/-- The threads that use the queue of a puller, besides its worker. -/
inductive PullerCaller (τ : Type*) where
  | thread (t : τ)
  | backendWorker
  deriving DecidableEq

/-- Where `PullBufferMessage::handle` is: at the top of its loop, inside
`addSegment`, or behind the post of its `HaveDataMessage`. Between two messages
the puller is at the top of the loop of the next one. -/
inductive PullPc where
  | frame (k : ℕ)
  | addSegment (k : ℕ)
  | answered
  deriving DecidableEq

/-- A `BufferPuller` that was started. `source` is the attached source that it
belongs to; it is `none` from the moment that the source is erased. -/
structure Puller (τ : Type*) where
  queue : MessageQueue.State (PullerCaller τ) Request := .started _ _
  source : Option SourceId
  pc : PullPc := .frame 0

/-- Who invokes a method of the backend: the worker of the client, or a puller
that adds a segment. -/
inductive Invocation where
  | worker
  | addSegment (i : ℕ)
  deriving DecidableEq

/-- Where the last manager is in `releaseMediaPlayerClient`: before `stop`, before
the stop of the client's queue, inside it, and between the stops of the pullers,
of which `rest` are left. -/
inductive ReleasePc where
  | stop
  | stopQueue
  | join
  | stopPullers (rest : List ℕ)
  | destroyed
  deriving DecidableEq

/-- `managers` counts the managers that share the client, `releasing` is the
thread of the last one. `invocations` is the history: the methods of the backend
that were invoked. -/
structure State (τ : Type*) where
  backend : MessageQueue.State (Caller τ) NeedData.Message := .started _ _
  pullers : List (Puller τ) := []
  managers : ℕ := 1
  releasing : Option (τ × ReleasePc) := none
  invocations : List Invocation := []

/-- What the worker does while it handles a message. -/
inductive Action where
  | invoke
  | requestPullBuffer (r : Request)
  | postMessage (m : NeedData.Message)
  | callInEventLoop (m : NeedData.Message)
  | attachSource (id : SourceId)
  | removeSource (id : SourceId)

/-- A step of `PullBufferMessage::handle`; `skip` is a buffer that cannot be
mapped or parsed, and `haveData` leaves the loop. -/
inductive PullStep where
  | addSegment
  | added (noSpace : Bool)
  | skip
  | haveData (status : MediaSourceStatus)

/-- `call` enters an operation of a thread outside, `advance` takes the next step
of a thread inside a queue, `work` and `workPuller` of a worker between two
messages, `act` and `pull` of a worker inside one. `release` is a manager that
releases the client, `teardown` the next step of the last one; `next` is the
puller that it stops. -/
inductive Event (τ : Type*) where
  | call (t : τ) (op : Operation NeedData.Message)
  | advance (u : Thread (Caller τ))
  | advancePuller (i : ℕ) (u : Thread (PullerCaller τ))
  | work
  | workPuller (i : ℕ)
  | act (a : Action)
  | pull (i : ℕ) (step : PullStep)
  | attach
  | release (t : τ)
  | teardown (next : ℕ)

variable {τ : Type*} [DecidableEq τ]

namespace State

/-- The puller of an attached source. -/
def attached? (s : State τ) (id : SourceId) : Option ℕ :=
  s.pullers.findIdx? fun p ↦ p.source = some id

def setPuller (s : State τ) (i : ℕ) (p : Puller τ) : State τ :=
  { s with pullers := s.pullers.set i p }

/-- A step of the client's queue. -/
def stepQueue (s : State τ) (e : MessageQueue.Event (Caller τ) NeedData.Message) :
    Option (State τ) :=
  (s.backend.step e).map fun queue ↦ { s with backend := queue }

/-- A step of the queue of puller `i`. -/
def stepPuller (s : State τ) (i : ℕ) (e : MessageQueue.Event (PullerCaller τ) Request) :
    Option (State τ) :=
  match s.pullers[i]? with
  | some p => (p.queue.step e).map fun queue ↦ s.setPuller i { p with queue := queue }
  | none => none

/-- The worker is inside no operation on any queue. -/
def workerFree (s : State τ) : Bool :=
  s.backend.pc .worker = .idle ∧ ∀ p ∈ s.pullers, p.queue.pc (.client .backendWorker) = .idle

/-- What the handler of a message may do: `NeedDataMessage::handle`,
`HaveDataMessage::handle`, the functions of `attachSource` and `removeSource`, and
those of all the other operations and notifications. How often and in which order
is left open. -/
def may (s : State τ) : NeedData.Message → Action → Bool
  | .needData r, .requestPullBuffer r' => r' = r
  | .needData r, .postMessage m => m = .haveData .error r
  | .haveData _ r, .invoke => (s.attached? r.sourceId).isSome
  | .attachSource id result, .attachSource id' => result && id' = id
  | .removeSource id, .removeSource id' => id' = id
  | .attachSource _ _, .invoke | .removeSource _, .invoke => true
  | .other, .invoke | .other, .postMessage _ | .other, .callInEventLoop _ => true
  | _, _ => false

/-- A source whose id is attached already gets no puller. The erasure of a source
destroys its puller, and with it the puller's queue, which the destructor stops. -/
def perform (s : State τ) : Action → Option (State τ)
  | .invoke => some { s with invocations := s.invocations ++ [.worker] }
  | .requestPullBuffer r =>
      match s.attached? r.sourceId with
      | some i => s.stepPuller i (.begin (.client .backendWorker) (.postMessage r))
      | none => none
  | .postMessage m => s.stepQueue (.begin .worker (.postMessage m))
  | .callInEventLoop m => s.stepQueue (.begin .worker (.callInEventLoop m))
  | .attachSource id =>
      match s.attached? id with
      | some _ => none
      | none => some { s with pullers := s.pullers ++ [{ source := some id }] }
  | .removeSource id =>
      match s.attached? id with
      | some i =>
          match s.pullers[i]? with
          | some p =>
              (s.setPuller i { p with source := none }).stepPuller i
                (.begin (.client .backendWorker) .stop)
          | none => none
      | none => none

def act (s : State τ) (a : Action) : Option (State τ) :=
  match s.backend.worker with
  | .handling (.posted _ m) => if s.workerFree && s.may m a then s.perform a else none
  | _ => none

/-- `PullBufferMessage::handle` of puller `i`. -/
def pull (s : State τ) (i : ℕ) (p : Puller τ) (r : Request) : PullStep → Option (State τ)
  | .addSegment =>
      match p.pc with
      | .frame k =>
          if k < r.frameCount then
            some ({ s with invocations := s.invocations ++ [Invocation.addSegment i] }.setPuller i
              { p with pc := .addSegment k })
          else none
      | _ => none
  | .added noSpace =>
      match p.pc with
      | .addSegment k =>
          some (s.setPuller i { p with pc := .frame (if noSpace then r.frameCount else k + 1) })
      | _ => none
  | .skip =>
      match p.pc with
      | .frame k =>
          if k < r.frameCount then some (s.setPuller i { p with pc := .frame (k + 1) }) else none
      | _ => none
  | .haveData status =>
      match p.pc with
      | .frame _ =>
          (s.setPuller i { p with pc := .answered }).stepQueue
            (.begin (.client (.puller i)) (.postMessage (.haveData status r)))
      | _ => none

/-- The loop of the thread of puller `i`; a message is done when its answer is posted. -/
def workPuller (s : State τ) (i : ℕ) (p : Puller τ) : Option (State τ) :=
  match p.queue.worker with
  | .handling (.posted _ _) =>
      if p.pc = .answered ∧ s.backend.pc (.client (.puller i)) = .idle then
        (s.setPuller i { p with pc := .frame 0 }).stepPuller i .work
      else none
  | _ => s.stepPuller i .work

/-- The pullers of the attached sources. -/
def attachedPullers (s : State τ) : List ℕ :=
  (List.range s.pullers.length).filter fun i ↦ s.pullers[i]?.any fun p ↦ p.source.isSome

/-- `stop`, `stopStreaming` and `destroyClientBackend` of the client, called by the
last manager. Each call returns before the next one is made. -/
def teardown (s : State τ) (t : τ) (next : ℕ) : ReleasePc → Option (State τ)
  | .stop =>
      { s with releasing := some (t, .stopQueue) }.stepQueue
        (.begin (.client (.thread t)) (.callInEventLoop .other))
  | .stopQueue =>
      { s with releasing := some (t, .join) }.stepQueue (.begin (.client (.thread t)) .stop)
  | .join =>
      if s.backend.pc (.client (.thread t)) = .idle then
        some { s with releasing := some (t, .stopPullers s.attachedPullers) }
      else none
  | .stopPullers rest =>
      if ∀ p ∈ s.pullers, p.queue.pc (.client (.thread t)) = .idle then
        if rest = [] then some { s with releasing := some (t, .destroyed) }
        else if next ∈ rest then
          { s with releasing := some (t, .stopPullers (rest.filter (· ≠ next))) }.stepPuller next
            (.begin (.client (.thread t)) .stop)
        else none
      else none
  | .destroyed => none

/-- The backend has been destroyed. -/
def destroyed (s : State τ) : Bool :=
  s.releasing.any fun r ↦ r.2 = .destroyed

/-- The thread is busy with the release. -/
def isReleasing (s : State τ) (t : τ) : Bool :=
  s.releasing.any fun r ↦ r.1 = t && r.2 ≠ .destroyed

def step (s : State τ) : Event τ → Option (State τ)
  | .call t op =>
      match op with
      | .stop | .clear => none
      | _ => if s.isReleasing t then none else s.stepQueue (.begin (.client (.thread t)) op)
  | .advance u => s.stepQueue (.advance u)
  | .advancePuller i u => s.stepPuller i (.advance u)
  | .work => if s.workerFree then s.stepQueue .work else none
  | .workPuller i =>
      match s.pullers[i]? with
      | some p => s.workPuller i p
      | none => none
  | .act a => s.act a
  | .pull i step =>
      match s.pullers[i]? with
      | some p =>
          match p.queue.worker with
          | .handling (.posted _ r) => s.pull i p r step
          | _ => none
      | none => none
  | .attach =>
      if s.releasing = none then some { s with managers := s.managers + 1 } else none
  | .release t =>
      if s.releasing = none ∧ s.backend.pc (.client (.thread t)) = .idle then
        if s.managers = 1 then some { s with managers := 0, releasing := some (t, .stop) }
        else some { s with managers := s.managers - 1 }
      else none
  | .teardown next =>
      match s.releasing with
      | some (t, pc) => s.teardown t next pc
      | none => none

end State

/-- A client that was created by one manager, with any number of threads. -/
def machine (τ : Type*) [DecidableEq τ] : Machine (State τ) (Event τ) where
  step := State.step

end RialtoGStreamer.Teardown
