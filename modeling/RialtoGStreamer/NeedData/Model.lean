import RialtoGStreamer.MediaPlayerClient.Model

/-!
# Need-data requests across the two queues

A request enters the backend queue as a `NeedDataMessage`, moves to the queue
of the puller of its source as a `PullBufferMessage`, and comes back to the
backend queue as a `HaveDataMessage`. Both queues deliver in order what they
accepted, and neither is stopped here, except that `removeSource` destroys the
puller of its source: the destructor of the puller's queue makes the worker
wait until everything in it is handled.
-/

namespace RialtoGStreamer.NeedData

open Library MediaPlayerClient

/-- The arguments of `notifyNeedMediaData`. -/
structure Request where
  sourceId : SourceId
  frameCount : ℕ
  needDataRequestId : ℕ
  deriving DecidableEq

inductive MediaSourceStatus where
  | ok
  | eos
  | error
  | noAvailableSamples
  deriving DecidableEq

/-- What the backend queue holds. `other` is any operation that neither
attaches nor removes a source. -/
inductive Message where
  | needData (r : Request)
  | haveData (status : MediaSourceStatus) (r : Request)
  | attachSource (id : SourceId) (result : Bool)
  | removeSource (id : SourceId)
  | other
  deriving DecidableEq

/-- A `BufferPuller`: the requests of its queued messages, and the one its
thread is handling. -/
structure Puller where
  queue : List Request := []
  busy : Option Request := none
  deriving DecidableEq

/-- Where the worker of the backend queue is: between two messages, in the
error path of `NeedDataMessage::handle`, or in the destructor of a puller. -/
inductive WorkerPc where
  | idle
  | failing (r : Request)
  | removing (puller : ℕ)
  deriving DecidableEq

/-- A `HaveDataMessage` that was handled: whether the source was attached then,
and whether it had been since the handling of the `NeedDataMessage`. -/
structure Answer where
  request : Request
  status : MediaSourceStatus
  attached : Bool
  steady : Bool
  deriving DecidableEq

/-- `pullers` holds every puller that was ever started, and an attached source
the index of its own. The last four fields are the history: the accepted
requests, those whose source has stayed attached since their `NeedDataMessage`
was handled, the handled answers, and the calls of the backend's `haveData`. -/
structure State where
  backendQueue : List Message := []
  worker : WorkerPc := .idle
  attachedSources : Table SourceId ℕ := ∅
  pullers : List Puller := []
  accepted : List Request := []
  steady : List Request := []
  answers : List Answer := []
  haveData : List (MediaSourceStatus × ℕ) := []

inductive Event where
  | notifyNeedMediaData (r : Request)
  | call (operation : Message)
  | handle
  | postError
  | destroyed
  | take (puller : ℕ)
  | finish (puller : ℕ) (status : MediaSourceStatus)

namespace State

def post (s : State) (m : Message) : State :=
  { s with backendQueue := s.backendQueue ++ [m] }

/-- `requestPullBuffer` of the puller: post a `PullBufferMessage`. -/
def requestPullBuffer (s : State) (puller : ℕ) (r : Request) : State :=
  match s.pullers[puller]? with
  | some p => { s with pullers := s.pullers.set puller { p with queue := p.queue ++ [r] } }
  | none => s

/-- `handle` of the message in front of the backend queue. -/
def handle (s : State) : Message → State
  | .needData r =>
      match s.attachedSources.lookup r.sourceId with
      | some puller => { s.requestPullBuffer puller r with steady := r :: s.steady }
      | none => { s with worker := .failing r }
  | .haveData status r =>
      let attached := (s.attachedSources.lookup r.sourceId).isSome
      let answer := ⟨r, status, attached, r ∈ s.steady⟩
      { s with
        answers := s.answers ++ [answer]
        haveData :=
          if attached then s.haveData ++ [(status, r.needDataRequestId)] else s.haveData }
  | .attachSource id result =>
      if result = true ∧ s.attachedSources.lookup id = none then
        { s with
          attachedSources := s.attachedSources.insert id s.pullers.length
          pullers := s.pullers ++ [{}] }
      else s
  | .removeSource id =>
      match s.attachedSources.lookup id with
      | some puller => { s with
          attachedSources := s.attachedSources.erase id
          steady := s.steady.filter (·.sourceId ≠ id)
          worker := .removing puller }
      | none => s
  | .other => s

/-- A step of one of the threads: the worker, a puller, or one that posts. The
status of a pull is whatever the delegate and the server make of it. -/
def step (s : State) : Event → Option State
  | .notifyNeedMediaData r => some { s.post (.needData r) with accepted := s.accepted ++ [r] }
  | .call operation =>
      match operation with
      | .attachSource id result => some (s.post (.attachSource id result))
      | .removeSource id => some (s.post (.removeSource id))
      | .other => some (s.post .other)
      | .needData _ | .haveData _ _ => none
  | .handle =>
      match s.worker, s.backendQueue with
      | .idle, m :: rest => some ({ s with backendQueue := rest }.handle m)
      | _, _ => none
  | .postError =>
      match s.worker with
      | .failing r => some { s.post (.haveData .error r) with worker := .idle }
      | _ => none
  | .destroyed =>
      match s.worker with
      | .removing puller =>
          if s.pullers[puller]? = some {} then some { s with worker := .idle } else none
      | _ => none
  | .take puller =>
      match s.pullers[puller]? with
      | some ⟨r :: rest, none⟩ =>
          some { s with pullers := s.pullers.set puller ⟨rest, some r⟩ }
      | _ => none
  | .finish puller status =>
      match s.pullers[puller]? with
      | some ⟨queue, some r⟩ =>
          some { s.post (.haveData status r) with pullers := s.pullers.set puller ⟨queue, none⟩ }
      | _ => none

/-- Both queues are drained, and nobody is handling a message. -/
def drained (s : State) : Prop :=
  s.backendQueue = [] ∧ s.worker = .idle ∧ ∀ p ∈ s.pullers, p = {}

end State

/-- The client with any number of sources, never stopped. -/
def machine : Machine State Event where
  step := State.step

end RialtoGStreamer.NeedData
