import Mathlib.Data.List.Basic
import Mathlib.Logic.Function.Basic
import RialtoGStreamer.Library.Machine

/-!
# The message queue and its worker

`rialto::MessageQueue` with its two atomics, its mutex and its worker thread.
Every lock, every read or write of an atomic and every step under the lock is
an event of its own, so a run is one interleaving of the worker with any
number of threads that post, call and stop.
-/

namespace RialtoGStreamer.MessageQueue

open Library

/-- The worker runs `processMessages`; all the other threads only use the queue. -/
inductive Thread (τ : Type*) where
  | worker
  | client (t : τ)
  deriving DecidableEq

/-- What `m_queue` holds. A posted message carries the number of messages that
were accepted before it. A `halt` is the `CallInEventLoopMessage` which `doStop`
pushes past the test of `postMessage` and whose function clears `m_running`;
these are numbered as well. -/
inductive Message (μ : Type*) where
  | posted (ticket : ℕ) (m : μ)
  | halt (ticket : ℕ)
  deriving DecidableEq

/-- Where a thread is inside `postMessage`. -/
inductive PostPhase where
  | entering
  | locked
  | sawRunning
  | sawAccepting
  deriving DecidableEq

/-- Where a thread is inside `doStop`, before the final `doClear`. `refuse`,
`halt` and `detach` are the branch of the worker itself, `lock` to `join` the
branch of any other thread. -/
inductive StopPhase where
  | testRunning
  | compareThread
  | refuse
  | halt
  | detach
  | lock
  | refuseLocked
  | push
  | await (ticket : ℕ)
  | join
  deriving DecidableEq

/-- The queue operation a thread is executing. `call` tells `callInEventLoop`,
which waits for its message, from a plain post; `stop` tells the `doClear` at
the end of `doStop` from the one of `clear`. -/
inductive Pc (μ : Type*) where
  | idle
  | posting (m : μ) (call : Bool) (phase : PostPhase)
  | awaiting (ticket : ℕ) (m : μ)
  | stopping (phase : StopPhase)
  | clearing (stop locked : Bool)
  deriving DecidableEq

/-- Where the worker is inside `processMessages`. -/
inductive WorkerPc (μ : Type*) where
  | waiting
  | locked
  | popped (m : Message μ)
  | handling (m : Message μ)
  | halted (ticket : ℕ)
  | testing
  | left
  deriving DecidableEq

/-- The members of `MessageQueue` and the positions of the threads, followed by
the history of the queue, each list in the order in which things happened. -/
structure State (τ μ : Type*) where
  queue : List (Message μ)
  running : Bool
  acceptingMessages : Bool
  mutex : Option (Thread τ)
  /-- `m_workerThread` still denotes the worker: neither detached nor joined. -/
  workerThread : Bool
  worker : WorkerPc μ
  pc : Thread τ → Pc μ
  /-- Tickets of the messages whose `m_done` is set. -/
  done : List ℕ
  /-- How many messages `doStop` has pushed, and which of them have `m_done` set. -/
  halts : ℕ
  haltDone : List ℕ
  accepted : List (ℕ × μ)
  handled : List (ℕ × μ)
  skipped : List (ℕ × μ)
  /-- Functions that `callInEventLoop` ran in place, on the worker. -/
  inPlace : List μ
  /-- What the calls of `callInEventLoop` returned. -/
  returned : List (μ × Bool)
  /-- The threads that issued a stop, and those whose stop has returned. -/
  stops : List (Thread τ)
  stopped : List (Thread τ)

/-- The queue after `start`. -/
def State.started (τ μ : Type*) : State τ μ where
  queue := []
  running := true
  acceptingMessages := true
  mutex := none
  workerThread := true
  worker := .waiting
  pc := fun _ ↦ .idle
  done := []
  halts := 0
  haltDone := []
  accepted := []
  handled := []
  skipped := []
  inPlace := []
  returned := []
  stops := []
  stopped := []

inductive Operation (μ : Type*) where
  | postMessage (m : μ)
  | scheduleInEventLoop (m : μ)
  | callInEventLoop (m : μ)
  | stop
  | clear

/-- `begin` enters an operation, `advance` takes the next atomic step of the
operation a thread is in, `work` the next one of the worker's loop. -/
inductive Event (τ μ : Type*) where
  | begin (t : Thread τ) (op : Operation μ)
  | advance (t : Thread τ)
  | work

variable {τ μ : Type*} [DecidableEq τ]

namespace State

def goto (s : State τ μ) (t : Thread τ) (p : Pc μ) : State τ μ :=
  { s with pc := Function.update s.pc t p }

@[simp] theorem goto_pc (s : State τ μ) (t u : Thread τ) (p : Pc μ) :
    (s.goto t p).pc u = if u = t then p else s.pc u := by
  simp [goto, Function.update_apply]

@[simp] theorem goto_queue (s : State τ μ) (t : Thread τ) (p : Pc μ) :
    (s.goto t p).queue = s.queue := rfl

@[simp] theorem goto_worker (s : State τ μ) (t : Thread τ) (p : Pc μ) :
    (s.goto t p).worker = s.worker := rfl

@[simp] theorem goto_accepted (s : State τ μ) (t : Thread τ) (p : Pc μ) :
    (s.goto t p).accepted = s.accepted := rfl

@[simp] theorem goto_handled (s : State τ μ) (t : Thread τ) (p : Pc μ) :
    (s.goto t p).handled = s.handled := rfl

@[simp] theorem goto_skipped (s : State τ μ) (t : Thread τ) (p : Pc μ) :
    (s.goto t p).skipped = s.skipped := rfl

@[simp] theorem goto_stops (s : State τ μ) (t : Thread τ) (p : Pc μ) :
    (s.goto t p).stops = s.stops := rfl

@[simp] theorem goto_stopped (s : State τ μ) (t : Thread τ) (p : Pc μ) :
    (s.goto t p).stopped = s.stopped := rfl

/-- A thread other than the worker may use the queue at any time, the worker
only from within the message it is handling. -/
def mayCall (s : State τ μ) : Thread τ → Bool
  | .client _ => true
  | .worker => match s.worker with
    | .handling (.posted _ _) => true
    | _ => false

/-- The first step of an operation. On the worker `callInEventLoop` runs the
function in place, as long as `m_workerThread` denotes the worker. -/
def enter (s : State τ μ) (t : Thread τ) : Operation μ → State τ μ
  | .postMessage m => s.goto t (.posting m false .entering)
  | .scheduleInEventLoop m => s.goto t (.posting m false .entering)
  | .callInEventLoop m =>
      if t = .worker ∧ s.workerThread then
        { s with inPlace := s.inPlace ++ [m], returned := s.returned ++ [(m, true)] }
      else s.goto t (.posting m true .entering)
  | .stop => { s with stops := s.stops ++ [t] }.goto t (.stopping .testRunning)
  | .clear => s.goto t (.clearing false false)

/-- `postMessage` returns false, and with it a `callInEventLoop` around it. -/
def reject (s : State τ μ) (t : Thread τ) (m : μ) (call : Bool) : State τ μ :=
  { s with
    mutex := none
    returned := if call then s.returned ++ [(m, false)] else s.returned }.goto t .idle

def postMessage (s : State τ μ) (t : Thread τ) (m : μ) (call : Bool) :
    PostPhase → Option (State τ μ)
  | .entering =>
      if s.mutex = none then
        some ({ s with mutex := some t }.goto t (.posting m call .locked))
      else none
  | .locked =>
      if s.running then some (s.goto t (.posting m call .sawRunning))
      else some (s.reject t m call)
  | .sawRunning =>
      if s.acceptingMessages then some (s.goto t (.posting m call .sawAccepting))
      else some (s.reject t m call)
  | .sawAccepting =>
      let ticket := s.accepted.length
      some ({ s with
        queue := s.queue ++ [Message.posted ticket m]
        accepted := s.accepted ++ [(ticket, m)]
        mutex := none }.goto t (if call then .awaiting ticket m else .idle))

/-- `MessageQueue::doStop` up to its call of `doClear`. -/
def doStop (s : State τ μ) (t : Thread τ) : StopPhase → Option (State τ μ)
  | .testRunning =>
      if s.running then some (s.goto t (.stopping .compareThread))
      else some ({ s with stopped := s.stopped ++ [t] }.goto t .idle)
  | .compareThread =>
      if t = .worker ∧ s.workerThread then some (s.goto t (.stopping .refuse))
      else some (s.goto t (.stopping .lock))
  | .refuse => some ({ s with acceptingMessages := false }.goto t (.stopping .halt))
  | .halt => some ({ s with running := false }.goto t (.stopping .detach))
  | .detach => some ({ s with workerThread := false }.goto t (.clearing true false))
  | .lock =>
      if s.mutex = none then
        some ({ s with mutex := some t }.goto t (.stopping .refuseLocked))
      else none
  | .refuseLocked => some ({ s with acceptingMessages := false }.goto t (.stopping .push))
  | .push =>
      some ({ s with
        queue := s.queue ++ [Message.halt s.halts]
        halts := s.halts + 1
        mutex := none }.goto t (.stopping (.await s.halts)))
  | .await k => if k ∈ s.haltDone then some (s.goto t (.stopping .join)) else none
  | .join =>
      if s.workerThread = false then some (s.goto t (.clearing true false))
      else match s.worker with
        | .left => some ({ s with workerThread := false }.goto t (.clearing true false))
        | _ => none

/-- The body of the loop of `doClear`: skip the front message and pop it. -/
def skipFront (s : State τ μ) (rest : List (Message μ)) : Message μ → State τ μ
  | .posted k m =>
      { s with queue := rest, skipped := s.skipped ++ [(k, m)], done := s.done ++ [k] }
  | .halt k => { s with queue := rest, haltDone := s.haltDone ++ [k] }

def doClear (s : State τ μ) (t : Thread τ) (stop : Bool) : Bool → Option (State τ μ)
  | false =>
      if s.mutex = none then
        some ({ s with mutex := some t }.goto t (.clearing stop true))
      else none
  | true =>
      match s.queue with
      | m :: rest => some (s.skipFront rest m)
      | [] => some ({ s with
          mutex := none
          stopped := if stop then s.stopped ++ [t] else s.stopped }.goto t .idle)

/-- `MessageQueue::processMessages` with `waitForMessage` inlined. A wait on
`m_condVar` releases the mutex and may end at any time. -/
def processMessages (s : State τ μ) : Option (State τ μ) :=
  match s.worker with
  | .waiting =>
      if s.mutex = none then some { s with mutex := some .worker, worker := .locked }
      else none
  | .locked =>
      match s.queue with
      | [] => some { s with mutex := none, worker := .waiting }
      | m :: rest => some { s with queue := rest, mutex := none, worker := .popped m }
  | .popped (.posted k m) =>
      some { s with handled := s.handled ++ [(k, m)], worker := .handling (.posted k m) }
  | .popped (.halt k) => some { s with worker := .handling (.halt k) }
  | .handling (.posted k _) =>
      match s.pc .worker with
      | .idle => some { s with done := s.done ++ [k], worker := .testing }
      | _ => none
  | .handling (.halt k) => some { s with running := false, worker := .halted k }
  | .halted k => some { s with haltDone := s.haltDone ++ [k], worker := .testing }
  | .testing => some { s with worker := if s.running then .waiting else .left }
  | .left => none

def step (s : State τ μ) : Event τ μ → Option (State τ μ)
  | .begin t op =>
      match s.pc t with
      | .idle => if s.mayCall t then some (s.enter t op) else none
      | _ => none
  | .advance t =>
      match s.pc t with
      | .idle => none
      | .posting m call phase => s.postMessage t m call phase
      | .awaiting k m =>
          if k ∈ s.done then some ({ s with returned := s.returned ++ [(m, true)] }.goto t .idle)
          else none
      | .stopping phase => s.doStop t phase
      | .clearing stop locked => s.doClear t stop locked
  | .work => s.processMessages

end State

/-- Any number of threads around one queue. -/
def machine (τ μ : Type*) [DecidableEq τ] : Machine (State τ μ) (Event τ μ) where
  step := State.step

end RialtoGStreamer.MessageQueue
