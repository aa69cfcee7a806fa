import RialtoGStreamer.NeedData.Queues

/-!
# What the queues show, and what keeps them wired

Seen from outside, a message moves at one moment: it is posted when the queue
accepts it, a request reaches its puller when the puller's queue accepts it, and an
answer is given when the backend queue accepts that. What a thread is doing inside a
queue fits what the handler of its message has come to; the two change together.
-/

namespace RialtoGStreamer.NeedData

open Library MediaPlayerClient
open MessageQueue (Thread Ready)

variable {τ : Type*} [DecidableEq τ]

/-! ## What the queues show -/

/-- The worker is inside `postMessage` of a puller's queue. -/
def Queues.isPosting (s : Queues τ) (puller : ℕ) : Bool :=
  (s.pullers[puller]?).any fun p ↦ p.queue.pc (.client ()) ≠ .idle

/-- The message of the worker has not had its effect yet. -/
def Queues.isAhead (s : Queues τ) : Bool :=
  match s.handler with
  | .entered => true
  | .requesting puller _ => s.isPosting puller
  | .failing _ | .removing _ | .returned => false

def Queues.front (s : Queues τ) : List Message :=
  if s.isAhead then s.backend.worker.busy.toList else []

def Queues.workerPc (s : Queues τ) : WorkerPc :=
  match s.handler with
  | .failing r => if s.backend.pc .worker = .idle then .idle else .failing r
  | .removing puller => .removing puller
  | .entered | .requesting _ _ | .returned => .idle

/-- `posting` says that the answer is not accepted yet. -/
def QueuedPuller.shown (p : QueuedPuller) (posting : Bool) : Puller :=
  ⟨p.queue.pending, if p.answered && !posting then none else p.queue.worker.busy⟩

/-- The thread of a puller is inside `postMessage` of the backend queue. -/
def Queues.isAnswering (s : Queues τ) (puller : ℕ) : Bool :=
  s.backend.pc (.client (.puller puller)) ≠ .idle

def Queues.puller (s : Queues τ) (i : ℕ) : Option Puller :=
  (s.pullers[i]?).map fun p ↦ p.shown (s.isAnswering i)

def Message.notified : Message → Option Request
  | .needData r => some r
  | .haveData _ _ | .attachSource _ _ | .removeSource _ | .other => none

/-- The requests of `notifyNeedMediaData` that the backend queue has accepted. -/
def Queues.accepted (s : Queues τ) : List Request :=
  s.backend.accepted.filterMap fun e ↦ e.2.notified

structure Shows (s : Queues τ) (a : State) : Prop where
  backendQueue : a.backendQueue = s.front ++ s.backend.pending
  worker : a.worker = s.workerPc
  attachedSources : a.attachedSources = s.attachedSources
  pullers : ∀ i, a.pullers[i]? = s.puller i
  accepted : a.accepted = s.accepted
  haveData : a.haveData = s.haveData

/-! ## The threads in their handlers -/

/-- What the worker may be posting to its own queue. -/
inductive WorkerPosts (s : Queues τ) : Prop
  | idle (hpc : s.backend.pc .worker = .idle)
  | failing (r : Request) (phase : MessageQueue.PostPhase) (hhandler : s.handler = .failing r)
      (hpc : s.backend.pc .worker = .posting (.haveData .error r) false phase)
  | other (phase : MessageQueue.PostPhase) (hbusy : s.backend.worker.busy = some .other)
      (hpc : s.backend.pc .worker = .posting .other false phase)

/-- What the thread of puller `i` may be posting. -/
inductive PullerPosts (s : Queues τ) (i : ℕ) : Prop
  | idle (hpc : s.backend.pc (.client (.puller i)) = .idle)
  | answer (p : QueuedPuller) (r : Request) (status : MediaSourceStatus)
      (phase : MessageQueue.PostPhase) (hp : s.pullers[i]? = some p) (hanswered : p.answered = true)
      (hbusy : p.queue.worker.busy = some r)
      (hpc : s.backend.pc (.client (.puller i)) = .posting (.haveData status r) false phase)

/-- The handler fits the message that the worker handles. -/
inductive HandlerFits (s : Queues τ) : Prop
  | entered (hhandler : s.handler = .entered)
  | posting (i n : ℕ) (r : Request) (p : QueuedPuller) (phase : MessageQueue.PostPhase)
      (hhandler : s.handler = .requesting i n) (hbusy : s.backend.worker.busy = some (.needData r))
      (hlookup : s.attachedSources.lookup r.sourceId = some i) (hp : s.pullers[i]? = some p)
      (hpc : p.queue.pc (.client ()) = .posting r false phase) (hn : p.queue.accepted.length = n)
  | posted (i n : ℕ) (r : Request) (p : QueuedPuller) (hhandler : s.handler = .requesting i n)
      (hbusy : s.backend.worker.busy = some (.needData r)) (hp : s.pullers[i]? = some p)
      (hpc : p.queue.pc (.client ()) = .idle) (hn : n < p.queue.accepted.length)
  | failing (r : Request) (hhandler : s.handler = .failing r)
      (hbusy : s.backend.worker.busy = some (.needData r))
  | removing (i : ℕ) (id : SourceId) (p : QueuedPuller) (hhandler : s.handler = .removing i)
      (hbusy : s.backend.worker.busy = some (.removeSource id)) (hp : s.pullers[i]? = some p)
      (hstops : p.queue.stops = [.client ()])
  | returned (m : Message) (hhandler : s.handler = .returned)
      (hbusy : s.backend.worker.busy = some m)

/-- The worker of the backend queue is inside an operation on the queue of `i`. -/
def HandlerPc.uses : HandlerPc → ℕ → Bool
  | .requesting j _, i | .removing j, i => i = j
  | .entered, _ | .failing _, _ | .returned, _ => false

structure PullerWired (handler : HandlerPc) (i : ℕ) (p : QueuedPuller) : Prop where
  ready : Ready p.queue
  stops : p.queue.stops = [] ∨ p.queue.stops = [.client ()]
  worker : p.queue.pc .worker = .idle
  used : p.queue.pc (.client ()) ≠ .idle → handler.uses i = true
  stopping : handler = .removing i →
    p.queue.pc (.client ()) = .idle ∨ (p.queue.pc (.client ())).bystands = false
  answered : p.answered = true → p.queue.worker.busy.isSome = true

structure Wired (s : Queues τ) : Prop where
  ready : Ready s.backend
  stops : s.backend.stops = []
  threads : ∀ t m call phase, s.backend.pc (.client (.thread t)) = .posting m call phase →
    ∀ status r, m ≠ .haveData status r
  worker : WorkerPosts s
  answers : ∀ i, PullerPosts s i
  handler : HandlerFits s
  pullers : ∀ i p, s.pullers[i]? = some p → PullerWired s.handler i p
  attached : ∀ id i, s.attachedSources.lookup id = some i →
    ∃ p, s.pullers[i]? = some p ∧ p.queue.stops = []
  distinct : ∀ id id' i, s.attachedSources.lookup id = some i →
    s.attachedSources.lookup id' = some i → id = id'

/-! ## Steps of the backend queue -/

section

variable {s : Queues τ} {a : State} {q : MessageQueue.State (Poster τ) Message}

omit [DecidableEq τ] in
theorem HandlerFits.congr {s' : Queues τ} (h : HandlerFits s) (hhandler : s'.handler = s.handler)
    (hbusy : s'.backend.worker.busy = s.backend.worker.busy)
    (hsources : s'.attachedSources = s.attachedSources) (hpullers : s'.pullers = s.pullers) :
    HandlerFits s' := by
  cases h with
  | entered h => exact .entered (hhandler.trans h)
  | posting i n r p phase h hb hl hp hpc hn =>
      exact .posting i n r p phase (hhandler.trans h) (hbusy.trans hb) (hsources ▸ hl)
        (hpullers ▸ hp) hpc hn
  | posted i n r p h hb hp hpc hn =>
      exact .posted i n r p (hhandler.trans h) (hbusy.trans hb) (hpullers ▸ hp) hpc hn
  | failing r h hb => exact .failing r (hhandler.trans h) (hbusy.trans hb)
  | removing i id p h hb hp hs =>
      exact .removing i id p (hhandler.trans h) (hbusy.trans hb) (hpullers ▸ hp) hs
  | returned m h hb => exact .returned m (hhandler.trans h) (hbusy.trans hb)

theorem Wired.backend (h : Wired s) {e : MessageQueue.Event (Poster τ) Message}
    (hq : s.backend.step e = some q) (hstop : ∀ u, e ≠ .begin u .stop)
    (hclear : ∀ u, e ≠ .begin u .clear) (hworker : q.worker = s.backend.worker)
    (hthreads : ∀ t m call phase, q.pc (.client (.thread t)) = .posting m call phase →
      ∀ status r, m ≠ .haveData status r)
    (hposts : WorkerPosts { s with backend := q })
    (hanswers : ∀ i, PullerPosts { s with backend := q } i) : Wired { s with backend := q } where
  ready := h.ready.step hclear hq
  stops := (MessageQueue.stops_of_step hstop hq).trans h.stops
  threads := hthreads
  worker := hposts
  answers := hanswers
  handler := h.handler.congr rfl (congrArg _ hworker) rfl rfl
  pullers := h.pullers
  attached := h.attached
  distinct := h.distinct

omit [DecidableEq τ] in
theorem front_congr (hworker : q.worker = s.backend.worker) :
    Queues.front { s with backend := q } = s.front := by
  rw [Queues.front, Queues.front, ← hworker]
  rfl

omit [DecidableEq τ] in
theorem Shows.silent (h : Shows s a) (hmail : MessageQueue.SameMail s.backend q)
    (hworker : ∀ r, s.handler = .failing r → (q.pc .worker = .idle ↔ s.backend.pc .worker = .idle))
    (hpullers : ∀ i, q.pc (.client (.puller i)) = .idle ↔
      s.backend.pc (.client (.puller i)) = .idle) : Shows { s with backend := q } a where
  backendQueue := by
    rw [h.backendQueue, front_congr hmail.worker, hmail.pending]
  worker := by
    rw [h.worker, Queues.workerPc, Queues.workerPc]
    cases hhandler : s.handler with
    | failing r => simp [hworker r hhandler]
    | entered | requesting | removing | returned => rfl
  attachedSources := h.attachedSources
  pullers i := by
    rw [h.pullers, Queues.puller, Queues.puller, Queues.isAnswering, Queues.isAnswering]
    simp [hpullers i]
  accepted := by rw [h.accepted, Queues.accepted, Queues.accepted, ← hmail.accepted]
  haveData := h.haveData

omit [DecidableEq τ] in
/-- The backend queue accepts `m`. -/
theorem Shows.post (h : Shows s a) {b : State} {n : ℕ} {m : Message}
    (haccepted : q.accepted = s.backend.accepted ++ [(n, m)])
    (hpending : q.pending = s.backend.pending ++ [m]) (hqworker : q.worker = s.backend.worker)
    (hqueue : b.backendQueue = a.backendQueue ++ [m])
    (hnotified : b.accepted = a.accepted ++ m.notified.toList)
    (hsources : b.attachedSources = a.attachedSources) (hhaveData : b.haveData = a.haveData)
    (hworker : b.worker = Queues.workerPc { s with backend := q })
    (hpullers : ∀ i, b.pullers[i]? = Queues.puller { s with backend := q } i) :
    Shows { s with backend := q } b where
  backendQueue := by
    rw [hqueue, h.backendQueue, front_congr hqworker, hpending, List.append_assoc]
  worker := hworker
  attachedSources := hsources.trans h.attachedSources
  pullers := hpullers
  accepted := by
    rw [hnotified, h.accepted, Queues.accepted, Queues.accepted, haccepted, List.filterMap_append]
    cases m <;> rfl
  haveData := hhaveData.trans h.haveData

omit [DecidableEq τ] in
theorem WorkerPosts.congr {s' : Queues τ} (h : WorkerPosts s)
    (hpc : s'.backend.pc .worker = s.backend.pc .worker)
    (hworker : s'.backend.worker = s.backend.worker) (hhandler : s'.handler = s.handler) :
    WorkerPosts s' := by
  cases h with
  | idle h => exact .idle (hpc.trans h)
  | failing r phase hfailing h => exact .failing r phase (hhandler.trans hfailing) (hpc.trans h)
  | other phase hbusy h => exact .other phase ((congrArg _ hworker).trans hbusy) (hpc.trans h)

omit [DecidableEq τ] in
theorem PullerPosts.congr {s' : Queues τ} {i : ℕ} (h : PullerPosts s i)
    (hpc : s'.backend.pc (.client (.puller i)) = s.backend.pc (.client (.puller i)))
    (hpullers : s'.pullers[i]? = s.pullers[i]?) : PullerPosts s' i := by
  cases h with
  | idle h => exact .idle (hpc.trans h)
  | answer p r status phase hp hanswered hbusy h =>
      exact .answer p r status phase (hpullers.trans hp) hanswered hbusy (hpc.trans h)

omit [DecidableEq τ] in
theorem workerPc_congr (hpc : q.pc .worker = s.backend.pc .worker) :
    Queues.workerPc { s with backend := q } = s.workerPc := by
  simp only [Queues.workerPc, hpc]

omit [DecidableEq τ] in
theorem puller_congr {i : ℕ}
    (hpc : q.pc (.client (.puller i)) = s.backend.pc (.client (.puller i))) :
    Queues.puller { s with backend := q } i = s.puller i := by
  simp only [Queues.puller, Queues.isAnswering, hpc]

/-- What a step of the queues comes to: they stay wired, and `machine` can follow. -/
def Simulated (a : State) (s : Queues τ) : Prop :=
  Wired s ∧ ∃ ds b, machine.run a ds = some b ∧ Shows s b

omit [DecidableEq τ] in
theorem Simulated.silent (hw : Wired s) (hs : Shows s a) : Simulated a s :=
  ⟨hw, [], a, rfl, hs⟩

omit [DecidableEq τ] in
theorem Simulated.step {b : State} {d : Event} (hw : Wired s) (hstep : a.step d = some b)
    (hs : Shows s b) : Simulated a s :=
  ⟨hw, [d], b, machine.run_cons_eq_some_iff.mpr ⟨b, hstep, rfl⟩, hs⟩

end

end RialtoGStreamer.NeedData
