import RialtoGStreamer.MessageQueue.Moves

/-!
# Delivery across shutdown

One stop, issued by the worker or by another thread. The accepted messages are
the handled ones followed by the skipped ones, in the order of acceptance. The
argument rests on `Sealed`: once it holds nothing can be accepted any more, and
`doStop` establishes it under the mutex before it looks at the queue for the
last time. The stop itself is followed phase by phase; what a phase knows is
stable under the moves of all the other threads.
-/

namespace RialtoGStreamer.MessageQueue

open Library

variable {τ μ : Type*} [DecidableEq τ]

/-! ## The mutex -/

/-- Between locking and unlocking `m_mutex`. -/
def Pc.holds : Pc μ → Bool
  | .posting _ _ .locked | .posting _ _ .sawRunning | .posting _ _ .sawAccepting => true
  | .stopping .refuseLocked | .stopping .push => true
  | .clearing _ true => true
  | _ => false

/-- Only the owner of the mutex is in a critical section, and the worker is not
in its own while it executes a queue operation. -/
structure Owned (s : State τ μ) : Prop where
  nested : s.pc .worker = .idle ∨ ∃ k m, s.worker = .handling (.posted k m)
  owner : ∀ t, (s.pc t).holds = true → s.mutex = some t
  worker : s.worker = .locked → s.mutex = some .worker

/-- A step of `t` inside a queue operation, as far as the mutex is concerned: it
stays where it is, locks or unlocks. -/
structure Turn (s : State τ μ) (t : Thread τ) (s' : State τ μ) : Prop where
  worker : s'.worker = s.worker
  others : ∀ u, u ≠ t → s'.pc u = s.pc u
  may : s.pc t ≠ .idle ∨ MayCall s t ∨ s'.pc t = s.pc t
  mutex : (s'.mutex = s.mutex ∧ ((s'.pc t).holds = true → (s.pc t).holds = true)) ∨
    (s.mutex = none ∧ s'.mutex = some t) ∨
    ((s.pc t).holds = true ∧ s'.mutex = none ∧ (s'.pc t).holds = false)

theorem goto_pc_ne {s : State τ μ} {t u : Thread τ} (p : Pc μ) (hu : u ≠ t) :
    (s.goto t p).pc u = s.pc u := by
  rw [State.goto_pc, if_neg hu]

theorem goto_pc_self (s : State τ μ) (t : Thread τ) (p : Pc μ) : (s.goto t p).pc t = p := by
  rw [State.goto_pc, if_pos rfl]

/-- A step between two places of a queue operation, the second of which does not
hold the mutex unless the first one does. -/
theorem turn_goto {s u : State τ μ} {t : Thread τ} {p : Pc μ} (hworker : u.worker = s.worker)
    (hpc : u.pc = s.pc) (hmutex : u.mutex = s.mutex)
    (hmay : s.pc t ≠ .idle ∨ MayCall s t) (hholds : p.holds = true → (s.pc t).holds = true) :
    Turn s t (u.goto t p) := by
  refine ⟨hworker, fun v hv ↦ (goto_pc_ne p hv).trans (congrFun hpc v),
    hmay.imp_right .inl, .inl ⟨hmutex, ?_⟩⟩
  rw [goto_pc_self]
  exact hholds

theorem turn_lock {s u : State τ μ} {t : Thread τ} {p : Pc μ} (hworker : u.worker = s.worker)
    (hpc : u.pc = s.pc) (hfree : s.mutex = none) (hmutex : u.mutex = some t)
    (hmay : s.pc t ≠ .idle) : Turn s t (u.goto t p) :=
  ⟨hworker, fun v hv ↦ (goto_pc_ne p hv).trans (congrFun hpc v), .inl hmay,
    .inr (.inl ⟨hfree, hmutex⟩)⟩

theorem turn_unlock {s u : State τ μ} {t : Thread τ} {p : Pc μ} (hworker : u.worker = s.worker)
    (hpc : u.pc = s.pc) (hheld : (s.pc t).holds = true) (hmutex : u.mutex = none)
    (hfree : p.holds = false) : Turn s t (u.goto t p) := by
  refine ⟨hworker, fun v hv ↦ (goto_pc_ne p hv).trans (congrFun hpc v), .inl ?_,
    .inr (.inr ⟨hheld, hmutex, ?_⟩)⟩
  · intro hidle
    rw [hidle] at hheld
    cases hheld
  · rw [goto_pc_self]
    exact hfree

theorem PostMove.turn {s s' : State τ μ} {t : Thread τ} (hm : PostMove s t s') :
    Turn s t s' := by
  cases hm with
  | inPlace m => exact ⟨rfl, fun _ _ ↦ rfl, .inr (.inr rfl), .inl ⟨rfl, fun h ↦ h⟩⟩
  | enter m call hp hmay => exact turn_goto rfl rfl rfl (.inr hmay) (by rintro ⟨⟩)
  | lock hp hfree => exact turn_lock rfl rfl hfree rfl (by simp [hp])
  | sawRunning hp | sawAccepting hp =>
      exact turn_goto rfl rfl rfl (.inl (by simp [hp])) (by simp [hp, Pc.holds])
  | reject hp hphase =>
      refine turn_unlock rfl rfl ?_ rfl rfl
      rcases hphase with ⟨rfl, -⟩ | ⟨rfl, -⟩ <;> rw [hp] <;> rfl
  | accept hp =>
      refine turn_unlock rfl rfl (by rw [hp]; rfl) rfl ?_
      split <;> rfl
  | resume hp => exact turn_goto rfl rfl rfl (.inl (by simp [hp])) (by rintro ⟨⟩)

theorem StopMove.turn {s s' : State τ μ} {t : Thread τ} {phase : StopPhase}
    (hp : s.pc t = .stopping phase) (hm : StopMove s t phase s') : Turn s t s' := by
  have hbusy : s.pc t ≠ .idle := by simp [hp]
  cases hm with
  | lock hfree => exact turn_lock rfl rfl hfree rfl hbusy
  | refuseLocked => exact turn_goto rfl rfl rfl (.inl hbusy) fun _ ↦ by rw [hp]; rfl
  | push => exact turn_unlock rfl rfl (by rw [hp]; rfl) rfl rfl
  | notRunning | testRunning | ownThread | otherThread | refuse | halt | detach | await
  | notJoinable | join => exact turn_goto rfl rfl rfl (.inl hbusy) (by rintro ⟨⟩)

theorem ClearMove.turn {s s' : State τ μ} {t : Thread τ} {stop locked : Bool}
    (hp : s.pc t = .clearing stop locked) (hm : ClearMove s t stop locked s') : Turn s t s' := by
  cases hm with
  | lock hfree => exact turn_lock rfl rfl hfree rfl (by simp [hp])
  | skip | skipHalt => exact ⟨rfl, fun _ _ ↦ rfl, .inr (.inr rfl), .inl ⟨rfl, fun h ↦ h⟩⟩
  | done => exact turn_unlock rfl rfl (by rw [hp]; rfl) rfl rfl

omit [DecidableEq τ] in
theorem Owned.holds_eq_false {s : State τ μ} (h : Owned s) (hfree : s.mutex = none)
    (t : Thread τ) : (s.pc t).holds = false := by
  by_contra hholds
  have howner := h.owner t (by simpa using hholds)
  rw [hfree] at howner
  cases howner

theorem owned_turn {s s' : State τ μ} {t : Thread τ} (h : Owned s) (hm : Turn s t s') :
    Owned s' := by
  have hother : ∀ u, u ≠ t → (s'.pc u).holds = true → s.mutex = some u := by
    intro u hu hholds
    rw [hm.others u hu] at hholds
    exact h.owner u hholds
  refine ⟨?_, fun u hholds ↦ ?_, fun hlocked ↦ ?_⟩
  · rw [hm.worker]
    by_cases ht : t = .worker
    · subst ht
      rcases hm.may with hbusy | hmay | hsame
      · exact .inr (h.nested.resolve_left hbusy)
      · exact .inr (hmay rfl)
      · rw [hsame]
        exact h.nested
    · rw [hm.others _ (Ne.symm ht)]
      exact h.nested
  · by_cases hu : u = t
    · subst hu
      rcases hm.mutex with ⟨hmutex, hkeep⟩ | ⟨-, hmutex⟩ | ⟨-, -, hfree⟩
      · rw [hmutex]
        exact h.owner u (hkeep hholds)
      · exact hmutex
      · rw [hfree] at hholds
        cases hholds
    · have hold := hother u hu hholds
      rcases hm.mutex with ⟨hmutex, -⟩ | ⟨hfree, -⟩ | ⟨hheld, -, -⟩
      · rw [hmutex, hold]
      · rw [hfree] at hold
        cases hold
      · rw [h.owner t hheld] at hold
        exact absurd (Option.some.inj hold).symm hu
  · rw [hm.worker] at hlocked
    have hold := h.worker hlocked
    rcases hm.mutex with ⟨hmutex, -⟩ | ⟨hfree, -⟩ | ⟨hheld, -, -⟩
    · rw [hmutex, hold]
    · rw [hfree] at hold
      cases hold
    -- The worker would unlock from within an operation while it waits for a message.
    · rw [h.owner t hheld, Option.some.injEq] at hold
      subst hold
      rcases h.nested with hidle | ⟨k, m, hhandling⟩
      · rw [hidle] at hheld
        cases hheld
      · rw [hlocked] at hhandling
        cases hhandling

omit [DecidableEq τ] in
theorem owned_unlock {s s' : State τ μ} (h : Owned s) (hlocked : s.worker = .locked)
    (hpc : s'.pc = s.pc) (hworker : s'.worker ≠ .locked) : Owned s' := by
  have hidle : s.pc .worker = .idle := by
    rcases h.nested with hidle | ⟨k, m, hhandling⟩
    · exact hidle
    · rw [hlocked] at hhandling
      cases hhandling
  refine ⟨.inl (by rw [hpc, hidle]), fun t hholds ↦ ?_, fun hw ↦ absurd hw hworker⟩
  rw [hpc] at hholds
  have howner := h.owner t hholds
  rw [h.worker hlocked, Option.some.injEq] at howner
  rw [← howner, hidle] at hholds
  cases hholds

omit [DecidableEq τ] in
/-- A step of the worker outside its critical section. -/
theorem owned_work {s s' : State τ μ} (h : Owned s) (hpc : s'.pc = s.pc)
    (hmutex : s'.mutex = s.mutex) (hidle : s.pc .worker = .idle) (hworker : s'.worker ≠ .locked) :
    Owned s' := by
  refine ⟨.inl (by rw [hpc, hidle]), fun t hholds ↦ ?_, fun hw ↦ absurd hw hworker⟩
  rw [hmutex]
  rw [hpc] at hholds
  exact h.owner t hholds

omit [DecidableEq τ] in
theorem Owned.idle {s : State τ μ} (h : Owned s)
    (hw : ∀ k m, s.worker ≠ .handling (.posted k m)) : s.pc .worker = .idle :=
  h.nested.resolve_right fun ⟨k, m, hhandling⟩ ↦ hw k m hhandling

omit [DecidableEq τ] in
theorem owned_workMove {s s' : State τ μ} (h : Owned s) (hm : WorkMove s s') : Owned s' := by
  cases hm with
  | lock hw hfree =>
      refine ⟨.inl (h.idle (by simp [hw])), fun t hholds ↦ ?_, fun _ ↦ rfl⟩
      rw [h.holds_eq_false hfree t] at hholds
      cases hholds
  | wait hw => exact owned_unlock h hw rfl (by simp)
  | pop hw | popHalt hw => exact owned_unlock h hw rfl (by simp)
  | handle hw | handleHalt hw | runHalt hw | signalHalt hw | again hw | leave hw =>
      exact owned_work h rfl rfl (h.idle (by simp [hw])) (by simp)
  | finish hw hp => exact owned_work h rfl rfl hp (by simp)

theorem owned_move {s s' : State τ μ} {e : Event τ μ} (h : Owned s) (hm : Move s e s') :
    Owned s' := by
  cases hm with
  | post hm => exact owned_turn h hm.turn
  | work hm => exact owned_workMove h hm
  | stop hp hm => exact owned_turn h (hm.turn hp)
  | clear hp hm => exact owned_turn h (hm.turn hp)
  | beginStop he hp hmay | beginClear he hp hmay =>
      exact owned_turn h (turn_goto rfl rfl rfl (.inr hmay) (by rintro ⟨⟩))

/-! ## What the other threads cannot disturb -/

/-- The operations of a bystander. -/
def Pc.bystands : Pc μ → Bool
  | .idle | .posting _ _ _ | .awaiting _ _ => true
  | .stopping _ | .clearing _ _ => false

/-- The worker has, or has had, a message of `doStop` in its hands. -/
def WorkerPc.halting : WorkerPc μ → Bool
  | .popped (.halt _) | .handling (.halt _) | .halted _ => true
  | _ => false

/-- What a posting thread leaves alone; a thread past the tests of `postMessage`
has seen that the queue accepts messages. -/
structure PostFrame (s : State τ μ) (t : Thread τ) (s' : State τ μ) : Prop where
  acceptingMessages : s'.acceptingMessages = s.acceptingMessages
  running : s'.running = s.running
  workerThread : s'.workerThread = s.workerThread
  worker : s'.worker = s.worker
  haltDone : s'.haltDone = s.haltDone
  skipped : s'.skipped = s.skipped
  stops : s'.stops = s.stops
  stopped : s'.stopped = s.stopped
  queue : s'.queue = s.queue ∨ ∃ k m call, s.pc t = .posting m call .sawAccepting ∧
    s'.queue = s.queue ++ [.posted k m]
  others : ∀ u, u ≠ t → s'.pc u = s.pc u
  own : s'.pc t = s.pc t ∨ ((s'.pc t).bystands = true ∧ (s.pc t).bystands = true)
  accepting : ∀ m call, s'.pc t = .posting m call .sawAccepting →
    s.acceptingMessages = true ∨ s'.pc t = s.pc t

theorem PostMove.frame {s s' : State τ μ} {t : Thread τ} (hm : PostMove s t s') :
    PostFrame s t s' := by
  cases hm with
  | inPlace m =>
      exact ⟨rfl, rfl, rfl, rfl, rfl, rfl, rfl, rfl, .inl rfl, fun _ _ ↦ rfl, .inl rfl,
        fun _ _ _ ↦ .inr rfl⟩
  | sawAccepting hp ha =>
      refine ⟨rfl, rfl, rfl, rfl, rfl, rfl, rfl, rfl, .inl rfl, fun _ hu ↦ goto_pc_ne _ hu,
        .inr ?_, fun _ _ _ ↦ .inl ha⟩
      simp [hp, Pc.bystands]
  | accept hp =>
      refine ⟨rfl, rfl, rfl, rfl, rfl, rfl, rfl, rfl, .inr ⟨_, _, _, hp, rfl⟩,
        fun _ hu ↦ goto_pc_ne _ hu, .inr ⟨?_, by rw [hp]; rfl⟩, ?_⟩ <;> rw [goto_pc_self]
      · split <;> rfl
      · intro m call hafter
        split at hafter <;> cases hafter
  | enter _ _ hp | lock hp | sawRunning hp | reject hp | resume hp =>
      refine ⟨rfl, rfl, rfl, rfl, rfl, rfl, rfl, rfl, .inl rfl, fun _ hu ↦ goto_pc_ne _ hu,
        .inr ⟨?_, by rw [hp]; rfl⟩, ?_⟩
      · first | rw [goto_pc_self]; rfl | rw [State.reject, goto_pc_self]; rfl
      · intro m call hafter
        first | rw [goto_pc_self] at hafter | rw [State.reject, goto_pc_self] at hafter
        cases hafter

/-- What a step of the worker's loop does to the queue and the flags. -/
structure WorkFrame (s s' : State τ μ) : Prop where
  acceptingMessages : s'.acceptingMessages = s.acceptingMessages
  workerThread : s'.workerThread = s.workerThread
  skipped : s'.skipped = s.skipped
  stops : s'.stops = s.stops
  stopped : s'.stopped = s.stopped
  pc : s'.pc = s.pc
  running : s'.running = s.running ∨ (s.worker.halting = true ∧ s'.running = false)
  queue : s'.queue = s.queue ∨ ∃ m, s.queue = m :: s'.queue
  haltDone : s'.haltDone = s.haltDone ∨ s.worker.halting = true
  halting : s'.worker.halting = true →
    (s.worker.halting = true ∧ s'.queue = s.queue) ∨ ∃ k, s.queue = .halt k :: s'.queue

omit [DecidableEq τ] in
theorem WorkMove.frame {s s' : State τ μ} (hm : WorkMove s s') : WorkFrame s s' := by
  cases hm with
  | pop hw hq =>
      exact ⟨rfl, rfl, rfl, rfl, rfl, rfl, .inl rfl, .inr ⟨_, hq⟩, .inl rfl, by rintro ⟨⟩⟩
  | popHalt hw hq =>
      exact ⟨rfl, rfl, rfl, rfl, rfl, rfl, .inl rfl, .inr ⟨_, hq⟩, .inl rfl,
        fun _ ↦ .inr ⟨_, hq⟩⟩
  | handleHalt hw =>
      exact ⟨rfl, rfl, rfl, rfl, rfl, rfl, .inl rfl, .inl rfl, .inl rfl,
        fun _ ↦ .inl ⟨by rw [hw]; rfl, rfl⟩⟩
  | runHalt hw =>
      have hhalting : s.worker.halting = true := by rw [hw]; rfl
      exact ⟨rfl, rfl, rfl, rfl, rfl, rfl, .inr ⟨hhalting, rfl⟩, .inl rfl, .inl rfl,
        fun _ ↦ .inl ⟨hhalting, rfl⟩⟩
  | signalHalt hw =>
      exact ⟨rfl, rfl, rfl, rfl, rfl, rfl, .inl rfl, .inl rfl, .inr (by rw [hw]; rfl),
        by rintro ⟨⟩⟩
  | lock | wait | handle | finish | again | leave =>
      exact ⟨rfl, rfl, rfl, rfl, rfl, rfl, .inl rfl, .inl rfl, .inl rfl, by rintro ⟨⟩⟩

/-- A move of a thread that is not stopping: a post, or a turn of the worker. -/
inductive Bystander (s s' : State τ μ) : Prop
  | post {t : Thread τ} (h : PostMove s t s')
  | work (h : WorkMove s s')

/-- `postMessage` refuses from now on, and no thread is past its tests. -/
structure Sealed (s : State τ μ) : Prop where
  refusing : s.acceptingMessages = false
  nobody : ∀ t m call, s.pc t ≠ .posting m call .sawAccepting

theorem Sealed.bystander {s s' : State τ μ} (h : Sealed s) (hm : Bystander s s') :
    Sealed s' := by
  cases hm with
  | @post t hm =>
      refine ⟨hm.frame.acceptingMessages.trans h.refusing, fun u m call hu ↦ ?_⟩
      by_cases hut : u = t
      · subst hut
        rcases hm.frame.accepting m call hu with haccepting | hpc
        · rw [h.refusing] at haccepting
          cases haccepting
        · exact h.nobody u m call (hpc.symm.trans hu)
      · exact h.nobody u m call ((hm.frame.others u hut).symm.trans hu)
  | work hm =>
      refine ⟨hm.frame.acceptingMessages.trans h.refusing, ?_⟩
      rw [hm.frame.pc]
      exact h.nobody

theorem Sealed.queue_bystander {s s' : State τ μ} (h : Sealed s) (hm : Bystander s s') :
    s'.queue = s.queue ∨ ∃ m, s.queue = m :: s'.queue := by
  cases hm with
  | post hm =>
      refine .inl (hm.frame.queue.resolve_right ?_)
      rintro ⟨k, m, call, hpc, -⟩
      exact h.nobody _ m call hpc
  | work hm => exact hm.frame.queue

omit [DecidableEq τ] in
/-- Whoever owns the mutex and is not itself posting seals a refusing queue. -/
theorem Owned.sealed {s : State τ μ} (h : Owned s) (hrefusing : s.acceptingMessages = false)
    (howner : ∀ t m call, s.mutex = some t → s.pc t ≠ .posting m call .sawAccepting) :
    Sealed s := by
  refine ⟨hrefusing, fun t m call hpc ↦ ?_⟩
  have hholds : (s.pc t).holds = true := by rw [hpc]; rfl
  exact howner t m call (h.owner t hholds) hpc

/-- No message of `doStop` is queued, with the worker or done. -/
structure NoHalt (s : State τ μ) : Prop where
  queue : ∀ k, .halt k ∉ s.queue
  worker : s.worker.halting = false
  haltDone : s.haltDone = []

/-- No stop has written anything yet. -/
structure Open (s : State τ μ) : Prop where
  running : s.running = true
  workerThread : s.workerThread = true
  noHalt : NoHalt s
  skipped : s.skipped = []
  stopped : s.stopped = []

omit [DecidableEq τ] in
theorem NoHalt.congr {s s' : State τ μ} (h : NoHalt s) (hqueue : s'.queue = s.queue)
    (hworker : s'.worker = s.worker) (hdone : s'.haltDone = s.haltDone) : NoHalt s' :=
  ⟨by rw [hqueue]; exact h.queue, by rw [hworker]; exact h.worker, hdone.trans h.haltDone⟩

omit [DecidableEq τ] in
theorem Open.congr {s s' : State τ μ} (h : Open s) (hrunning : s'.running = s.running)
    (hthread : s'.workerThread = s.workerThread) (hqueue : s'.queue = s.queue)
    (hworker : s'.worker = s.worker) (hdone : s'.haltDone = s.haltDone)
    (hskipped : s'.skipped = s.skipped) (hstopped : s'.stopped = s.stopped) : Open s' :=
  ⟨hrunning.trans h.running, hthread.trans h.workerThread, h.noHalt.congr hqueue hworker hdone,
    hskipped.trans h.skipped, hstopped.trans h.stopped⟩

theorem NoHalt.bystander {s s' : State τ μ} (h : NoHalt s) (hm : Bystander s s') :
    NoHalt s' := by
  cases hm with
  | post hm =>
      obtain ⟨-, -, -, hworker, hdone, -, -, -, hqueue, -, -, -⟩ := hm.frame
      refine ⟨fun k hk ↦ ?_, by rw [hworker, h.worker], hdone.trans h.haltDone⟩
      rcases hqueue with heq | ⟨k', m, call, -, heq⟩ <;> rw [heq] at hk
      · exact h.queue k hk
      · rcases List.mem_append.mp hk with hk | hk
        · exact h.queue k hk
        · cases List.mem_singleton.mp hk
  | work hm =>
      obtain ⟨-, -, -, -, -, -, -, hqueue, hdone, hhalting⟩ := hm.frame
      refine ⟨fun k hk ↦ ?_, ?_, ?_⟩
      · rcases hqueue with heq | ⟨m, heq⟩
        · exact h.queue k (heq ▸ hk)
        · exact h.queue k (heq ▸ List.mem_cons_of_mem _ hk)
      · by_contra hnot
        rcases hhalting (by simpa using hnot) with ⟨hhalt, -⟩ | ⟨k, hk⟩
        · rw [h.worker] at hhalt
          cases hhalt
        · exact h.queue k (hk ▸ List.mem_cons_self)
      · refine (hdone.resolve_right ?_).trans h.haltDone
        simp [h.worker]

theorem Bystander.frame {s s' : State τ μ} (hm : Bystander s s') :
    s'.acceptingMessages = s.acceptingMessages ∧ s'.workerThread = s.workerThread ∧
      s'.skipped = s.skipped ∧ s'.stops = s.stops ∧ s'.stopped = s.stopped := by
  cases hm with
  | post hm =>
      obtain ⟨hrefusing, -, hthread, -, -, hskipped, hstops, hstopped, -, -, -, -⟩ := hm.frame
      exact ⟨hrefusing, hthread, hskipped, hstops, hstopped⟩
  | work hm =>
      obtain ⟨hrefusing, hthread, hskipped, hstops, hstopped, -, -, -, -, -⟩ := hm.frame
      exact ⟨hrefusing, hthread, hskipped, hstops, hstopped⟩

theorem Bystander.running {s s' : State τ μ} (hm : Bystander s s') :
    s'.running = s.running ∨ (s.worker.halting = true ∧ s'.running = false) := by
  cases hm with
  | post hm => exact .inl hm.frame.running
  | work hm => exact hm.frame.running

theorem Bystander.running_eq_false {s s' : State τ μ} (hm : Bystander s s')
    (h : s.running = false) : s'.running = false := by
  rcases hm.running with hsame | ⟨-, hfalse⟩
  · exact hsame.trans h
  · exact hfalse

theorem Open.bystander {s s' : State τ μ} (h : Open s) (hm : Bystander s s') : Open s' := by
  obtain ⟨-, hthread, hskipped, -, hstopped⟩ := hm.frame
  refine ⟨?_, hthread.trans h.workerThread, h.noHalt.bystander hm, hskipped.trans h.skipped,
    hstopped.trans h.stopped⟩
  refine (hm.running.resolve_right ?_).trans h.running
  simp [h.noHalt.worker]

/-- A message of `doStop` is the last one of the queue. -/
def HaltLast : List (Message μ) → Prop
  | [] => True
  | .posted _ _ :: rest => HaltLast rest
  | .halt _ :: rest => rest = []

theorem HaltLast.tail {m : Message μ} {q : List (Message μ)} (h : HaltLast (m :: q)) :
    HaltLast q := by
  cases m with
  | posted k m => exact h
  | halt k =>
      obtain rfl : q = [] := h
      trivial

theorem haltLast_append {q : List (Message μ)} (m : Message μ) (h : ∀ k, .halt k ∉ q) :
    HaltLast (q ++ [m]) := by
  induction q with
  | nil => cases m <;> simp [HaltLast]
  | cons m' q ih =>
      cases m' with
      | posted k m' => exact ih fun k hmem ↦ h k (List.mem_cons_of_mem _ hmem)
      | halt k => exact absurd List.mem_cons_self (h k)

/-- Behind the message of `doStop` there is nothing, wherever that message is. -/
structure HaltEnds (s : State τ μ) : Prop where
  last : HaltLast s.queue
  worker : s.worker.halting = true → s.queue = []
  haltDone : s.haltDone ≠ [] → s.queue = []

theorem queue_nil_bystander {s s' : State τ μ} (h : s.queue = []) (hsealed : Sealed s)
    (hm : Bystander s s') : s'.queue = [] := by
  rcases hsealed.queue_bystander hm with hsame | ⟨m, hm⟩
  · exact hsame.trans h
  · rw [h] at hm
    cases hm

theorem HaltEnds.bystander {s s' : State τ μ} (h : HaltEnds s) (hsealed : Sealed s)
    (hm : Bystander s s') : HaltEnds s' := by
  have hempty : s.queue = [] → s'.queue = [] := fun hnil ↦ queue_nil_bystander hnil hsealed hm
  refine ⟨?_, fun hhalting ↦ ?_, fun hdone ↦ ?_⟩
  · rcases hsealed.queue_bystander hm with hsame | ⟨m, hcons⟩
    · rw [hsame]
      exact h.last
    · have hlast := h.last
      rw [hcons] at hlast
      exact hlast.tail
  · cases hm with
    | post hm =>
        rw [hm.frame.worker] at hhalting
        exact hempty (h.worker hhalting)
    | work hm =>
        rcases hm.frame.halting hhalting with ⟨hhalt, -⟩ | ⟨k, hcons⟩
        · exact hempty (h.worker hhalt)
        · have hlast := h.last
          rw [hcons] at hlast
          exact hlast
  · cases hm with
    | post hm =>
        rw [hm.frame.haltDone] at hdone
        exact hempty (h.haltDone hdone)
    | work hm =>
        rcases hm.frame.haltDone with hsame | hhalt
        · rw [hsame] at hdone
          exact hempty (h.haltDone hdone)
        · exact hempty (h.worker hhalt)

/-- The worker will take no further message. -/
def WorkerOut (s : State τ μ) : Prop :=
  s.worker = .left ∨
    (s.running = false ∧ (s.worker = .testing ∨ ∃ k m, s.worker = .handling (.posted k m)))

theorem Bystander.worker_eq_left {s s' : State τ μ} (hm : Bystander s s')
    (h : s.worker = .left) : s'.worker = .left := by
  cases hm with
  | post hm => exact hm.frame.worker.trans h
  | work hm => cases hm <;> simp_all

theorem WorkerOut.bystander {s s' : State τ μ} (h : WorkerOut s) (hm : Bystander s s') :
    WorkerOut s' := by
  rcases h with hleft | ⟨hrunning, hw⟩
  · exact .inl (hm.worker_eq_left hleft)
  · have hrunning' := hm.running_eq_false hrunning
    cases hm with
    | post hm =>
        rw [← hm.frame.worker] at hw
        exact .inr ⟨hrunning', hw⟩
    | work hm =>
        cases hm with
        | leave => exact .inl rfl
        | finish => exact .inr ⟨hrunning', .inl rfl⟩
        | again _ hr =>
            rw [hrunning] at hr
            cases hr
        | lock hw' | wait hw' | pop hw' | popHalt hw' | handle hw' | handleHalt hw'
        | runHalt hw' | signalHalt hw' => simp [hw'] at hw

theorem Bystander.bystands {s s' : State τ μ} (hm : Bystander s s') (t : Thread τ) :
    ((s'.pc t).bystands = true ∧ (s.pc t).bystands = true) ∨ s'.pc t = s.pc t := by
  cases hm with
  | @post u hm =>
      by_cases htu : t = u
      · subst htu
        exact hm.frame.own.symm
      · exact .inr (hm.frame.others t htu)
  | work hm => exact .inr (congrFun hm.frame.pc t)

/-- No thread is past the tests of `postMessage`, and `t` goes elsewhere. -/
theorem nobody_goto {s : State τ μ} {t : Thread τ} {p : Pc μ}
    (h : ∀ u m call, s.pc u ≠ .posting m call .sawAccepting)
    (hp : ∀ m call, p ≠ .posting m call .sawAccepting) (u : Thread τ) (m : μ) (call : Bool) :
    (s.goto t p).pc u ≠ .posting m call .sawAccepting := by
  rw [State.goto_pc]
  split
  · exact hp m call
  · exact h u m call

/-! ## The stop, phase by phase -/

/-- What `doStop` of `t` may rely on in each of its phases. -/
def StopFacts (s : State τ μ) (t : Thread τ) : StopPhase → Prop
  | .testRunning | .compareThread => Open s
  | .refuse => t = .worker ∧ s.skipped = []
  | .halt => t = .worker ∧ s.skipped = [] ∧ s.acceptingMessages = false
  | .detach =>
      t = .worker ∧ s.skipped = [] ∧ s.acceptingMessages = false ∧ s.running = false
  | .lock | .refuseLocked => t ≠ .worker ∧ Open s
  | .push => t ≠ .worker ∧ s.skipped = [] ∧ s.workerThread = true ∧ Sealed s ∧ NoHalt s
  | .await _ => t ≠ .worker ∧ s.skipped = [] ∧ s.workerThread = true ∧ Sealed s ∧ HaltEnds s
  | .join => t ≠ .worker ∧ s.skipped = [] ∧ s.workerThread = true ∧ Sealed s ∧ s.queue = []

theorem StopFacts.bystander {s s' : State τ μ} {t : Thread τ} {phase : StopPhase}
    (h : StopFacts s t phase) (hm : Bystander s s') : StopFacts s' t phase := by
  obtain ⟨hrefusing, hthread, hskipped, -, -⟩ := hm.frame
  cases phase with
  | testRunning | compareThread => exact Open.bystander h hm
  | refuse => exact ⟨h.1, hskipped.trans h.2⟩
  | halt => exact ⟨h.1, hskipped.trans h.2.1, hrefusing.trans h.2.2⟩
  | detach =>
      obtain ⟨ht, hs, ha, hr⟩ := h
      exact ⟨ht, hskipped.trans hs, hrefusing.trans ha, hm.running_eq_false hr⟩
  | lock | refuseLocked => exact ⟨h.1, h.2.bystander hm⟩
  | push =>
      obtain ⟨ht, hs, hw, hsealed, hno⟩ := h
      exact ⟨ht, hskipped.trans hs, hthread.trans hw, hsealed.bystander hm, hno.bystander hm⟩
  | await k =>
      obtain ⟨ht, hs, hw, hsealed, hends⟩ := h
      exact ⟨ht, hskipped.trans hs, hthread.trans hw, hsealed.bystander hm,
        hends.bystander hsealed hm⟩
  | join =>
      obtain ⟨ht, hs, hw, hsealed, hq⟩ := h
      exact ⟨ht, hskipped.trans hs, hthread.trans hw, hsealed.bystander hm,
        queue_nil_bystander hq hsealed hm⟩

/-- What the `doClear` at the end of the `doStop` of `t` may rely on. On the
worker the queue still has to be emptied; elsewhere it is empty already. -/
def ClearFacts (s : State τ μ) (locked : Bool) : Thread τ → Prop
  | .worker => s.acceptingMessages = false ∧ s.running = false ∧ (locked = true → Sealed s)
  | .client _ => s.skipped = [] ∧ Sealed s ∧ s.queue = [] ∧ s.worker = .left

theorem ClearFacts.bystander {s s' : State τ μ} {t : Thread τ} {locked : Bool}
    (h : ClearFacts s locked t) (hm : Bystander s s') : ClearFacts s' locked t := by
  obtain ⟨hrefusing, -, hskipped, -, -⟩ := hm.frame
  cases t with
  | worker =>
      obtain ⟨ha, hr, hsealed⟩ := h
      exact ⟨hrefusing.trans ha, hm.running_eq_false hr, fun hl ↦ (hsealed hl).bystander hm⟩
  | client t =>
      obtain ⟨hs, hsealed, hq, hleft⟩ := h
      exact ⟨hskipped.trans hs, hsealed.bystander hm, queue_nil_bystander hq hsealed hm,
        hm.worker_eq_left hleft⟩

/-- The queue after the stop of `t`. -/
structure Shut (s : State τ μ) (t : Thread τ) : Prop where
  sealed : Sealed s
  empty : s.queue = []
  workerOut : WorkerOut s
  skipped : t ≠ .worker → s.skipped = []

theorem Shut.bystander {s s' : State τ μ} {t : Thread τ} (h : Shut s t)
    (hm : Bystander s s') : Shut s' t := by
  obtain ⟨-, -, hskipped, -, -⟩ := hm.frame
  exact ⟨h.sealed.bystander hm, queue_nil_bystander h.empty h.sealed hm,
    h.workerOut.bystander hm, fun ht ↦ hskipped.trans (h.skipped ht)⟩

/-- The one stop: not issued yet, inside `doStop`, inside its `doClear`, or
returned. All the threads but the stopping one are bystanders. -/
inductive Stage (s : State τ μ) : Prop
  | notIssued (hstops : s.stops = []) (hrest : ∀ u, (s.pc u).bystands = true) (h : Open s)
  | stopping (t : Thread τ) (phase : StopPhase) (hstops : s.stops = [t])
      (hstopped : s.stopped = []) (hpc : s.pc t = .stopping phase)
      (hrest : ∀ u, u ≠ t → (s.pc u).bystands = true) (h : StopFacts s t phase)
  | clearing (t : Thread τ) (locked : Bool) (hstops : s.stops = [t])
      (hstopped : s.stopped = []) (hpc : s.pc t = .clearing true locked)
      (hrest : ∀ u, u ≠ t → (s.pc u).bystands = true) (h : ClearFacts s locked t)
  | stopped (t : Thread τ) (hstops : s.stops = [t]) (hstopped : s.stopped = [t])
      (hrest : ∀ u, (s.pc u).bystands = true) (h : Shut s t)

theorem Stage.bystander {s s' : State τ μ} (h : Stage s) (hm : Bystander s s') : Stage s' := by
  obtain ⟨-, -, -, hstops, hstopped⟩ := hm.frame
  have hrest : ∀ u, (s.pc u).bystands = true → (s'.pc u).bystands = true := by
    intro u hu
    rcases hm.bystands u with ⟨hu', -⟩ | heq
    · exact hu'
    · rw [heq]
      exact hu
  have hsame : ∀ u, (s.pc u).bystands = false → s'.pc u = s.pc u := by
    intro u hu
    rcases hm.bystands u with ⟨-, hu'⟩ | heq
    · rw [hu] at hu'
      cases hu'
    · exact heq
  cases h with
  | notIssued h0 hr h =>
      exact .notIssued (hstops.trans h0) (fun u ↦ hrest u (hr u)) (h.bystander hm)
  | stopping t phase h0 h1 hpc hr h =>
      exact .stopping t phase (hstops.trans h0) (hstopped.trans h1)
        ((hsame t (by rw [hpc]; rfl)).trans hpc) (fun u hu ↦ hrest u (hr u hu)) (h.bystander hm)
  | clearing t locked h0 h1 hpc hr h =>
      exact .clearing t locked (hstops.trans h0) (hstopped.trans h1)
        ((hsame t (by rw [hpc]; rfl)).trans hpc) (fun u hu ↦ hrest u (hr u hu)) (h.bystander hm)
  | stopped t h0 h1 hr h =>
      exact .stopped t (hstops.trans h0) (hstopped.trans h1) (fun u ↦ hrest u (hr u))
        (h.bystander hm)

omit [DecidableEq τ] in
theorem Stage.of_stopping {s : State τ μ} (h : Stage s) {t : Thread τ} {phase : StopPhase}
    (hpc : s.pc t = .stopping phase) :
    s.stops = [t] ∧ s.stopped = [] ∧ (∀ u, u ≠ t → (s.pc u).bystands = true) ∧
      StopFacts s t phase := by
  have hnot : (s.pc t).bystands = false := by rw [hpc]; rfl
  cases h with
  | notIssued _ hr => exact absurd (hr t) (by simp [hnot])
  | stopping u phase' h0 h1 hpc' hr h =>
      obtain rfl : t = u := by
        by_contra hne
        exact absurd (hr t hne) (by simp [hnot])
      obtain rfl : phase' = phase := by simpa [hpc'] using hpc
      exact ⟨h0, h1, hr, h⟩
  | clearing u locked h0 h1 hpc' hr h =>
      by_cases hne : t = u
      · subst hne
        simp [hpc'] at hpc
      · exact absurd (hr t hne) (by simp [hnot])
  | stopped _ _ _ hr => exact absurd (hr t) (by simp [hnot])

omit [DecidableEq τ] in
theorem Stage.of_clearing {s : State τ μ} (h : Stage s) {t : Thread τ} {stop locked : Bool}
    (hpc : s.pc t = .clearing stop locked) :
    stop = true ∧ s.stops = [t] ∧ s.stopped = [] ∧
      (∀ u, u ≠ t → (s.pc u).bystands = true) ∧ ClearFacts s locked t := by
  have hnot : (s.pc t).bystands = false := by rw [hpc]; rfl
  cases h with
  | notIssued _ hr => exact absurd (hr t) (by simp [hnot])
  | stopping u phase' h0 h1 hpc' hr h =>
      by_cases hne : t = u
      · subst hne
        simp [hpc'] at hpc
      · exact absurd (hr t hne) (by simp [hnot])
  | clearing u locked' h0 h1 hpc' hr h =>
      obtain rfl : t = u := by
        by_contra hne
        exact absurd (hr t hne) (by simp [hnot])
      obtain ⟨rfl, rfl⟩ : true = stop ∧ locked' = locked := by simpa [hpc'] using hpc
      exact ⟨rfl, h0, h1, hr, h⟩
  | stopped _ _ _ hr => exact absurd (hr t) (by simp [hnot])

/-- The other threads stay where they are when `t` moves inside its stop. -/
theorem bystands_goto {s : State τ μ} {t : Thread τ} {p : Pc μ}
    (hrest : ∀ u, u ≠ t → (s.pc u).bystands = true) :
    ∀ u, u ≠ t → ((s.goto t p).pc u).bystands = true := by
  intro u hu
  simpa [hu] using hrest u hu

theorem stage_stop {s s' : State τ μ} {t : Thread τ} {phase : StopPhase} (h : Stage s)
    (howned : Owned s) (hpc : s.pc t = .stopping phase) (hm : StopMove s t phase s') :
    Stage s' := by
  obtain ⟨hstops, hstopped, hrest, hfacts⟩ := h.of_stopping hpc
  have hnested := howned.nested
  cases hm with
  | notRunning hr => exact absurd hfacts.running (by simp [hr])
  | testRunning hr =>
      exact .stopping t .compareThread hstops hstopped (by simp) (bystands_goto hrest)
        (hfacts.congr rfl rfl rfl rfl rfl rfl rfl)
  | ownThread hw hthread =>
      exact .stopping t .refuse hstops hstopped (by simp) (bystands_goto hrest)
        ⟨hw, hfacts.skipped⟩
  | otherThread hw =>
      refine .stopping t .lock hstops hstopped (by simp) (bystands_goto hrest)
        ⟨fun ht ↦ ?_, hfacts.congr rfl rfl rfl rfl rfl rfl rfl⟩
      exact absurd hfacts.workerThread (by simp [hw ht])
  | refuse =>
      exact .stopping t .halt hstops hstopped (by simp) (bystands_goto hrest)
        ⟨hfacts.1, hfacts.2, rfl⟩
  | halt =>
      exact .stopping t .detach hstops hstopped (by simp) (bystands_goto hrest)
        ⟨hfacts.1, hfacts.2.1, hfacts.2.2, rfl⟩
  | detach =>
      obtain ⟨rfl, hs, ha, hr⟩ := hfacts
      exact .clearing .worker false hstops hstopped (by simp) (bystands_goto hrest)
        ⟨ha, hr, by simp⟩
  | lock hfree =>
      obtain ⟨ht, hopen⟩ := hfacts
      exact .stopping t .refuseLocked hstops hstopped (by simp) (bystands_goto hrest)
        ⟨ht, hopen.congr rfl rfl rfl rfl rfl rfl rfl⟩
  | refuseLocked =>
      obtain ⟨ht, hopen⟩ := hfacts
      have hmutex : s.mutex = some t := howned.owner t (by rw [hpc]; rfl)
      refine .stopping t .push hstops hstopped (by simp) (bystands_goto hrest)
        ⟨ht, hopen.skipped, hopen.workerThread, ⟨rfl, fun u m call ↦ ?_⟩,
          hopen.noHalt.congr rfl rfl rfl⟩
      by_cases hu : u = t
      · rw [hu, goto_pc_self]
        simp
      · rw [goto_pc_ne _ hu]
        intro hposting
        have howner := howned.owner u (by rw [hposting]; rfl)
        rw [hmutex, Option.some.injEq] at howner
        exact hu howner.symm
  | push =>
      obtain ⟨ht, hs, hthread, ⟨ha, hnobody⟩, hqueue, hworker, hdone⟩ := hfacts
      refine .stopping t (.await s.halts) hstops hstopped (by simp) (bystands_goto hrest)
        ⟨ht, hs, hthread, ⟨ha, nobody_goto hnobody (by simp)⟩, haltLast_append _ hqueue, ?_, ?_⟩
      · intro hhalting
        exact absurd hhalting (by simp [hworker])
      · intro hne
        exact absurd hdone hne
  | await hd =>
      obtain ⟨ht, hs, hthread, ⟨ha, hnobody⟩, hends⟩ := hfacts
      refine .stopping t .join hstops hstopped (by simp) (bystands_goto hrest)
        ⟨ht, hs, hthread, ⟨ha, nobody_goto hnobody (by simp)⟩,
          hends.haltDone (List.ne_nil_of_mem hd)⟩
  | notJoinable hthread => exact absurd hfacts.2.2.1 (by simp [hthread])
  | join hw =>
      obtain ⟨ht, hs, -, ⟨ha, hnobody⟩, hq⟩ := hfacts
      cases t with
      | worker => exact absurd rfl ht
      | client t =>
          exact .clearing _ false hstops hstopped (by simp) (bystands_goto hrest)
            ⟨hs, ⟨ha, nobody_goto hnobody (by simp)⟩, hq, hw⟩

theorem stage_clear {s s' : State τ μ} {t : Thread τ} {stop locked : Bool} (h : Stage s)
    (howned : Owned s) (howned' : Owned s') (hpc : s.pc t = .clearing stop locked)
    (hm : ClearMove s t stop locked s') : Stage s' := by
  obtain ⟨rfl, hstops, hstopped, hrest, hfacts⟩ := h.of_clearing hpc
  cases hm with
  | lock hfree =>
      refine .clearing t true hstops hstopped (by simp) (bystands_goto hrest) ?_
      cases t with
      | worker =>
          refine ⟨hfacts.1, hfacts.2.1, fun _ ↦ howned'.sealed hfacts.1 fun u m call hu ↦ ?_⟩
          cases hu
          simp
      | client t =>
          obtain ⟨hs, ⟨ha, hnobody⟩, hq, hleft⟩ := hfacts
          exact ⟨hs, ⟨ha, nobody_goto hnobody (by simp)⟩, hq, hleft⟩
  | skip hq | skipHalt hq =>
      cases t with
      | worker =>
          obtain ⟨ha, hr, hsealed⟩ := hfacts
          obtain ⟨-, hnobody⟩ := hsealed rfl
          exact .clearing _ true hstops hstopped hpc hrest ⟨ha, hr, fun _ ↦ ⟨ha, hnobody⟩⟩
      | client t => exact absurd hfacts.2.2.1 (by simp [hq])
  | done hq =>
      refine .stopped t hstops (by simp [hstopped]) (fun u ↦ ?_) ?_
      · by_cases hu : u = t
        · subst hu
          simp [Pc.bystands]
        · simpa [hu] using hrest u hu
      · cases t with
        | worker =>
            obtain ⟨ha, hr, hsealed⟩ := hfacts
            obtain ⟨-, hnobody⟩ := hsealed rfl
            refine ⟨⟨ha, nobody_goto hnobody (by simp)⟩, hq, .inr ⟨hr, .inr ?_⟩,
              fun ht ↦ absurd rfl ht⟩
            rcases howned.nested with hidle | hhandling
            · simp [hpc] at hidle
            · exact hhandling
        | client t =>
            obtain ⟨hs, ⟨ha, hnobody⟩, -, hleft⟩ := hfacts
            exact ⟨⟨ha, nobody_goto hnobody (by simp)⟩, hq, .inl hleft, fun _ ↦ hs⟩

theorem prefix_stops_of {s s' : State τ μ} {e : Event τ μ} (hm : Move s e s') :
    s.stops <+: s'.stops := by
  cases hm with
  | post hm => exact (Bystander.post hm).frame.2.2.2.1 ▸ List.prefix_refl _
  | work hm => exact (Bystander.work hm).frame.2.2.2.1 ▸ List.prefix_refl _
  | beginStop he hp hmay => exact List.prefix_append _ _
  | beginClear he hp hmay => exact List.prefix_refl _
  | stop hp hm => cases hm <;> exact List.prefix_refl _
  | clear hp hm => cases hm <;> exact List.prefix_refl _

/-- Without a `clear`, the stage is kept as long as no second stop is issued. -/
theorem stage_move {s s' : State τ μ} {e : Event τ μ} (h : Stage s) (howned : Owned s)
    (hclear : ∀ t, e ≠ .begin t .clear) (hm : Move s e s') (hone : s'.stops.length ≤ 1) :
    Stage s' := by
  have howned' : Owned s' := owned_move howned hm
  cases hm with
  | post hm => exact h.bystander (.post hm)
  | work hm => exact h.bystander (.work hm)
  | beginStop he hp hmay =>
      have hnone : s.stops = [] := by simpa using hone
      cases h with
      | notIssued h0 hrest h =>
          exact .stopping _ .testRunning (by simp [h0]) h.stopped (by simp)
            (bystands_goto fun u _ ↦ hrest u) (h.congr rfl rfl rfl rfl rfl rfl rfl)
      | stopping t phase h0 => simp [h0] at hnone
      | clearing t locked h0 => simp [h0] at hnone
      | stopped t h0 => simp [h0] at hnone
  | beginClear he hp hmay => exact absurd he (hclear _)
  | stop hp hm => exact stage_stop h howned hp hm
  | clear hp hm => exact stage_clear h howned howned' hp hm

end RialtoGStreamer.MessageQueue
