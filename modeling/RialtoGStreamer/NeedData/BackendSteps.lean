import RialtoGStreamer.NeedData.Wiring

/-!
# The steps of the backend queue, followed by the lists

The threads that post, the worker and its handlers. Most steps show nothing; the
others are one step of `machine`.
-/

namespace RialtoGStreamer.NeedData

open Library MediaPlayerClient
open MessageQueue (Thread Ready)

variable {τ : Type*} [DecidableEq τ]

variable {s : Queues τ} {a : State} {q : MessageQueue.State (Poster τ) Message}

/-! ## The threads outside -/

theorem Wired.threadStep (h : Wired s) {t : τ} {e : MessageQueue.Event (Poster τ) Message}
    (hq : s.backend.step e = some q) (hstop : ∀ u, e ≠ .begin u .stop)
    (hclear : ∀ u, e ≠ .begin u .clear) (hworker : q.worker = s.backend.worker)
    (hothers : ∀ u, u ≠ .client (.thread t) → q.pc u = s.backend.pc u)
    (hown : ∀ m call phase, q.pc (.client (.thread t)) = .posting m call phase →
      ∀ status r, m ≠ .haveData status r) : Wired { s with backend := q } := by
  refine h.backend hq hstop hclear hworker (fun u m call phase hpc ↦ ?_)
    (h.worker.congr (hothers _ (by simp)) hworker rfl)
    (fun i ↦ (h.answers i).congr (hothers _ (by simp)) rfl)
  by_cases hu : u = t
  · exact hown m call phase (hu ▸ hpc)
  · rw [hothers _ (by simpa using hu)] at hpc
    exact h.threads u m call phase hpc

/-- A thread enters `postMessage` or `callInEventLoop`. -/
theorem simulated_enters (hw : Wired s) (hs : Shows s a) {t : τ} {m : Message} {call : Bool}
    {op : MessageQueue.Operation Message} (hstop : op ≠ .stop) (hclear : op ≠ .clear)
    (hm : ∀ status r, m ≠ .haveData status r)
    (hq : s.backend.step (.begin (.client (.thread t)) op) = some q)
    (henters : MessageQueue.Enters s.backend (.client (.thread t)) (.posting m call .entering) q) :
    Simulated a { s with backend := q } := by
  refine .silent (hw.threadStep (t := t) hq (by simp [hstop]) (by simp [hclear])
    henters.mail.worker henters.others fun m' call' phase hpc ↦ ?_) ?_
  · rw [henters.after] at hpc
    cases hpc
    exact hm
  · exact hs.silent henters.mail (fun _ _ ↦ by rw [henters.others _ (by simp)])
      fun i ↦ by rw [henters.others _ (by simp)]

omit [DecidableEq τ] in
theorem simulated_accepted (hw : Wired { s with backend := q }) (hs : Shows s a) {t : τ}
    {m : Message} (hm : ∀ status r, m ≠ .haveData status r) {n : ℕ}
    (haccepted : q.accepted = s.backend.accepted ++ [(n, m)])
    (hpending : q.pending = s.backend.pending ++ [m]) (hworker : q.worker = s.backend.worker)
    (hothers : ∀ u, u ≠ .client (.thread t) → q.pc u = s.backend.pc u) :
    Simulated a { s with backend := q } := by
  have hpc : a.worker = Queues.workerPc { s with backend := q } := by
    rw [hs.worker, workerPc_congr (hothers _ (by simp))]
  have hpullers : ∀ i, a.pullers[i]? = Queues.puller { s with backend := q } i := by
    intro i
    rw [hs.pullers, puller_congr (hothers _ (by simp))]
  have hcall : m.notified = none → a.step (.call m) = some (a.post m) →
      Simulated a { s with backend := q } := by
    intro hnone hstep
    refine .step hw hstep (hs.post haccepted hpending hworker rfl ?_ rfl rfl hpc hpullers)
    rw [hnone]
    exact (List.append_nil _).symm
  cases m with
  | needData r =>
      have hstep : a.step (.notifyNeedMediaData r) =
          some { a.post (.needData r) with accepted := a.accepted ++ [r] } := rfl
      exact .step hw hstep (hs.post haccepted hpending hworker rfl rfl rfl rfl hpc hpullers)
  | haveData status r => exact absurd rfl (hm status r)
  | attachSource id result => exact hcall rfl rfl
  | removeSource id => exact hcall rfl rfl
  | other => exact hcall rfl rfl

theorem simulated_thread (hw : Wired s) (hs : Shows s a) {t : τ}
    (hq : s.backend.step (.advance (.client (.thread t))) = some q) :
    Simulated a { s with backend := q } := by
  obtain ⟨hturn, hbusy⟩ := MessageQueue.turn_of_advance hq
  have hrest := (hw.ready.open hw.stops).2 (.client (.thread t))
  have hwired : (∀ m call phase, q.pc (.client (.thread t)) = .posting m call phase →
      ∀ status r, m ≠ .haveData status r) → Wired { s with backend := q } :=
    fun hown ↦ hw.threadStep (t := t) hq (by simp) (by simp) hturn.worker hturn.others hown
  have hsilent : MessageQueue.SameMail s.backend q → Shows { s with backend := q } a := by
    intro hmail
    exact hs.silent hmail (fun _ _ ↦ by rw [hturn.others _ (by simp)])
      fun i ↦ by rw [hturn.others _ (by simp)]
  cases hpc : s.backend.pc (.client (.thread t)) with
  | idle => exact absurd hpc hbusy
  | posting m call phase =>
      have hm := hw.threads t m call phase hpc
      cases hw.ready.postStep hw.stops hpc hq with
      | going phase' hpc' hmail =>
          refine .silent (hwired fun m' call' phase'' hown ↦ ?_) (hsilent hmail)
          rw [hpc'] at hown
          cases hown
          exact hm
      | accepted hpc' haccepted hpending hworker =>
          refine simulated_accepted (hwired fun m' call' phase' hown ↦ ?_) hs hm haccepted
            hpending hworker hturn.others
          rw [hpc'] at hown
          cases call <;> cases hown
  | awaiting k m =>
      obtain ⟨hidle, hmail⟩ := MessageQueue.awaiting_step hpc hq
      refine .silent (hwired fun m' call' phase' hown ↦ ?_) (hsilent hmail)
      rw [hidle] at hown
      cases hown
  | stopping phase => simp [hpc, MessageQueue.Pc.bystands] at hrest
  | clearing stop locked => simp [hpc, MessageQueue.Pc.bystands] at hrest

/-! ## Posts of the worker and of the pullers -/

omit [DecidableEq τ] in
/-- The worker posts an error only while it handles a request. -/
theorem HandlerFits.not_failing (h : HandlerFits s) (hbusy : s.backend.worker.busy = some .other)
    (r : Request) : s.handler ≠ .failing r := by
  intro hfailing
  cases h with
  | failing r' _ hb =>
      rw [hb] at hbusy
      cases hbusy
  | entered h | posting _ _ _ _ _ h | posted _ _ _ _ h | removing _ _ _ h | returned _ h =>
      rw [h] at hfailing
      cases hfailing

omit [DecidableEq τ] in
theorem workerPc_of_not_failing (h : ∀ r, s.handler ≠ .failing r) :
    Queues.workerPc { s with backend := q } = s.workerPc := by
  unfold Queues.workerPc
  cases hhandler : s.handler with
  | failing r => exact absurd hhandler (h r)
  | entered | requesting | removing | returned => rfl

theorem Wired.workerStep (h : Wired s) {e : MessageQueue.Event (Poster τ) Message}
    (hq : s.backend.step e = some q) (hstop : ∀ u, e ≠ .begin u .stop)
    (hclear : ∀ u, e ≠ .begin u .clear) (hworker : q.worker = s.backend.worker)
    (hothers : ∀ u, u ≠ .worker → q.pc u = s.backend.pc u)
    (hposts : WorkerPosts { s with backend := q }) : Wired { s with backend := q } := by
  refine h.backend hq hstop hclear hworker (fun t m call phase hpc ↦ ?_) hposts
    fun i ↦ (h.answers i).congr (hothers _ (by simp)) rfl
  rw [hothers _ (by simp)] at hpc
  exact h.threads t m call phase hpc

theorem simulated_worker (hw : Wired s) (hs : Shows s a)
    (hq : s.backend.step (.advance .worker) = some q) :
    Simulated a { s with backend := q } := by
  obtain ⟨hturn, hbusy⟩ := MessageQueue.turn_of_advance hq
  have hwired : WorkerPosts { s with backend := q } → Wired { s with backend := q } :=
    hw.workerStep hq (by simp) (by simp) hturn.worker hturn.others
  have hpullers : ∀ i, a.pullers[i]? = Queues.puller { s with backend := q } i := by
    intro i
    rw [hs.pullers, puller_congr (hturn.others _ (by simp))]
  cases hw.worker with
  | idle hpc => exact absurd hpc hbusy
  | failing r phase hhandler hpc =>
      cases hw.ready.postStep hw.stops hpc hq with
      | going phase' hpc' hmail =>
          refine .silent (hwired (.failing r phase' hhandler hpc')) (hs.silent hmail ?_ ?_)
          · simp [hpc, hpc']
          · exact fun i ↦ by rw [hturn.others _ (by simp)]
      | accepted hpc' haccepted hpending hworker =>
          have hidle : q.pc .worker = .idle := by simpa using hpc'
          have hfailing : a.worker = .failing r := by
            rw [hs.worker, Queues.workerPc, hhandler]
            simp [hpc]
          have hstep : a.step .postError =
              some { a.post (.haveData .error r) with worker := .idle } := by
            simp [State.step, hfailing]
          refine .step (hwired (.idle hidle)) hstep
            (hs.post haccepted hpending hworker rfl ?_ rfl rfl ?_ hpullers)
          · simp [State.post, Message.notified]
          · rw [Queues.workerPc, hhandler]
            simp [hidle]
  | other phase hother hpc =>
      have hnot := hw.handler.not_failing hother
      have hother' : q.worker.busy = some .other := (congrArg _ hturn.worker).trans hother
      cases hw.ready.postStep hw.stops hpc hq with
      | going phase' hpc' hmail =>
          refine .silent (hwired (.other phase' hother' hpc')) (hs.silent hmail ?_ ?_)
          · exact fun r hr ↦ absurd hr (hnot r)
          · exact fun i ↦ by rw [hturn.others _ (by simp)]
      | accepted hpc' haccepted hpending hworker =>
          have hstep : a.step (.call .other) = some (a.post .other) := rfl
          refine .step (hwired (.idle (by simpa using hpc'))) hstep
            (hs.post haccepted hpending hworker rfl ?_ rfl rfl ?_ hpullers)
          · simp [State.post, Message.notified]
          · exact hs.worker.trans (workerPc_of_not_failing hnot).symm

theorem Wired.pullerStep (h : Wired s) {i : ℕ} {e : MessageQueue.Event (Poster τ) Message}
    (hq : s.backend.step e = some q) (hstop : ∀ u, e ≠ .begin u .stop)
    (hclear : ∀ u, e ≠ .begin u .clear) (hworker : q.worker = s.backend.worker)
    (hothers : ∀ u, u ≠ .client (.puller i) → q.pc u = s.backend.pc u)
    (hposts : PullerPosts { s with backend := q } i) : Wired { s with backend := q } := by
  refine h.backend hq hstop hclear hworker (fun t m call phase hpc ↦ ?_)
    (h.worker.congr (hothers _ (by simp)) hworker rfl) fun j ↦ ?_
  · rw [hothers _ (by simp)] at hpc
    exact h.threads t m call phase hpc
  · by_cases hj : j = i
    · exact hj ▸ hposts
    · exact (h.answers j).congr (hothers _ (by simpa using hj)) rfl

theorem simulated_puller (hw : Wired s) (hs : Shows s a) {i : ℕ}
    (hq : s.backend.step (.advance (.client (.puller i))) = some q) :
    Simulated a { s with backend := q } := by
  obtain ⟨hturn, hbusy⟩ := MessageQueue.turn_of_advance hq
  have hwired : PullerPosts { s with backend := q } i → Wired { s with backend := q } :=
    hw.pullerStep hq (by simp) (by simp) hturn.worker hturn.others
  cases hw.answers i with
  | idle hpc => exact absurd hpc hbusy
  | answer p r status phase hp hanswered hr hpc =>
      cases hw.ready.postStep hw.stops hpc hq with
      | going phase' hpc' hmail =>
          refine .silent (hwired (.answer p r status phase' hp hanswered hr hpc'))
            (hs.silent hmail (fun _ _ ↦ by rw [hturn.others _ (by simp)]) fun j ↦ ?_)
          by_cases hj : j = i
          · subst hj
            simp [hpc, hpc']
          · rw [hturn.others _ (by simpa using hj)]
      | accepted hpc' haccepted hpending hworker =>
          have hidle : q.pc (.client (.puller i)) = .idle := by simpa using hpc'
          have hi : a.pullers[i]? = some ⟨p.queue.pending, some r⟩ := by
            rw [hs.pullers, Queues.puller, hp, Queues.isAnswering]
            simp [QueuedPuller.shown, hpc, hr]
          have hstep : a.step (.finish i status) = some { a.post (.haveData status r) with
              pullers := a.pullers.set i ⟨p.queue.pending, none⟩ } := by
            simp [State.step, hi]
          refine .step (hwired (.idle hidle)) hstep
            (hs.post haccepted hpending hworker rfl ?_ rfl rfl ?_ fun j ↦ ?_)
          · simp [State.post, Message.notified]
          · exact hs.worker.trans (workerPc_congr (hturn.others _ (by simp))).symm
          · by_cases hj : j = i
            · subst hj
              obtain ⟨hlt, -⟩ := List.getElem?_eq_some_iff.mp hi
              rw [List.getElem?_set_self hlt, Queues.puller, Queues.isAnswering, hp]
              simp [QueuedPuller.shown, hidle, hanswered]
            · rw [List.getElem?_set_ne (Ne.symm hj), hs.pullers,
                puller_congr (hturn.others _ (by simpa using hj))]

theorem simulated_advance (hw : Wired s) (hs : Shows s a) {u : Thread (Poster τ)}
    (hq : s.backend.step (.advance u) = some q) : Simulated a { s with backend := q } := by
  cases u with
  | worker => exact simulated_worker hw hs hq
  | client u =>
      cases u with
      | thread t => exact simulated_thread hw hs hq
      | puller i => exact simulated_puller hw hs hq

theorem simulated_postFromHandler (hw : Wired s) (hs : Shows s a)
    (hbusy : s.backend.worker.busy = some .other)
    (hq : s.backend.step (.begin .worker (.postMessage .other)) = some q) :
    Simulated a { s with backend := q } := by
  have henters := MessageQueue.enters_postMessage hq
  have hother : q.worker.busy = some .other := (congrArg _ henters.mail.worker).trans hbusy
  refine .silent (hw.workerStep hq (by simp) (by simp) henters.mail.worker henters.others
    (.other .entering hother henters.after)) (hs.silent henters.mail ?_ ?_)
  · exact fun r hr ↦ absurd hr (hw.handler.not_failing hbusy r)
  · exact fun i ↦ by rw [henters.others _ (by simp)]

/-! ## The loop of the worker -/

omit [DecidableEq τ] in
theorem Wired.entered_of_not_busy (h : Wired s) (hbusy : s.backend.worker.busy = none) :
    s.handler = .entered ∧ s.backend.pc .worker = .idle := by
  have hentered : s.handler = .entered := by
    cases h.handler with
    | entered hhandler => exact hhandler
    | posting _ _ _ _ _ _ hb | posted _ _ _ _ _ hb | failing _ _ hb | removing _ _ _ _ hb
    | returned _ _ hb =>
        rw [hbusy] at hb
        cases hb
  refine ⟨hentered, ?_⟩
  cases h.worker with
  | idle hpc => exact hpc
  | failing r phase hhandler =>
      rw [hentered] at hhandler
      cases hhandler
  | other phase hb =>
      rw [hbusy] at hb
      cases hb

omit [DecidableEq τ] in
/-- When the handler returns, the worker is inside no operation on a puller's queue. -/
theorem Wired.idle_of_mayReturn (h : Wired s)
    (hmay : s.backend.worker.busy = none ∨ s.mayReturn = true) {i : ℕ} {p : QueuedPuller}
    (hp : s.pullers[i]? = some p) : p.queue.pc (.client ()) = .idle := by
  by_contra hpc
  have huses := (h.pullers i p hp).used hpc
  have hmay : s.mayReturn = true := by
    refine hmay.resolve_left fun hbusy ↦ ?_
    rw [(h.entered_of_not_busy hbusy).1] at huses
    cases huses
  unfold Queues.mayReturn at hmay
  cases hhandler : s.handler with
  | requesting j n | removing j =>
      rw [hhandler] at huses hmay
      obtain rfl : i = j := by simpa [HandlerPc.uses] using huses
      simp [hp, hpc] at hmay
  | entered | failing r | returned =>
      rw [hhandler] at huses
      cases huses

theorem Wired.work (h : Wired s) (hmay : s.backend.worker.busy = none ∨ s.mayReturn = true)
    (hq : s.backend.step .work = some q) (hidle : s.backend.pc .worker = .idle) :
    Wired { s with handler := .entered, backend := q } where
  ready := h.ready.step (by simp) hq
  stops := (MessageQueue.stops_of_step (by simp) hq).trans h.stops
  threads := by
    rw [MessageQueue.pc_of_work hq]
    exact h.threads
  worker := .idle ((congrFun (MessageQueue.pc_of_work hq) _).trans hidle)
  answers i := (h.answers i).congr (congrFun (MessageQueue.pc_of_work hq) _) rfl
  handler := .entered rfl
  pullers i p hp :=
    let hwired := h.pullers i p hp
    ⟨hwired.ready, hwired.stops, hwired.worker,
      fun hpc ↦ absurd (h.idle_of_mayReturn hmay hp) hpc, by simp, hwired.answered⟩
  attached := h.attached
  distinct := h.distinct

omit [DecidableEq τ] in
theorem Shows.entered (h : Shows s a)
    (hqueue : s.front ++ s.backend.pending = q.worker.busy.toList ++ q.pending)
    (haccepted : q.accepted = s.backend.accepted) (hpc : q.pc = s.backend.pc) :
    Shows { s with handler := .entered, backend := q } { a with worker := .idle } where
  backendQueue := h.backendQueue.trans hqueue
  worker := rfl
  attachedSources := h.attachedSources
  pullers i := by
    rw [h.pullers, Queues.puller, Queues.puller, Queues.isAnswering, Queues.isAnswering, hpc]
  accepted := by rw [h.accepted, Queues.accepted, Queues.accepted, haccepted]
  haveData := h.haveData

omit [DecidableEq τ] in
/-- The handler that returns waited for a puller's end, or the list model is at rest. -/
theorem Shows.of_mayReturn (h : Shows s a) (hmay : s.mayReturn = true)
    (hidle : s.backend.pc .worker = .idle) :
    s.front = [] ∧ (a.worker = .idle ∨ ∃ i, s.handler = .removing i ∧ a.worker = .removing i) := by
  rw [h.worker, Queues.front, Queues.isAhead, Queues.workerPc]
  unfold Queues.mayReturn at hmay
  cases hhandler : s.handler with
  | entered =>
      rw [hhandler] at hmay
      cases hmay
  | requesting i n =>
      rw [hhandler] at hmay
      simp only [Option.any_eq_true, Bool.and_eq_true, decide_eq_true_eq] at hmay
      obtain ⟨p, hp, hpc, -⟩ := hmay
      simp [Queues.isPosting, hp, hpc]
  | failing r => simp [hidle]
  | removing i => simp
  | returned => simp

theorem simulated_work (hw : Wired s) (hs : Shows s a)
    (hmay : s.backend.worker.busy = none ∨ s.mayReturn = true)
    (hq : s.backend.step .work = some q) :
    Simulated a { s with handler := .entered, backend := q } := by
  obtain ⟨hstep, haccepted, hpc⟩ := hw.ready.workStep (by simp [hw.stops]) hq
  have hrest : a.worker = .idle → { a with worker := .idle } = a := by
    intro hidle
    rw [← hidle]
  cases hstep with
  | silent hbefore hafter hpending =>
      obtain ⟨hentered, hidle⟩ := hw.entered_of_not_busy hbefore
      have hworker : a.worker = .idle := by rw [hs.worker, Queues.workerPc, hentered]
      refine .silent (hw.work hmay hq hidle) (hrest hworker ▸ hs.entered ?_ haccepted hpc)
      simp [Queues.front, hbefore, hafter, hpending]
  | taken m hbefore hafter hpending =>
      obtain ⟨hentered, hidle⟩ := hw.entered_of_not_busy hbefore
      have hworker : a.worker = .idle := by rw [hs.worker, Queues.workerPc, hentered]
      refine .silent (hw.work hmay hq hidle) (hrest hworker ▸ hs.entered ?_ haccepted hpc)
      simp [Queues.front, hbefore, hafter, hpending]
  | finished m hbefore hidle hafter hpending =>
      have hmay' : s.mayReturn = true := hmay.resolve_left (by simp [hbefore])
      obtain ⟨hfront, hworker⟩ := hs.of_mayReturn hmay' hidle
      have hshows := hs.entered (q := q) (by simp [hfront, hafter, hpending]) haccepted hpc
      rcases hworker with hworker | ⟨i, hhandler, hworker⟩
      · exact .silent (hw.work hmay hq hidle) (hrest hworker ▸ hshows)
      · -- The destructor has waited until the puller is drained.
        have hdrained : a.pullers[i]? = some {} := by
          cases hw.handler with
          | removing j id p hhandler' _ hp hstops =>
              obtain rfl : j = i := by simpa [hhandler'] using hhandler
              have hpc' := hw.idle_of_mayReturn hmay hp
              obtain ⟨hempty, hleft⟩ := (hw.pullers j p hp).ready.drained hstops hpc'
              rw [hs.pullers, Queues.puller, hp]
              simp [QueuedPuller.shown, hempty, hleft, MessageQueue.WorkerPc.busy]
          | entered h | posting _ _ _ _ _ h | posted _ _ _ _ h | failing _ h | returned _ h =>
              rw [hhandler] at h
              cases h
        have hstep : a.step .destroyed = some { a with worker := .idle } := by
          simp [State.step, hworker, hdrained]
        exact .step (hw.work hmay hq hidle) hstep hshows

/-! ## Handlers that are one step -/

omit [DecidableEq τ] in
theorem Shows.handle (hs : Shows s a) {m : Message} (hentered : s.handler = .entered)
    (hbusy : s.backend.worker.busy = some m) :
    a.step .handle = some ({ a with backendQueue := s.backend.pending }.handle m) := by
  have hworker : a.worker = .idle := by rw [hs.worker, Queues.workerPc, hentered]
  have hqueue : a.backendQueue = m :: s.backend.pending := by
    rw [hs.backendQueue, Queues.front, Queues.isAhead, hentered, hbusy]
    rfl
  simp only [State.step, hworker, hqueue]

omit [DecidableEq τ] in
/-- At the beginning of a handler the worker may only be posting from it. -/
theorem WorkerPosts.congr_of_entered {s' : Queues τ} (h : WorkerPosts s)
    (hentered : s.handler = .entered) (hbackend : s'.backend = s.backend) : WorkerPosts s' := by
  cases h with
  | idle hpc => exact .idle (hbackend ▸ hpc)
  | failing r phase hhandler =>
      rw [hentered] at hhandler
      cases hhandler
  | other phase hbusy hpc => exact .other phase (hbackend ▸ hbusy) (hbackend ▸ hpc)

theorem PullerWired.congr_of_entered {i : ℕ} {p : QueuedPuller} (h : PullerWired .entered i p)
    (handler : HandlerPc) : PullerWired handler i p := by
  have hidle : p.queue.pc (.client ()) = .idle := by
    by_contra hpc
    exact Bool.false_ne_true (h.used hpc)
  exact ⟨h.ready, h.stops, h.worker, fun hpc ↦ absurd hidle hpc, fun _ ↦ .inl hidle, h.answered⟩

omit [DecidableEq τ] in
/-- The handler is done at once, with one more `haveData` at most. -/
theorem Wired.returned (h : Wired s) (hentered : s.handler = .entered) {m : Message}
    (hbusy : s.backend.worker.busy = some m) (calls : List (MediaSourceStatus × ℕ)) :
    Wired { s with haveData := calls, handler := .returned } where
  ready := h.ready
  stops := h.stops
  threads := h.threads
  worker := h.worker.congr_of_entered hentered rfl
  answers i := (h.answers i).congr rfl rfl
  handler := .returned m rfl hbusy
  pullers i p hp := (hentered ▸ h.pullers i p hp).congr_of_entered _
  attached := h.attached
  distinct := h.distinct

omit [DecidableEq τ] in
/-- What is shown behind a handler that is done at once. -/
theorem Shows.returned (hs : Shows s a) (hentered : s.handler = .entered)
    (calls : List (MediaSourceStatus × ℕ)) {b : State}
    (hqueue : b.backendQueue = s.backend.pending) (hworker : b.worker = a.worker)
    (hsources : b.attachedSources = a.attachedSources) (hpullers : b.pullers = a.pullers)
    (haccepted : b.accepted = a.accepted) (hcalls : b.haveData = calls) :
    Shows { s with haveData := calls, handler := .returned } b where
  backendQueue := hqueue
  worker := by
    rw [hworker, hs.worker, Queues.workerPc, hentered]
    rfl
  attachedSources := hsources.trans hs.attachedSources
  pullers i := by
    rw [hpullers]
    exact hs.pullers i
  accepted := haccepted.trans hs.accepted
  haveData := hcalls

omit [DecidableEq τ] in
theorem simulated_haveData (hw : Wired s) (hs : Shows s a) {status : MediaSourceStatus}
    {r : Request} (hentered : s.handler = .entered)
    (hbusy : s.backend.worker.busy = some (.haveData status r)) :
    Simulated a { s with
      haveData :=
        if (s.attachedSources.lookup r.sourceId).isSome then
          s.haveData ++ [(status, r.needDataRequestId)]
        else s.haveData
      handler := .returned } := by
  refine .step (hw.returned hentered hbusy _) (hs.handle hentered hbusy)
    (hs.returned hentered _ rfl rfl rfl rfl rfl ?_)
  simp only [State.handle, hs.attachedSources, hs.haveData]

omit [DecidableEq τ] in
/-- The handler has nothing to do. -/
theorem simulated_skip (hw : Wired s) (hs : Shows s a) {m : Message}
    (hentered : s.handler = .entered) (hbusy : s.backend.worker.busy = some m)
    (hskip : { a with backendQueue := s.backend.pending }.handle m =
      { a with backendQueue := s.backend.pending }) :
    Simulated a { s with handler := .returned } := by
  have hstep := hs.handle hentered hbusy
  rw [hskip] at hstep
  exact .step (hw.returned hentered hbusy s.haveData) hstep
    (hs.returned hentered s.haveData rfl rfl rfl rfl rfl hs.haveData)

omit [DecidableEq τ] in
theorem Shows.length (hs : Shows s a) : a.pullers.length = s.pullers.length := by
  have hnone : ∀ i : ℕ, a.pullers[i]? = none ↔ s.pullers[i]? = none := by
    intro i
    rw [hs.pullers, Queues.puller, Option.map_eq_none_iff]
  simp only [List.getElem?_eq_none_iff] at hnone
  exact Nat.le_antisymm ((hnone _).mpr (Nat.le_refl _)) ((hnone _).mp (Nat.le_refl _))

omit [DecidableEq τ] in
theorem Wired.not_answering (h : Wired s) {i : ℕ} (hi : s.pullers[i]? = none) :
    s.backend.pc (.client (.puller i)) = .idle := by
  cases h.answers i with
  | idle hpc => exact hpc
  | answer p _ _ _ hp =>
      rw [hi] at hp
      cases hp

omit [DecidableEq τ] in
theorem Wired.attachSource (h : Wired s) (hentered : s.handler = .entered) {id : SourceId}
    (hbusy : s.backend.worker.busy = some (.attachSource id true)) :
    Wired { s with
      attachedSources := s.attachedSources.insert id s.pullers.length
      pullers := s.pullers ++ [{}]
      handler := .returned } where
  ready := h.ready
  stops := h.stops
  threads := h.threads
  worker := h.worker.congr_of_entered hentered rfl
  answers i := by
    by_cases hi : i < s.pullers.length
    · exact (h.answers i).congr rfl (List.getElem?_append_left hi)
    · exact .idle (h.not_answering (List.getElem?_eq_none (Nat.le_of_not_lt hi)))
  handler := .returned _ rfl hbusy
  pullers i p hp := by
    by_cases hi : i < s.pullers.length
    · rw [List.getElem?_append_left hi] at hp
      exact (hentered ▸ h.pullers i p hp).congr_of_entered _
    · rw [List.getElem?_append_right (Nat.le_of_not_lt hi)] at hp
      obtain rfl : p = {} := by simpa using List.mem_of_getElem? hp
      exact ⟨MessageQueue.ready_started, .inl rfl, rfl, fun hpc ↦ absurd rfl hpc,
        fun _ ↦ .inl rfl, by rintro ⟨⟩⟩
  attached id' i hlookup := by
    rw [Table.lookup_insert] at hlookup
    split at hlookup
    · cases hlookup
      exact ⟨{}, by simp, rfl⟩
    · obtain ⟨p, hp, hstops⟩ := h.attached id' i hlookup
      obtain ⟨hlt, -⟩ := List.getElem?_eq_some_iff.mp hp
      exact ⟨p, (List.getElem?_append_left hlt).trans hp, hstops⟩
  distinct id₁ id₂ i h₁ h₂ := by
    have hlt : ∀ id', s.attachedSources.lookup id' = some i → i < s.pullers.length := by
      intro id' hlookup
      obtain ⟨p, hp, -⟩ := h.attached id' i hlookup
      exact (List.getElem?_eq_some_iff.mp hp).1
    rw [Table.lookup_insert] at h₁ h₂
    split at h₁ <;> split at h₂
    · simp_all
    · cases h₁
      exact absurd (hlt _ h₂) (Nat.lt_irrefl _)
    · cases h₂
      exact absurd (hlt _ h₁) (Nat.lt_irrefl _)
    · exact h.distinct id₁ id₂ i h₁ h₂

omit [DecidableEq τ] in
theorem simulated_attachSource (hw : Wired s) (hs : Shows s a) (hentered : s.handler = .entered)
    {id : SourceId} (hbusy : s.backend.worker.busy = some (.attachSource id true))
    (hnone : s.attachedSources.lookup id = none) :
    Simulated a { s with
      attachedSources := s.attachedSources.insert id s.pullers.length
      pullers := s.pullers ++ [{}]
      handler := .returned } := by
  have hstep := hs.handle hentered hbusy
  simp only [State.handle, hs.attachedSources, hnone, and_self, if_true] at hstep
  refine .step (hw.attachSource hentered hbusy) hstep ⟨rfl, ?_, ?_, fun i ↦ ?_, hs.accepted,
    hs.haveData⟩
  · have hworker := hs.worker
    rw [Queues.workerPc, hentered] at hworker
    exact hworker
  · exact congrArg (fun n ↦ s.attachedSources.insert id n) hs.length
  · have hpullers := hs.pullers i
    rw [Queues.puller] at hpullers ⊢
    by_cases hi : i < s.pullers.length
    · rw [List.getElem?_append_left hi, List.getElem?_append_left (hs.length ▸ hi)]
      exact hpullers
    · have hle := Nat.le_of_not_lt hi
      rw [List.getElem?_append_right hle, List.getElem?_append_right (hs.length ▸ hle), hs.length]
      cases hj : i - s.pullers.length with
      | zero => rfl
      | succ j => simp

theorem simulated_fail (hw : Wired s) (hs : Shows s a) (hentered : s.handler = .entered)
    {r : Request} (hbusy : s.backend.worker.busy = some (.needData r))
    (hnone : s.attachedSources.lookup r.sourceId = none)
    (hq : s.backend.step (.begin .worker (.postMessage (.haveData .error r))) = some q) :
    Simulated a { s with handler := .failing r, backend := q } := by
  have henters := MessageQueue.enters_postMessage hq
  have hfailing : Wired { s with handler := .failing r } :=
    { hw with
      worker := .idle henters.before
      answers := fun i ↦ (hw.answers i).congr rfl rfl
      handler := .failing r rfl hbusy
      pullers := fun i p hp ↦ (hentered ▸ hw.pullers i p hp).congr_of_entered _ }
  have hwired := hfailing.workerStep hq (by simp) (by simp) henters.mail.worker henters.others
    (.failing r .entering rfl henters.after)
  have hstep := hs.handle hentered hbusy
  simp only [State.handle, hs.attachedSources, hnone] at hstep
  refine .step hwired hstep ⟨henters.mail.pending.symm, ?_, rfl, fun i ↦ ?_, ?_, hs.haveData⟩
  · simp [Queues.workerPc, henters.after]
  · rw [Queues.puller, Queues.isAnswering, henters.others _ (by simp)]
    exact hs.pullers i
  · rw [Queues.accepted, henters.mail.accepted]
    exact hs.accepted

end RialtoGStreamer.NeedData
