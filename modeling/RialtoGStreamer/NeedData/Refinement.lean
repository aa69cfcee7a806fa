import RialtoGStreamer.NeedData.Answers
import RialtoGStreamer.NeedData.BackendSteps

/-!
# The queues refine the model with lists

The steps of a puller's queue, taken by its own thread or by the worker in
`requestPullBuffer` and in the destructor, and from all the steps together: every run
over the queues shows what some run of `machine` shows, and nothing is ever refused.
-/

namespace RialtoGStreamer.NeedData

open Library MediaPlayerClient
open MessageQueue (Thread Ready)

variable {τ : Type*} [DecidableEq τ]

/-! ## Steps of a puller's queue -/

section

variable {s : Queues τ} {a : State} {i : ℕ} {p c : QueuedPuller}
  {q' : MessageQueue.State Unit Request} {handler : HandlerPc} {sources : Table SourceId ℕ}

omit [DecidableEq τ] in
theorem getElem?_setPuller {j : ℕ} (hp : s.pullers[i]? = some p) :
    (s.pullers.set i c)[j]? = if j = i then some c else s.pullers[j]? := by
  obtain ⟨hlt, -⟩ := List.getElem?_eq_some_iff.mp hp
  by_cases hj : j = i
  · subst hj
    rw [List.getElem?_set_self hlt, if_pos rfl]
  · rw [List.getElem?_set_ne (Ne.symm hj), if_neg hj]

omit [DecidableEq τ] in
theorem HandlerFits.set (h : HandlerFits s)
    (hp : s.pullers[i]? = some p) (hpc : c.queue.pc (.client ()) = p.queue.pc (.client ()))
    (haccepted : c.queue.accepted = p.queue.accepted)
    (hstops : c.queue.stops = p.queue.stops) : HandlerFits (s.setPuller i c) := by
  have hset : ∀ {j : ℕ} {p₀ : QueuedPuller}, s.pullers[j]? = some p₀ →
      ∃ p₁, (s.setPuller i c).pullers[j]? = some p₁ ∧
        p₁.queue.pc (.client ()) = p₀.queue.pc (.client ()) ∧
        p₁.queue.accepted = p₀.queue.accepted ∧ p₁.queue.stops = p₀.queue.stops := by
    intro j p₀ hp₀
    by_cases hj : j = i
    · subst hj
      obtain rfl : p = p₀ := Option.some.inj (hp.symm.trans hp₀)
      exact ⟨c, (getElem?_setPuller hp).trans (if_pos rfl), hpc, haccepted, hstops⟩
    · exact ⟨p₀, (getElem?_setPuller hp).trans ((if_neg hj).trans hp₀), rfl, rfl, rfl⟩
  cases h with
  | entered hhandler => exact .entered hhandler
  | posting j n r p₀ phase hhandler hb hl hp₀ hpc₀ hn =>
      obtain ⟨p₁, hp₁, hpc₁, hacc₁, -⟩ := hset hp₀
      exact .posting j n r p₁ phase hhandler hb hl hp₁ (hpc₁.trans hpc₀) (hacc₁ ▸ hn)
  | posted j n r p₀ hhandler hb hp₀ hpc₀ hn =>
      obtain ⟨p₁, hp₁, hpc₁, hacc₁, -⟩ := hset hp₀
      exact .posted j n r p₁ hhandler hb hp₁ (hpc₁.trans hpc₀) (hacc₁ ▸ hn)
  | failing r hhandler hb => exact .failing r hhandler hb
  | removing j id p₀ hhandler hb hp₀ hstops₀ =>
      obtain ⟨p₁, hp₁, -, -, hstops₁⟩ := hset hp₀
      exact .removing j id p₁ hhandler hb hp₁ (hstops₁.trans hstops₀)
  | returned m hhandler hb => exact .returned m hhandler hb

omit [DecidableEq τ] in
theorem Wired.set (h : Wired s) (hp : s.pullers[i]? = some p)
    (hposts : WorkerPosts { s with
      handler := handler, attachedSources := sources, pullers := s.pullers.set i c })
    (hanswers : PullerPosts { s with
      handler := handler, attachedSources := sources, pullers := s.pullers.set i c } i)
    (hfits : HandlerFits { s with
      handler := handler, attachedSources := sources, pullers := s.pullers.set i c })
    (hwired : PullerWired handler i c)
    (hothers : ∀ j p, j ≠ i → s.pullers[j]? = some p → PullerWired handler j p)
    (hsources : ∀ id j, sources.lookup id = some j → s.attachedSources.lookup id = some j)
    (hstops : ∀ id, sources.lookup id = some i → c.queue.stops = []) :
    Wired { s with
      handler := handler, attachedSources := sources, pullers := s.pullers.set i c } where
  ready := h.ready
  stops := h.stops
  threads := h.threads
  worker := hposts
  answers j := by
    by_cases hj : j = i
    · exact hj ▸ hanswers
    · exact (h.answers j).congr rfl ((getElem?_setPuller hp).trans (if_neg hj))
  handler := hfits
  pullers j p₀ hp₀ := by
    replace hp₀ := (getElem?_setPuller (c := c) hp).symm.trans hp₀
    split at hp₀
    · next hj =>
        cases hp₀
        exact hj ▸ hwired
    · next hj => exact hothers j p₀ hj hp₀
  attached id j hlookup := by
    by_cases hj : j = i
    · subst hj
      exact ⟨c, (getElem?_setPuller hp).trans (if_pos rfl), hstops id hlookup⟩
    · obtain ⟨p₀, hp₀, hstops₀⟩ := h.attached id j (hsources id j hlookup)
      exact ⟨p₀, (getElem?_setPuller hp).trans ((if_neg hj).trans hp₀), hstops₀⟩
  distinct id id' j h₁ h₂ := h.distinct id id' j (hsources id j h₁) (hsources id' j h₂)

omit [DecidableEq τ] in
/-- What is shown when one puller and the handler change. -/
theorem Shows.set (h : Shows s a) (hp : s.pullers[i]? = some p) {b : State}
    (hqueue : b.backendQueue = Queues.front { s with
      handler := handler, attachedSources := sources, pullers := s.pullers.set i c } ++
        s.backend.pending)
    (hworker : b.worker = Queues.workerPc { s with
      handler := handler, attachedSources := sources, pullers := s.pullers.set i c })
    (hsources : b.attachedSources = sources)
    (hpuller : b.pullers[i]? = some (c.shown (s.isAnswering i)))
    (hothers : ∀ j, j ≠ i → b.pullers[j]? = a.pullers[j]?)
    (haccepted : b.accepted = a.accepted) (hhaveData : b.haveData = a.haveData) :
    Shows { s with
      handler := handler, attachedSources := sources, pullers := s.pullers.set i c } b where
  backendQueue := hqueue
  worker := hworker
  attachedSources := hsources
  pullers j := by
    rw [Queues.puller, getElem?_setPuller hp]
    by_cases hj : j = i
    · subst hj
      rw [if_pos rfl, hpuller]
      rfl
    · rw [if_neg hj, hothers j hj]
      exact h.pullers j
  accepted := haccepted.trans h.accepted
  haveData := hhaveData.trans h.haveData

omit [DecidableEq τ] in
theorem PullerPosts.set (h : PullerPosts s i) (hp : s.pullers[i]? = some p)
    (hanswered : c.answered = p.answered)
    (hbusy : c.queue.worker.busy = p.queue.worker.busy) :
    PullerPosts { s with
      handler := handler, attachedSources := sources, pullers := s.pullers.set i c } i := by
  cases h with
  | idle hpc => exact .idle hpc
  | answer p₀ r status phase hp₀ hanswered₀ hbusy₀ hpc =>
      obtain rfl : p = p₀ := Option.some.inj (hp.symm.trans hp₀)
      exact .answer c r status phase ((getElem?_setPuller hp).trans (if_pos rfl))
        (hanswered.trans hanswered₀) (hbusy.trans hbusy₀) hpc

omit [DecidableEq τ] in
theorem Wired.stops_of_lookup (h : Wired s) (hp : s.pullers[i]? = some p) {id : SourceId}
    (hlookup : s.attachedSources.lookup id = some i) : p.queue.stops = [] := by
  obtain ⟨p₀, hp₀, hstops⟩ := h.attached id i hlookup
  obtain rfl : p = p₀ := Option.some.inj (hp.symm.trans hp₀)
  exact hstops

theorem shown_congr {b : Bool} (hmail : MessageQueue.SameMail p.queue q') :
    QueuedPuller.shown { p with queue := q' } b = p.shown b := by
  simp only [QueuedPuller.shown, hmail.pending, hmail.worker]

omit [DecidableEq τ] in
theorem Shows.shown (hs : Shows s a) (hp : s.pullers[i]? = some p) :
    a.pullers[i]? = some (p.shown (s.isAnswering i)) := by
  rw [hs.pullers, Queues.puller, hp]
  rfl

omit [DecidableEq τ] in
theorem Queues.front_of_posting {r : Request} {phase : MessageQueue.PostPhase} {n : ℕ}
    (hhandler : s.handler = .requesting i n) (hbusy : s.backend.worker.busy = some (.needData r))
    (hp : s.pullers[i]? = some p) (hpc : p.queue.pc (.client ()) = .posting r false phase) :
    s.front = [.needData r] := by
  simp [Queues.front, Queues.isAhead, Queues.isPosting, hhandler, hbusy, hp, hpc]

omit [DecidableEq τ] in
/-- The worker enters `postMessage` of the puller. -/
theorem simulated_request (hw : Wired s) (hs : Shows s a) (hentered : s.handler = .entered)
    {r : Request} (hbusy : s.backend.worker.busy = some (.needData r))
    (hlookup : s.attachedSources.lookup r.sourceId = some i) (hp : s.pullers[i]? = some p)
    (hq : p.queue.step (.begin (.client ()) (.postMessage r)) = some q') :
    Simulated a { s with
      handler := .requesting i p.queue.accepted.length
      pullers := s.pullers.set i { p with queue := q' } } := by
  have henters := MessageQueue.enters_postMessage hq
  have hset : (s.pullers.set i { p with queue := q' })[i]? = some { p with queue := q' } :=
    (getElem?_setPuller hp).trans (if_pos rfl)
  obtain ⟨hready, hstops, hworker, -, -, hanswered⟩ := hw.pullers i p hp
  have hwired : Wired { s with
      handler := .requesting i p.queue.accepted.length
      pullers := s.pullers.set i { p with queue := q' } } := by
    refine hw.set hp (hw.worker.congr_of_entered hentered rfl)
      ((hw.answers i).set hp rfl (congrArg _ henters.mail.worker))
      (.posting i _ r _ .entering rfl hbusy hlookup hset henters.after
        (congrArg _ henters.mail.accepted)) ?_
      (fun j p₀ _ hp₀ ↦ (hentered ▸ hw.pullers j p₀ hp₀).congr_of_entered _)
      (fun _ _ h ↦ h) fun _ _ ↦ ?_
    · refine ⟨hready.step (by simp) hq, ?_, (henters.others _ (by simp)).trans hworker,
        fun _ ↦ decide_eq_true rfl, by rintro ⟨⟩, fun h ↦ ?_⟩
      · exact MessageQueue.stops_of_step (by simp) hq ▸ hstops
      · exact henters.mail.worker ▸ hanswered h
    · exact (MessageQueue.stops_of_step (by simp) hq).trans (hw.stops_of_lookup hp hlookup)
  have hworker : a.worker = .idle := by rw [hs.worker, Queues.workerPc, hentered]
  refine .silent hwired (hs.set hp ?_ hworker hs.attachedSources ?_ (fun _ _ ↦ rfl) rfl rfl)
  · have hfront := Queues.front_of_posting (s := { s with
      handler := .requesting i p.queue.accepted.length
      pullers := s.pullers.set i { p with queue := q' } }) (p := { p with queue := q' })
      rfl hbusy hset henters.after
    rw [hs.backendQueue, hfront, Queues.front, Queues.isAhead, hentered, hbusy]
    rfl
  · rw [hs.shown hp, shown_congr henters.mail]

omit [DecidableEq τ] in
/-- A step of the worker inside `postMessage` of the puller. -/
theorem simulated_requesting (hw : Wired s) (hs : Shows s a) {n : ℕ} {r : Request}
    {phase : MessageQueue.PostPhase} (hhandler : s.handler = .requesting i n)
    (hbusy : s.backend.worker.busy = some (.needData r))
    (hlookup : s.attachedSources.lookup r.sourceId = some i) (hp : s.pullers[i]? = some p)
    (hpc : p.queue.pc (.client ()) = .posting r false phase) (hn : p.queue.accepted.length = n)
    (hq : p.queue.step (.advance (.client ())) = some q') :
    Simulated a (s.setPuller i { p with queue := q' }) := by
  have hturn := (MessageQueue.turn_of_advance hq).1
  have hset : (s.setPuller i { p with queue := q' }).pullers[i]? = some { p with queue := q' } :=
    (getElem?_setPuller hp).trans (if_pos rfl)
  obtain ⟨hready, hstops, hpcWorker, -, -, hanswered⟩ := hw.pullers i p hp
  have hopen := hw.stops_of_lookup hp hlookup
  have hfront := Queues.front_of_posting hhandler hbusy hp hpc
  have hworker : a.worker = .idle := by rw [hs.worker, Queues.workerPc, hhandler]
  have hwired : HandlerFits (s.setPuller i { p with queue := q' }) →
      Wired (s.setPuller i { p with queue := q' }) := by
    intro hfits
    refine hw.set hp (hw.worker.congr rfl rfl rfl)
      ((hw.answers i).set hp rfl (congrArg _ hturn.worker)) hfits ?_
      (fun j p₀ _ hp₀ ↦ hw.pullers j p₀ hp₀) (fun _ _ h ↦ h) fun _ _ ↦ ?_
    · refine ⟨hready.step (by simp) hq, ?_, (hturn.others _ (by simp)).trans hpcWorker,
        fun _ ↦ ?_, fun h ↦ ?_, fun h ↦ ?_⟩
      · exact MessageQueue.stops_of_step (by simp) hq ▸ hstops
      · rw [hhandler]
        exact decide_eq_true rfl
      · rw [hhandler] at h
        cases h
      · exact hturn.worker ▸ hanswered h
    · exact (MessageQueue.stops_of_step (by simp) hq).trans hopen
  cases hready.postStep hopen hpc hq with
  | going phase' hpc' hmail =>
      refine .silent (hwired (.posting i n r _ phase' hhandler hbusy hlookup hset hpc'
        ((congrArg _ hmail.accepted).trans hn))) (hs.set hp ?_ hs.worker hs.attachedSources ?_
          (fun _ _ ↦ rfl) rfl rfl)
      · rw [hs.backendQueue, hfront]
        have hfront' := Queues.front_of_posting (s := s.setPuller i { p with queue := q' })
          (p := { p with queue := q' }) hhandler hbusy hset hpc'
        exact congrArg (· ++ _) hfront'.symm
      · rw [hs.shown hp, shown_congr hmail]
  | accepted hpc' haccepted hpending hqworker =>
      have hidle : q'.pc (.client ()) = .idle := by simpa using hpc'
      have hqueue : a.backendQueue = .needData r :: s.backend.pending := by
        rw [hs.backendQueue, hfront]
        rfl
      have hstep : a.step .handle = some { a with
          backendQueue := s.backend.pending
          pullers := a.pullers.set i { p.shown (s.isAnswering i) with
            queue := (p.shown (s.isAnswering i)).queue ++ [r] }
          steady := r :: a.steady } := by
        simp only [State.step, hworker, hqueue, State.handle, State.requestPullBuffer,
          hs.attachedSources, hlookup, hs.shown hp]
      obtain ⟨hlt, -⟩ := List.getElem?_eq_some_iff.mp (hs.shown hp)
      refine .step (hwired (.posted i n r _ hhandler hbusy hset hidle (by simp [haccepted, hn])))
        hstep (hs.set hp ?_ hs.worker hs.attachedSources ?_ (fun j hj ↦ ?_) rfl rfl)
      · simp [Queues.front, Queues.isAhead, Queues.isPosting, hhandler, hidle,
          getElem?_setPuller hp]
      · rw [List.getElem?_set_self hlt]
        simp only [QueuedPuller.shown, hpending, hqworker]
      · exact List.getElem?_set_ne (Ne.symm hj)

omit [DecidableEq τ] in
/-- The source is erased, and its puller's destructor stops the queue. -/
theorem simulated_removeSource (hw : Wired s) (hs : Shows s a) (hentered : s.handler = .entered)
    {id : SourceId} (hbusy : s.backend.worker.busy = some (.removeSource id))
    (hlookup : s.attachedSources.lookup id = some i) (hp : s.pullers[i]? = some p)
    (hq : p.queue.step (.begin (.client ()) .stop) = some q') :
    Simulated a { s with
      attachedSources := s.attachedSources.erase id
      handler := .removing i
      pullers := s.pullers.set i { p with queue := q' } } := by
  have henters := MessageQueue.enters_stop hq
  have hset : (s.pullers.set i { p with queue := q' })[i]? = some { p with queue := q' } :=
    (getElem?_setPuller hp).trans (if_pos rfl)
  have hstops : q'.stops = [.client ()] := by
    rw [MessageQueue.stops_of_beginStop hq, hw.stops_of_lookup hp hlookup]
    rfl
  obtain ⟨hready, -, hworker, -, -, hanswered⟩ := hw.pullers i p hp
  have herase : ∀ id' j, (s.attachedSources.erase id).lookup id' = some j →
      id' ≠ id ∧ s.attachedSources.lookup id' = some j := by
    intro id' j h
    rw [Table.lookup_erase] at h
    split at h
    · cases h
    · next hne => exact ⟨hne, h⟩
  have hstep := hs.handle hentered hbusy
  simp only [State.handle, hs.attachedSources, hlookup] at hstep
  refine .step (hw.set hp (hw.worker.congr_of_entered hentered rfl)
      ((hw.answers i).set hp rfl (congrArg _ henters.mail.worker))
      (.removing i id _ rfl hbusy hset hstops) ?_
      (fun j p₀ _ hp₀ ↦ (hentered ▸ hw.pullers j p₀ hp₀).congr_of_entered _)
      (fun id' j h ↦ (herase id' j h).2) fun id' h ↦ ?_) hstep
    (hs.set hp rfl rfl rfl ?_ (fun _ _ ↦ rfl) rfl rfl)
  · refine ⟨hready.step (by simp) hq, .inr hstops, (henters.others _ (by simp)).trans hworker,
      fun _ ↦ decide_eq_true rfl, fun _ ↦ .inr ?_, fun h ↦ henters.mail.worker ▸ hanswered h⟩
    rw [henters.after]
    rfl
  · -- No other source has this puller.
    obtain ⟨hne, hlookup'⟩ := herase id' i h
    exact absurd (hw.distinct id' id i hlookup' hlookup) hne
  · exact (hs.shown hp).trans (congrArg some (shown_congr henters.mail).symm)

omit [DecidableEq τ] in
/-- A step of the worker inside the destructor of the puller. -/
theorem simulated_removing (hw : Wired s) (hs : Shows s a) (hhandler : s.handler = .removing i)
    (hp : s.pullers[i]? = some p) (hstops : p.queue.stops = [.client ()])
    (hq : p.queue.step (.advance (.client ())) = some q') :
    Simulated a (s.setPuller i { p with queue := q' }) := by
  obtain ⟨hturn, hinside⟩ := MessageQueue.turn_of_advance hq
  obtain ⟨hready, -, hworker, -, hstopping, hanswered⟩ := hw.pullers i p hp
  obtain ⟨hafter, hmail⟩ := MessageQueue.stop_step ((hstopping hhandler).resolve_left hinside) hq
  have hstops' : q'.stops = [.client ()] :=
    (MessageQueue.stops_of_step (by simp) hq).trans hstops
  have hset : (s.setPuller i { p with queue := q' }).pullers[i]? = some { p with queue := q' } :=
    (getElem?_setPuller hp).trans (if_pos rfl)
  obtain ⟨id, hbusy⟩ : ∃ id, s.backend.worker.busy = some (.removeSource id) := by
    cases hw.handler with
    | removing _ id _ _ hb => exact ⟨id, hb⟩
    | entered h | posting _ _ _ _ _ h | posted _ _ _ _ h | failing _ h | returned _ h =>
        rw [hhandler] at h
        cases h
  refine .silent (hw.set hp (hw.worker.congr rfl rfl rfl)
      ((hw.answers i).set hp rfl (congrArg _ hturn.worker))
      (.removing i id _ hhandler hbusy hset hstops') ?_
      (fun j p₀ _ hp₀ ↦ hw.pullers j p₀ hp₀) (fun _ _ h ↦ h) fun id' h ↦ ?_)
    (hs.set hp ?_ hs.worker hs.attachedSources ?_ (fun _ _ ↦ rfl) rfl rfl)
  · refine ⟨hready.step (by simp) hq, .inr hstops', (hturn.others _ (by simp)).trans hworker,
      fun _ ↦ ?_, fun _ ↦ hafter, fun h ↦ hmail.worker ▸ hanswered h⟩
    rw [hhandler]
    exact decide_eq_true rfl
  · rw [hw.stops_of_lookup hp h] at hstops
    cases hstops
  · rw [hs.backendQueue, Queues.front, Queues.front, Queues.isAhead, Queues.isAhead]
    simp [hhandler]
  · rw [hs.shown hp, shown_congr hmail]

omit [DecidableEq τ] in
theorem simulated_advancePuller (hw : Wired s) (hs : Shows s a) (hp : s.pullers[i]? = some p)
    (hq : p.queue.step (.advance (.client ())) = some q') :
    Simulated a (s.setPuller i { p with queue := q' }) := by
  have hinside := (MessageQueue.turn_of_advance hq).2
  have huses := (hw.pullers i p hp).used hinside
  cases hw.handler with
  | posting j n r p₀ phase hhandler hb hl hp₀ hpc hn =>
      rw [hhandler] at huses
      obtain rfl : i = j := of_decide_eq_true huses
      obtain rfl : p = p₀ := Option.some.inj (hp.symm.trans hp₀)
      exact simulated_requesting hw hs hhandler hb hl hp hpc hn hq
  | posted j n r p₀ hhandler hb hp₀ hpc =>
      rw [hhandler] at huses
      obtain rfl : i = j := of_decide_eq_true huses
      obtain rfl : p = p₀ := Option.some.inj (hp.symm.trans hp₀)
      exact absurd hpc hinside
  | removing j id p₀ hhandler hb hp₀ hstops =>
      rw [hhandler] at huses
      obtain rfl : i = j := of_decide_eq_true huses
      obtain rfl : p = p₀ := Option.some.inj (hp.symm.trans hp₀)
      exact simulated_removing hw hs hhandler hp hstops hq
  | entered hhandler | failing _ hhandler | returned _ hhandler =>
      rw [hhandler] at huses
      cases huses

/-! ## The threads of the pullers -/

omit [DecidableEq τ] in
theorem Wired.workPuller (h : Wired s) (hp : s.pullers[i]? = some p)
    (hidle : s.backend.pc (.client (.puller i)) = .idle) (hq : p.queue.step .work = some q') :
    Wired (s.setPuller i { queue := q', answered := false }) := by
  obtain ⟨hready, hstops, hworker, hused, hstopping, -⟩ := h.pullers i p hp
  have hone : p.queue.stops.length ≤ 1 := by rcases hstops with hstops | hstops <;> simp [hstops]
  obtain ⟨-, haccepted, hpc⟩ := hready.workStep hone hq
  have hsame := MessageQueue.stops_of_step (by simp) hq
  refine h.set hp (h.worker.congr rfl rfl rfl) (.idle hidle)
    (h.handler.set hp (congrFun hpc _) haccepted hsame)
    ⟨hready.step (by simp) hq, hsame ▸ hstops, (congrFun hpc _).trans hworker, ?_, ?_,
      by rintro ⟨⟩⟩
    (fun j p₀ _ hp₀ ↦ h.pullers j p₀ hp₀) (fun _ _ h ↦ h)
    fun id hlookup ↦ hsame.trans (h.stops_of_lookup hp hlookup)
  · rw [hpc]
    exact hused
  · rw [hpc]
    exact hstopping

omit [DecidableEq τ] in
theorem Wired.not_answering_of_busy (h : Wired s) (hp : s.pullers[i]? = some p)
    (hbusy : p.queue.worker.busy = none) : s.backend.pc (.client (.puller i)) = .idle := by
  cases h.answers i with
  | idle hpc => exact hpc
  | answer p₀ r _ _ hp₀ _ hbusy₀ =>
      obtain rfl : p = p₀ := Option.some.inj (hp.symm.trans hp₀)
      rw [hbusy] at hbusy₀
      cases hbusy₀

omit [DecidableEq τ] in
/-- The loop of a puller does not matter to the handler of the backend's worker. -/
theorem Queues.front_setPuller (hp : s.pullers[i]? = some p)
    (hpc : c.queue.pc (.client ()) = p.queue.pc (.client ())) :
    (s.setPuller i c).front = s.front := by
  have hposting : ∀ j, (s.setPuller i c).isPosting j = s.isPosting j := by
    intro j
    rw [Queues.isPosting, Queues.isPosting, Queues.setPuller, getElem?_setPuller hp]
    by_cases hj : j = i
    · subst hj
      simp [hp, hpc]
    · rw [if_neg hj]
  have hahead : (s.setPuller i c).isAhead = s.isAhead := by
    rw [Queues.isAhead, Queues.isAhead]
    cases hhandler : s.handler with
    | requesting j n => simpa [Queues.setPuller, hhandler] using hposting j
    | entered | failing | removing | returned => simp [Queues.setPuller, hhandler]
  rw [Queues.front, Queues.front, hahead]
  rfl

omit [DecidableEq τ] in
theorem simulated_workPuller (hw : Wired s) (hs : Shows s a) (hp : s.pullers[i]? = some p)
    (hmay : p.queue.worker.busy = none ∨
      (p.answered = true ∧ s.backend.pc (.client (.puller i)) = .idle))
    (hq : p.queue.step .work = some q') :
    Simulated a (s.setPuller i { queue := q', answered := false }) := by
  have hidle : s.backend.pc (.client (.puller i)) = .idle := by
    rcases hmay with hbusy | hmay
    · exact hw.not_answering_of_busy hp hbusy
    · exact hmay.2
  have hone : p.queue.stops.length ≤ 1 := by
    rcases (hw.pullers i p hp).stops with hstops | hstops <;> simp [hstops]
  obtain ⟨hstep, -, hpc⟩ := (hw.pullers i p hp).ready.workStep hone hq
  have hwired := hw.workPuller hp hidle hq
  have hfront := Queues.front_setPuller (s := s) (c := { queue := q', answered := false }) hp
    (congrFun hpc _)
  have hqueue : a.backendQueue =
      (s.setPuller i { queue := q', answered := false }).front ++ s.backend.pending := by
    rw [hfront, hs.backendQueue]
  have hshown := hs.shown hp
  have hsilent : q'.pending = p.queue.pending → q'.worker.busy = none →
      (p.shown (s.isAnswering i)).busy = none →
      Shows (s.setPuller i { queue := q', answered := false }) a := by
    intro hpending hafter hbefore
    refine hs.set hp hqueue hs.worker hs.attachedSources ?_ (fun _ _ ↦ rfl) rfl rfl
    rw [hshown, Option.some.injEq]
    simp only [QueuedPuller.shown] at hbefore ⊢
    rw [hbefore, hpending, hafter]
    rfl
  cases hstep with
  | silent hbefore hafter hpending =>
      exact .silent hwired (hsilent hpending hafter (by simp [QueuedPuller.shown, hbefore]))
  | finished m hbefore hidle' hafter hpending =>
      have hanswered := (hmay.resolve_left (by simp [hbefore])).1
      refine .silent hwired (hsilent hpending hafter ?_)
      simp [QueuedPuller.shown, Queues.isAnswering, hanswered, hidle]
  | taken m hbefore hafter hpending =>
      have hi : a.pullers[i]? = some ⟨m :: q'.pending, none⟩ := by
        rw [hshown]
        simp [QueuedPuller.shown, hbefore, hpending]
      have hstep : a.step (.take i) =
          some { a with pullers := a.pullers.set i ⟨q'.pending, some m⟩ } := by
        simp only [State.step, hi]
      obtain ⟨hlt, -⟩ := List.getElem?_eq_some_iff.mp hi
      refine .step hwired hstep (hs.set hp hqueue hs.worker hs.attachedSources ?_
        (fun j hj ↦ List.getElem?_set_ne (Ne.symm hj)) rfl rfl)
      rw [List.getElem?_set_self hlt]
      simp [QueuedPuller.shown, hafter]

theorem simulated_answer (hw : Wired s) (hs : Shows s a) {r : Request}
    {status : MediaSourceStatus} {q : MessageQueue.State (Poster τ) Message}
    (hp : s.pullers[i]? = some p) (hbusy : p.queue.worker.busy = some r)
    (hanswered : p.answered = false)
    (hq : s.backend.step (.begin (.client (.puller i)) (.postMessage (.haveData status r))) =
      some q) :
    Simulated a { s.setPuller i { p with answered := true } with backend := q } := by
  have henters := MessageQueue.enters_postMessage hq
  obtain ⟨hready, hstops, hworker, hused, hstopping, -⟩ := hw.pullers i p hp
  have hset : (s.setPuller i { p with answered := true }).pullers[i]? =
      some { p with answered := true } := (getElem?_setPuller hp).trans (if_pos rfl)
  have hwired : Wired (s.setPuller i { p with answered := true }) :=
    hw.set hp (hw.worker.congr rfl rfl rfl) (.idle henters.before)
      (hw.handler.set hp rfl rfl rfl)
      ⟨hready, hstops, hworker, hused, hstopping, fun _ ↦ by rw [hbusy]; rfl⟩
      (fun j p₀ _ hp₀ ↦ hw.pullers j p₀ hp₀) (fun _ _ h ↦ h)
      fun id hlookup ↦ hw.stops_of_lookup (p := p) hp hlookup
  have hafter : Wired { s.setPuller i { p with answered := true } with backend := q } :=
    hwired.pullerStep hq (by simp) (by simp) henters.mail.worker henters.others
      (.answer _ r status .entering hset rfl hbusy henters.after)
  refine .silent hafter ⟨?_, ?_, hs.attachedSources, fun j ↦ ?_, ?_, hs.haveData⟩
  · have hfront := Queues.front_setPuller (s := s) (c := { p with answered := true }) hp rfl
    rw [hs.backendQueue, ← hfront, ← henters.mail.pending]
    exact congrArg (· ++ _) (front_congr (s := s.setPuller i _) henters.mail.worker).symm
  · rw [hs.worker, Queues.workerPc, Queues.workerPc, henters.others _ (by simp)]
    rfl
  · rw [hs.pullers, Queues.puller, Queues.puller, Queues.isAnswering, Queues.isAnswering,
      Queues.setPuller, getElem?_setPuller hp]
    by_cases hj : j = i
    · subst hj
      simp [hp, QueuedPuller.shown, hanswered, henters.after]
    · rw [if_neg hj, henters.others _ (by simpa using hj)]
  · rw [hs.accepted, Queues.accepted, Queues.accepted, henters.mail.accepted]

end

/-! ## Runs -/

theorem stepBackend_spec {s s' : Queues τ} {e : MessageQueue.Event (Poster τ) Message}
    (h : s.stepBackend e = some s') :
    ∃ q, s.backend.step e = some q ∧ s' = { s with backend := q } := by
  obtain ⟨q, hq, rfl⟩ := Option.map_eq_some_iff.mp h
  exact ⟨q, hq, rfl⟩

omit [DecidableEq τ] in
theorem stepPuller_spec {s s' : Queues τ} {i : ℕ} {e : MessageQueue.Event Unit Request}
    (h : s.stepPuller i e = some s') :
    ∃ p q, s.pullers[i]? = some p ∧ p.queue.step e = some q ∧
      s' = s.setPuller i { p with queue := q } := by
  simp only [Queues.stepPuller] at h
  split at h
  · next p hp =>
      obtain ⟨q, hq, rfl⟩ := Option.map_eq_some_iff.mp h
      exact ⟨p, q, hp, hq, rfl⟩
  · cases h

theorem simulated_needData {s s' : Queues τ} {a : State} (hw : Wired s) (hs : Shows s a)
    {r : Request} (hentered : s.handler = .entered)
    (hbusy : s.backend.worker.busy = some (.needData r))
    (h : s.requestPullBuffer r = some s') : Simulated a s' := by
  simp only [Queues.requestPullBuffer] at h
  split at h
  · next i hlookup =>
      split at h
      · next p hp =>
          obtain ⟨p₀, q, hp₀, hq, rfl⟩ := stepPuller_spec h
          obtain rfl : p = p₀ := Option.some.inj (hp.symm.trans hp₀)
          exact simulated_request (s := s) hw hs hentered hbusy hlookup hp hq
      · cases h
  · next hnone =>
      obtain ⟨q, hq, rfl⟩ := stepBackend_spec h
      exact simulated_fail hw hs hentered hbusy hnone hq

omit [DecidableEq τ] in
/-- The post to a puller of an attached source does not return false. -/
theorem Wired.not_isRefused {s : Queues τ} (h : Wired s) {i n : ℕ}
    (hhandler : s.handler = .requesting i n) : s.isRefused i n = false := by
  cases h.handler with
  | posting j n' r p phase hhandler' _ _ hp hpc =>
      obtain ⟨rfl, rfl⟩ : j = i ∧ n' = n := by simpa [hhandler'] using hhandler
      simp [Queues.isRefused, hp, hpc]
  | posted j n' r p hhandler' _ hp hpc hn =>
      obtain ⟨rfl, rfl⟩ : j = i ∧ n' = n := by simpa [hhandler'] using hhandler
      simp [Queues.isRefused, hp, Nat.ne_of_gt hn]
  | entered h | failing _ h | removing _ _ _ h | returned _ h =>
      rw [hhandler] at h
      cases h

theorem simulated_handle {s s' : Queues τ} {a : State} (hw : Wired s) (hs : Shows s a)
    {m : Message} (hbusy : s.backend.worker.busy = some m) (h : s.handle m = some s') :
    Simulated a s' := by
  simp only [Queues.handle] at h
  split at h
  · next r hentered => exact simulated_needData hw hs hentered hbusy h
  · next i n r hhandler =>
      rw [hw.not_isRefused hhandler] at h
      cases h
  · next status r hentered =>
      cases h
      exact simulated_haveData hw hs hentered hbusy
  · next id result hentered =>
      split at h <;> cases h
      · next hattach =>
          obtain ⟨rfl, hnone⟩ := hattach
          exact simulated_attachSource hw hs hentered hbusy hnone
      · next hattach =>
          refine simulated_skip hw hs hentered hbusy ?_
          simp only [State.handle, hs.attachedSources, if_neg hattach]
  · next id hentered =>
      split at h
      · next i hlookup =>
          obtain ⟨p, q, hp, hq, rfl⟩ := stepPuller_spec h
          exact simulated_removeSource hw hs hentered hbusy hlookup hp hq
      · next hnone =>
          cases h
          refine simulated_skip hw hs hentered hbusy ?_
          simp only [State.handle, hs.attachedSources, hnone]
  · next hentered =>
      cases h
      exact simulated_skip hw hs hentered hbusy rfl
  · cases h

theorem simulated_event {s s' : Queues τ} {a : State} {e : QueuesEvent τ} (hw : Wired s)
    (hs : Shows s a) (h : s.step e = some s') : Simulated a s' := by
  cases e with
  | notifyNeedMediaData t r =>
      obtain ⟨q, hq, rfl⟩ := stepBackend_spec h
      exact simulated_enters hw hs (by simp) (by simp) (by simp) hq
        (MessageQueue.enters_postMessage hq)
  | call t operation =>
      cases operation with
      | needData | haveData => cases h
      | attachSource | removeSource | other =>
          obtain ⟨q, hq, rfl⟩ := stepBackend_spec h
          exact simulated_enters hw hs (by simp) (by simp) (by simp) hq
            (MessageQueue.enters_callInEventLoop hq)
  | post t =>
      obtain ⟨q, hq, rfl⟩ := stepBackend_spec h
      exact simulated_enters hw hs (by simp) (by simp) (by simp) hq
        (MessageQueue.enters_postMessage hq)
  | postFromHandler =>
      simp only [Queues.step] at h
      split at h
      · next hbusy =>
          obtain ⟨q, hq, rfl⟩ := stepBackend_spec h
          exact simulated_postFromHandler hw hs hbusy hq
      · cases h
  | advance u =>
      obtain ⟨q, hq, rfl⟩ := stepBackend_spec h
      exact simulated_advance hw hs hq
  | work =>
      simp only [Queues.step, Queues.work] at h
      split at h
      · next hmay =>
          obtain ⟨q, hq, rfl⟩ := stepBackend_spec h
          exact simulated_work (s := s) hw hs hmay hq
      · cases h
  | handle =>
      obtain ⟨m, hbusy, h⟩ := Option.bind_eq_some_iff.mp h
      exact simulated_handle hw hs hbusy h
  | advancePuller i =>
      obtain ⟨p, q, hp, hq, rfl⟩ := stepPuller_spec h
      exact simulated_advancePuller hw hs hp hq
  | workPuller i =>
      obtain ⟨p, hp, h⟩ := Option.bind_eq_some_iff.mp h
      simp only [Queues.workPuller] at h
      split at h
      · next hmay =>
          obtain ⟨q, hq, rfl⟩ := Option.map_eq_some_iff.mp h
          exact simulated_workPuller hw hs hp hmay hq
      · cases h
  | haveData i status =>
      obtain ⟨p, hp, h⟩ := Option.bind_eq_some_iff.mp h
      simp only [Queues.answer] at h
      split at h
      · next r hbusy =>
          split at h
          · cases h
          · next hanswered =>
              obtain ⟨q, hq, rfl⟩ := stepBackend_spec h
              exact simulated_answer hw hs hp hbusy (by simpa using hanswered) hq
      · cases h

omit [DecidableEq τ] in
theorem wired_start : Wired ({} : Queues τ) where
  ready := MessageQueue.ready_started
  stops := rfl
  threads t m call phase hpc := by cases hpc
  worker := .idle rfl
  answers _ := .idle rfl
  handler := .entered rfl
  pullers i p hp := by simp at hp
  attached id i hlookup := by simp at hlookup
  distinct id id' i h := by simp at h

omit [DecidableEq τ] in
theorem shows_start : Shows ({} : Queues τ) {} :=
  ⟨rfl, rfl, rfl, fun _ ↦ rfl, rfl, rfl⟩

theorem kept_run {ds : List Event} {a : State} (hrun : machine.run {} ds = some a) : Kept a := by
  refine machine.invariant (fun s e s' h hstep ↦ kept_step h hstep) ?_ hrun
  exact ⟨by simp [State.underway], by simp, by simp, by simp, rfl⟩

/-- Nothing is queued or being handled. -/
def Queues.drained (s : Queues τ) : Prop :=
  s.backend.pending = [] ∧ s.backend.worker.busy = none ∧
    ∀ p ∈ s.pullers, p.queue.pending = [] ∧ p.queue.worker.busy = none

omit [DecidableEq τ] in
theorem Shows.drained {s : Queues τ} {a : State} (hs : Shows s a) (hw : Wired s)
    (hdrained : s.drained) : a.drained := by
  obtain ⟨hpending, hbusy, hpullers⟩ := hdrained
  obtain ⟨hentered, -⟩ := hw.entered_of_not_busy hbusy
  refine ⟨?_, ?_, fun p hp ↦ ?_⟩
  · rw [hs.backendQueue, Queues.front, hbusy, hpending]
    simp
  · rw [hs.worker, Queues.workerPc, hentered]
  · obtain ⟨i, hi⟩ := List.getElem?_of_mem hp
    rw [hs.pullers, Queues.puller] at hi
    obtain ⟨p₀, hp₀, rfl⟩ := Option.map_eq_some_iff.mp hi
    obtain ⟨hempty, hidle⟩ := hpullers p₀ (List.mem_of_getElem? hp₀)
    simp [QueuedPuller.shown, hempty, hidle]

/-- What the queues do is what the lists do, nothing is refused on the way, and what
holds of the lists holds of the queues. -/
structure Refined (s : Queues τ) : Prop where
  shows : ∃ ds a, machine.run {} ds = some a ∧ Shows s a ∧ (s.drained → a.drained)
  notRefused : ∀ i n, s.handler = .requesting i n → s.isRefused i n = false
  atMostOnce : (s.accepted.map Request.needDataRequestId).Nodup →
    ∀ r ∈ s.accepted, (s.haveData.map Prod.snd).count r.needDataRequestId ≤ 1

theorem always_refined (es : List (QueuesEvent τ)) :
    (queues τ).Always Refined {} es := by
  intro pre s _ hrun
  obtain ⟨ds, a, ha, hw, hs⟩ := (queues τ).exists_run_of_simulation machine
    (R := fun s a ↦ Wired s ∧ Shows s a) (fun s e t a h hstep ↦ by
      obtain ⟨hw, ds, b, hb, hs⟩ := simulated_event h.1 h.2 hstep
      exact ⟨ds, b, hb, hw, hs⟩) ⟨wired_start, shows_start⟩ hrun
  refine ⟨⟨ds, a, ha, hs, hs.drained hw⟩, fun i n h ↦ hw.not_isRefused h, fun hdistinct r hr ↦ ?_⟩
  have honce := (kept_run ha).answeredOnce (hs.accepted ▸ hdistinct)
  rw [← hs.haveData]
  exact honce.atMostOnce r (hs.accepted ▸ hr)

end RialtoGStreamer.NeedData
