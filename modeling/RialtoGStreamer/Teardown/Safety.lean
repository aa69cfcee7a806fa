import RialtoGStreamer.Teardown.Moves

/-!
# Nobody uses the backend after its end

Each queue is stopped once, from another thread, and each stop has returned when
the backend is destroyed: the worker of the client has left, and so have the
pullers, also those of the sources that were removed before. Who has left invokes
nothing, and the closed queue of the client refuses what is still posted.
-/

namespace RialtoGStreamer.Teardown

open Library MediaPlayerClient
open MessageQueue (Thread Kept Closed Frozen)
open NeedData (Request)

variable {τ : Type*} [DecidableEq τ]

/-- The stops of the client's queue, by the state of the release. -/
def backendStops : Option (τ × ReleasePc) → List (Thread (Caller τ))
  | some (t, .join) | some (t, .stopPullers _) | some (t, .destroyed) => [.client (.thread t)]
  | _ => []

/-- The stops of the queue of an attached puller. -/
def pullerStops (releasing : Option (τ × ReleasePc)) (i : ℕ) : List (Thread (PullerCaller τ)) :=
  match releasing with
  | some (t, .stopPullers rest) => if i ∈ rest then [] else [.client (.thread t)]
  | some (t, .destroyed) => [.client (.thread t)]
  | _ => []

/-- The stop of the client's queue has returned. -/
def Joins : Option (τ × ReleasePc) → Prop
  | some (_, .stopPullers _) | some (_, .destroyed) => True
  | _ => False

/-- What puller `i` keeps, while the worker of the client is at `worker`. -/
structure PullerKept (worker : MessageQueue.WorkerPc NeedData.Message)
    (releasing : Option (τ × ReleasePc)) (i : ℕ) (p : Puller τ) : Prop where
  kept : Kept p.queue
  inside : p.pc ≠ .frame 0 → ∃ k r, p.queue.worker = .handling (.posted k r)
  busy : p.queue.pc (.client .backendWorker) ≠ .idle → ∃ k m, worker = .handling (.posted k m)
  attached : p.source ≠ none → p.queue.stops = pullerStops releasing i
  removed : p.source = none → p.queue.stops = [.client .backendWorker] ∧
    ∀ t rest, releasing = some (t, .stopPullers rest) → i ∉ rest
  left : ∀ t, releasing = some (t, .destroyed) → p.queue.worker = .left

structure Inv (s : State τ) : Prop where
  backend : Kept s.backend
  stops : s.backend.stops = backendStops s.releasing
  closed : Joins s.releasing → Closed s.backend
  pullers : ∀ i p, s.pullers[i]? = some p → PullerKept s.backend.worker s.releasing i p

omit [DecidableEq τ] in
/-- While the worker handles messages its queue has not been stopped. -/
theorem Inv.not_joins {s : State τ} (h : Inv s) (hhandling : s.Handling) : ¬Joins s.releasing := by
  intro hjoins
  obtain ⟨k, m, hw⟩ := hhandling
  exact absurd ((h.closed hjoins).left.symm.trans hw) (by simp)

omit [DecidableEq τ] in
theorem pullerStops_of_not_joins {releasing : Option (τ × ReleasePc)} (h : ¬Joins releasing)
    (i : ℕ) : pullerStops releasing i = [] := by
  unfold pullerStops
  split
  · exact absurd trivial h
  · exact absurd trivial h
  · rfl

/-! ## The queue of the client -/

theorem inv_queue {s : State τ} (h : Inv s)
    {e : MessageQueue.Event (Caller τ) NeedData.Message}
    {q : MessageQueue.State (Caller τ) NeedData.Message} (hq : s.backend.step e = some q)
    (hstop : ∀ u, e ≠ .begin u .stop) (hclear : ∀ u, e ≠ .begin u .clear)
    (hwork : e = .work → s.workerFree = true) : Inv { s with backend := q } := by
  refine ⟨h.backend.step hclear hq, (MessageQueue.stops_of_step hstop hq).trans h.stops,
    fun hjoins ↦ ((h.closed hjoins).step hstop hclear hq).1, fun i p hp ↦ ?_⟩
  obtain ⟨hkept, hinside, hbusy, hattached, hremoved, hleft⟩ := h.pullers i p hp
  refine ⟨hkept, hinside, fun hp' ↦ ?_, hattached, hremoved, hleft⟩
  by_cases he : e = .work
  · -- The worker leaves a handler only when it is inside no operation of a puller.
    have hfree := hwork he
    simp only [State.workerFree, decide_eq_true_eq] at hfree
    exact absurd (hfree.2 p (List.mem_of_getElem? hp)) hp'
  · rw [MessageQueue.worker_of_step he hq]
    exact hbusy hp'

/-! ## The queue of a puller -/

omit [DecidableEq τ] in
theorem pullers_set {s : State τ} {worker : MessageQueue.WorkerPc NeedData.Message}
    {releasing : Option (τ × ReleasePc)} {i : ℕ} {p : Puller τ}
    (hp : PullerKept worker releasing i p)
    (hothers : ∀ j p', j ≠ i → s.pullers[j]? = some p' → PullerKept worker releasing j p') :
    ∀ j p', (s.setPuller i p).pullers[j]? = some p' → PullerKept worker releasing j p' := by
  intro j p' hp'
  by_cases hij : i = j
  · subst hij
    obtain ⟨hlt, -⟩ := List.getElem?_eq_some_iff.mp hp'
    have hset : (s.pullers.set i p)[i]? = some p := by
      rw [List.getElem?_set_self]
      simpa [State.setPuller] using hlt
    obtain rfl : p = p' := Option.some.inj (hset.symm.trans hp')
    exact hp
  · have hset : (s.pullers.set i p)[j]? = s.pullers[j]? := List.getElem?_set_ne hij
    exact hothers j p' (Ne.symm hij) (hset.symm.trans hp')

omit [DecidableEq τ] in
theorem inv_setPuller {s : State τ} (h : Inv s) {i : ℕ} {p : Puller τ}
    (hp : PullerKept s.backend.worker s.releasing i p) : Inv (s.setPuller i p) :=
  ⟨h.backend, h.stops, h.closed, pullers_set hp fun j p' _ hp' ↦ h.pullers j p' hp'⟩

theorem left_of_step {μ σ : Type*} [DecidableEq σ] {q q' : MessageQueue.State σ μ}
    {e : MessageQueue.Event σ μ} (hq : q.step e = some q') (hleft : q.worker = .left) :
    q'.worker = .left := by
  cases e with
  | begin t op => exact (MessageQueue.worker_of_step (by simp) hq).trans hleft
  | advance t => exact (MessageQueue.worker_of_step (by simp) hq).trans hleft
  | work =>
      simp only [MessageQueue.State.step, MessageQueue.State.processMessages, hleft] at hq
      cases hq

theorem PullerKept.step {worker : MessageQueue.WorkerPc NeedData.Message}
    {releasing : Option (τ × ReleasePc)} {i : ℕ} {p : Puller τ}
    (h : PullerKept worker releasing i p)
    {e : MessageQueue.Event (PullerCaller τ) Request}
    {q : MessageQueue.State (PullerCaller τ) Request} (hq : p.queue.step e = some q)
    (hstop : ∀ u, e ≠ .begin u .stop) (hclear : ∀ u, e ≠ .begin u .clear)
    (hbegin : ∀ u op, e = .begin u op → ∃ k m, worker = .handling (.posted k m))
    (hwork : e = .work → p.pc = .frame 0) :
    PullerKept worker releasing i { p with queue := q } := by
  have hstops := MessageQueue.stops_of_step hstop hq
  refine ⟨h.kept.step hclear hq, fun hpc ↦ ?_, fun hbusy ↦ ?_,
    fun hsource ↦ hstops.trans (h.attached hsource),
    fun hsource ↦ ⟨hstops.trans (h.removed hsource).1, (h.removed hsource).2⟩,
    fun t hr ↦ left_of_step hq (h.left t hr)⟩
  · have he : e ≠ .work := fun he ↦ hpc (hwork he)
    rw [MessageQueue.worker_of_step he hq]
    exact h.inside hpc
  · by_cases he : ∃ op, e = .begin (.client .backendWorker) op
    · obtain ⟨op, he⟩ := he
      exact hbegin _ op he
    · exact h.busy (MessageQueue.busy_of_step (fun op hop ↦ he ⟨op, hop⟩) hq hbusy)

omit [DecidableEq τ] in
theorem PullerKept.goto {worker : MessageQueue.WorkerPc NeedData.Message}
    {releasing : Option (τ × ReleasePc)} {i : ℕ} {p : Puller τ}
    (h : PullerKept worker releasing i p) (pc : PullPc)
    (hpc : pc ≠ .frame 0 → ∃ k r, p.queue.worker = .handling (.posted k r)) :
    PullerKept worker releasing i { p with pc := pc } :=
  ⟨h.kept, hpc, h.busy, h.attached, h.removed, h.left⟩

theorem kept_beginStop {σ μ : Type*} [DecidableEq σ] {q q' : MessageQueue.State σ μ} (h : Kept q)
    {t : Thread σ} (hstops : q.stops = []) (hq : q.step (.begin t .stop) = some q') :
    Kept q' ∧ q'.stops = [t] := by
  refine ⟨h.step (by simp) hq, ?_⟩
  rw [MessageQueue.stops_of_beginStop hq, hstops]
  rfl

/-! ## Handlers, managers and the release -/

omit [DecidableEq τ] in
theorem inv_attachSource {s : State τ} (h : Inv s) (hhandling : s.Handling) (id : SourceId) :
    Inv { s with pullers := s.pullers ++ [{ source := some id }] } := by
  refine ⟨h.backend, h.stops, h.closed, fun i p hp ↦ ?_⟩
  by_cases hi : i < s.pullers.length
  · apply h.pullers i p
    rwa [List.getElem?_append_left hi] at hp
  · rw [List.getElem?_append_right (Nat.le_of_not_lt hi)] at hp
    obtain rfl : p = { source := some id } := by
      simpa using List.mem_of_getElem? hp
    refine ⟨MessageQueue.kept_started, fun hpc ↦ absurd rfl hpc, fun hbusy ↦ absurd rfl hbusy,
      fun _ ↦ (pullerStops_of_not_joins (h.not_joins hhandling) i).symm, (by simp), fun t hr ↦ ?_⟩
    refine absurd ?_ (h.not_joins hhandling)
    rw [hr]
    trivial

theorem inv_removeSource {s : State τ} (h : Inv s) (hhandling : s.Handling) {i : ℕ}
    {p : Puller τ} {q : MessageQueue.State (PullerCaller τ) Request}
    (hp : s.pullers[i]? = some p) (hsource : p.source ≠ none)
    (hq : p.queue.step (.begin (.client .backendWorker) .stop) = some q) :
    Inv (s.setPuller i { p with source := none, queue := q }) := by
  have hnot := h.not_joins hhandling
  have hpuller := h.pullers i p hp
  have hstops := (hpuller.attached hsource).trans (pullerStops_of_not_joins hnot i)
  obtain ⟨hkept, hstopped⟩ := kept_beginStop hpuller.kept hstops hq
  refine inv_setPuller h ⟨hkept, fun hpc ↦ ?_, fun _ ↦ hhandling, fun hnone ↦ absurd rfl hnone,
    fun _ ↦ ⟨hstopped, fun t rest hr ↦ ?_⟩, fun t hr ↦ left_of_step hq (hpuller.left t hr)⟩
  · rw [MessageQueue.worker_of_step (by simp) hq]
    exact hpuller.inside hpc
  · rw [hr] at hnot
    exact absurd trivial hnot

omit [DecidableEq τ] in
theorem inv_releasing {s : State τ} (h : Inv s) {n : ℕ} {releasing : Option (τ × ReleasePc)}
    (hbefore : backendStops s.releasing = []) (hafter : backendStops releasing = [])
    (hdrained : ¬Joins s.releasing) (hnot : ¬Joins releasing) :
    Inv { s with managers := n, releasing := releasing } := by
  refine ⟨h.backend, h.stops.trans (hbefore.trans hafter.symm), fun hjoins ↦ absurd hjoins hnot,
    fun i p hp ↦ ?_⟩
  obtain ⟨hkept, hinside, hbusy, hattached, hremoved, -⟩ := h.pullers i p hp
  refine ⟨hkept, hinside, hbusy, fun hsource ↦ ?_, fun hsource ↦ ⟨(hremoved hsource).1, ?_⟩, ?_⟩
  · rw [hattached hsource, pullerStops_of_not_joins hdrained, pullerStops_of_not_joins hnot]
  · rintro t rest rfl
    exact absurd trivial hnot
  · rintro t rfl
    exact absurd trivial hnot

theorem inv_stopQueue {s : State τ} (h : Inv s) {t : τ}
    {q : MessageQueue.State (Caller τ) NeedData.Message}
    (hr : s.releasing = some (t, .stopQueue))
    (hq : s.backend.step (.begin (.client (.thread t)) .stop) = some q) :
    Inv { s with backend := q, releasing := some (t, .join) } := by
  have hstops : s.backend.stops = [] := by rw [h.stops, hr]; rfl
  obtain ⟨hkept, hstopped⟩ := kept_beginStop h.backend hstops hq
  refine ⟨hkept, hstopped, fun hjoins ↦ absurd hjoins id, fun i p hp ↦ ?_⟩
  obtain ⟨hkept, hinside, hbusy, hattached, hremoved, -⟩ := h.pullers i p hp
  refine ⟨hkept, hinside, ?_, fun hsource ↦ ?_, fun hsource ↦ ⟨(hremoved hsource).1, by simp⟩,
    by simp⟩
  · rw [MessageQueue.worker_of_step (by simp) hq]
    exact hbusy
  · rw [hattached hsource, hr]
    rfl

omit [DecidableEq τ] in
theorem mem_attachedPullers {s : State τ} {i : ℕ} {p : Puller τ} (hp : s.pullers[i]? = some p) :
    i ∈ s.attachedPullers ↔ p.source ≠ none := by
  have hlt : i < s.pullers.length := (List.getElem?_eq_some_iff.mp hp).1
  unfold State.attachedPullers
  rw [List.mem_filter, List.mem_range, hp]
  simp [hlt, Option.isSome_iff_ne_none]

omit [DecidableEq τ] in
theorem inv_join {s : State τ} (h : Inv s) {t : τ} (hr : s.releasing = some (t, .join))
    (hidle : s.backend.pc (.client (.thread t)) = .idle) :
    Inv { s with releasing := some (t, .stopPullers s.attachedPullers) } := by
  have hstops : s.backend.stops = [.client (.thread t)] := by rw [h.stops, hr]; rfl
  refine ⟨h.backend, hstops, fun _ ↦ h.backend.closed hstops hidle, fun i p hp ↦ ?_⟩
  obtain ⟨hkept, hinside, hbusy, hattached, hremoved, -⟩ := h.pullers i p hp
  refine ⟨hkept, hinside, hbusy, fun hsource ↦ ?_, fun hsource ↦ ⟨(hremoved hsource).1, ?_⟩,
    by simp⟩
  · have hmem : i ∈ s.attachedPullers := (mem_attachedPullers hp).mpr hsource
    rw [hattached hsource, hr]
    simp [pullerStops, hmem]
  · rintro t' rest hrest hi
    obtain ⟨-, rfl⟩ : t = t' ∧ s.attachedPullers = rest := by simpa using hrest
    exact (mem_attachedPullers hp).mp hi hsource

theorem inv_stopPuller {s : State τ} (h : Inv s) {t : τ} {rest : List ℕ} {i : ℕ} {p : Puller τ}
    {q : MessageQueue.State (PullerCaller τ) Request}
    (hr : s.releasing = some (t, .stopPullers rest)) (hi : i ∈ rest)
    (hp : s.pullers[i]? = some p)
    (hq : p.queue.step (.begin (.client (.thread t)) .stop) = some q) :
    Inv ({ s with releasing := some (t, .stopPullers (rest.filter (· ≠ i))) }.setPuller i
      { p with queue := q }) := by
  have hpuller := h.pullers i p hp
  have hsource : p.source ≠ none := fun hnone ↦ (hpuller.removed hnone).2 t rest hr hi
  have hstops : p.queue.stops = [] := by
    rw [hpuller.attached hsource, hr]
    simp [pullerStops, hi]
  obtain ⟨hkept, hstopped⟩ := kept_beginStop hpuller.kept hstops hq
  have hclosed : Closed s.backend := h.closed (by rw [hr]; trivial)
  -- The puller that is being stopped.
  have hnew : PullerKept s.backend.worker (some (t, .stopPullers (rest.filter (· ≠ i)))) i
      { p with queue := q } := by
    refine ⟨hkept, fun hpc ↦ ?_, fun hbusy ↦ ?_, fun _ ↦ ?_, fun hnone ↦ absurd hnone hsource,
      by simp⟩
    · rw [MessageQueue.worker_of_step (by simp) hq]
      exact hpuller.inside hpc
    · exact hpuller.busy (MessageQueue.busy_of_step (by simp) hq hbusy)
    · simp [hstopped, pullerStops]
  -- The other ones have their stops as before.
  have hothers : ∀ j p', j ≠ i → s.pullers[j]? = some p' →
      PullerKept s.backend.worker (some (t, .stopPullers (rest.filter (· ≠ i)))) j p' := by
    intro j p' hji hp'
    obtain ⟨hkept, hinside, hbusy, hattached, hremoved, -⟩ := h.pullers j p' hp'
    refine ⟨hkept, hinside, hbusy, fun hsource ↦ ?_, fun hsource ↦ ⟨(hremoved hsource).1, ?_⟩,
      by simp⟩
    · rw [hattached hsource, hr]
      simp [pullerStops, hji]
    · intro t' rest' hrest hj
      obtain ⟨-, rfl⟩ : t = t' ∧ rest.filter (· ≠ i) = rest' := by simpa using hrest
      exact (hremoved hsource).2 t rest hr (List.mem_of_mem_filter hj)
  refine ⟨h.backend, ?_, fun _ ↦ hclosed, pullers_set hnew hothers⟩
  rw [State.setPuller, h.stops, hr]
  rfl

omit [DecidableEq τ] in
theorem inv_destroy {s : State τ} (h : Inv s) {t : τ}
    (hr : s.releasing = some (t, .stopPullers []))
    (hidle : ∀ p ∈ s.pullers, p.queue.pc (.client (.thread t)) = .idle) :
    Inv { s with releasing := some (t, .destroyed) } := by
  have hclosed : Closed s.backend := h.closed (by rw [hr]; trivial)
  refine ⟨h.backend, ?_, fun _ ↦ hclosed, fun i p hp ↦ ?_⟩
  · rw [h.stops, hr]
    rfl
  · obtain ⟨hkept, hinside, hbusy, hattached, hremoved, -⟩ := h.pullers i p hp
    have hstops : p.source ≠ none → p.queue.stops = [.client (.thread t)] := by
      intro hsource
      rw [hattached hsource, hr]
      rfl
    refine ⟨hkept, hinside, hbusy, hstops, fun hsource ↦ ⟨(hremoved hsource).1, by simp⟩,
      fun _ _ ↦ ?_⟩
    by_cases hsource : p.source = none
    · have hfree : p.queue.pc (.client .backendWorker) = .idle := by
        by_contra hbusy'
        obtain ⟨k, m, hw⟩ := hbusy hbusy'
        exact absurd (hclosed.left.symm.trans hw) (by simp)
      exact (hkept.closed (hremoved hsource).1 hfree).left
    · exact (hkept.closed (hstops hsource) (hidle p (List.mem_of_getElem? hp))).left

theorem inv_move {s u : State τ} (h : Inv s) (hm : Move s u) : Inv u := by
  cases hm with
  | queue hq hstop hclear hwork => exact inv_queue h hq hstop hclear hwork
  | puller hp hq hstop hclear hbegin hwork =>
      have hpuller := h.pullers _ _ hp
      refine inv_setPuller h (hpuller.step hq hstop hclear hbegin fun he ↦ ?_)
      by_contra hpc
      obtain ⟨k, r, hw⟩ := hpuller.inside hpc
      exact hwork he k r hw
  | finish hp hq =>
      have hdone := (h.pullers _ _ hp).goto (.frame 0) fun hpc ↦ absurd rfl hpc
      exact inv_setPuller h (hdone.step hq (by simp) (by simp) (by simp) fun _ ↦ rfl)
  | invoke => exact ⟨h.backend, h.stops, h.closed, h.pullers⟩
  | attachSource id hhandling => exact inv_attachSource h hhandling id
  | removeSource hhandling hp hsource hq => exact inv_removeSource h hhandling hp hsource hq
  | pull pc l hp hin =>
      have hpuller := (h.pullers _ _ hp).goto pc fun _ ↦ hin
      exact inv_setPuller (s := { s with invocations := l })
        ⟨h.backend, h.stops, h.closed, h.pullers⟩ hpuller
  | haveData hp hin hq =>
      have hpuller := (h.pullers _ _ hp).goto .answered fun _ ↦ hin
      exact inv_queue (inv_setPuller h hpuller) hq (by simp) (by simp) (by simp)
  | manage n hr => exact ⟨h.backend, h.stops, h.closed, h.pullers⟩
  | release t hr => exact inv_releasing h (by rw [hr]; rfl) rfl (by rw [hr]; exact id) id
  | @stop t q hr hq =>
      have hcall : Inv { s with releasing := some (t, .stopQueue) } :=
        inv_releasing h (by rw [hr]; rfl) rfl (by rw [hr]; exact id) id
      exact inv_queue hcall hq (by simp) (by simp) (by simp)
  | stopQueue hr hq => exact inv_stopQueue h hr hq
  | join hr hidle => exact inv_join h hr hidle
  | stopPuller hr hi hp hq => exact inv_stopPuller h hr hi hp hq
  | destroy hr hidle => exact inv_destroy h hr hidle

omit [DecidableEq τ] in
theorem inv_start : Inv ({} : State τ) :=
  ⟨MessageQueue.kept_started, rfl, fun hjoins ↦ absurd hjoins id, by simp⟩

theorem inv_run {es : List (Event τ)} {s : State τ} (hrun : (machine τ).run {} es = some s) :
    Inv s :=
  (machine τ).invariant (fun _ _ _ h hstep ↦ inv_move h (step_move hstep)) inv_start hrun

/-! ## After the end -/

omit [DecidableEq τ] in
theorem destroyed_spec {s : State τ} (h : s.destroyed = true) :
    ∃ t, s.releasing = some (t, .destroyed) := by
  obtain ⟨⟨t, pc⟩, hr, hpc⟩ := (Option.any_eq_true _ _).mp h
  obtain rfl : pc = .destroyed := by simpa using hpc
  exact ⟨t, hr⟩

/-- What no step changes any more. -/
structure Quiet (s u : State τ) : Prop where
  invocations : u.invocations = s.invocations
  backend : Frozen s.backend u.backend
  releasing : u.releasing = s.releasing

omit [DecidableEq τ] in
theorem Quiet.refl (s : State τ) : Quiet s s := ⟨rfl, Frozen.refl _, rfl⟩

omit [DecidableEq τ] in
theorem Quiet.trans {s u v : State τ} (h : Quiet s u) (h' : Quiet u v) : Quiet s v :=
  ⟨h'.invocations.trans h.invocations, h.backend.trans h'.backend,
    h'.releasing.trans h.releasing⟩

theorem quiet_move {s u : State τ} (h : Inv s) (hdestroyed : s.destroyed = true)
    (hm : Move s u) : Quiet s u := by
  obtain ⟨t, hr⟩ := destroyed_spec hdestroyed
  have hjoins : Joins s.releasing := by rw [hr]; trivial
  have hout : ∀ (i : ℕ) (p : Puller τ), s.pullers[i]? = some p →
      ¬∃ k r, p.queue.worker = .handling (.posted k r) := by
    rintro i p hp ⟨k, r, hw⟩
    exact absurd (((h.pullers i p hp).left t hr).symm.trans hw) (by simp)
  cases hm with
  | queue hq hstop hclear => exact ⟨rfl, ((h.closed hjoins).step hstop hclear hq).2, rfl⟩
  | puller | finish => exact ⟨rfl, Frozen.refl _, rfl⟩
  | invoke hhandling => exact absurd hjoins (h.not_joins hhandling)
  | attachSource id hhandling => exact absurd hjoins (h.not_joins hhandling)
  | removeSource hhandling => exact absurd hjoins (h.not_joins hhandling)
  | pull pc l hp hin => exact absurd hin (hout _ _ hp)
  | haveData hp hin => exact absurd hin (hout _ _ hp)
  | manage n hr' | release t' hr' => simp [hr] at hr'
  | stop hr' | stopQueue hr' | join hr' | stopPuller hr' | destroy hr' => simp [hr] at hr'

theorem quiet_run {s u : State τ} {es : List (Event τ)} (h : Inv s)
    (hdestroyed : s.destroyed = true) (hrun : (machine τ).run s es = some u) :
    Inv u ∧ Quiet s u := by
  refine (machine τ).invariant (I := fun u ↦ Inv u ∧ Quiet s u) ?_ ⟨h, Quiet.refl s⟩ hrun
  rintro u e v ⟨hu, hquiet⟩ hstep
  have hm := step_move hstep
  have hdestroyed' : u.destroyed = true := by
    unfold State.destroyed
    rw [hquiet.releasing]
    exact hdestroyed
  exact ⟨inv_move hu hm, hquiet.trans (quiet_move hu hdestroyed' hm)⟩

/-- The steps of the threads inside the client's queue, as steps of the client. -/
theorem run_advance {s : State τ} {q : MessageQueue.State (Caller τ) NeedData.Message}
    {us : List (Thread (Caller τ))}
    (hrun : (MessageQueue.machine _ _).run s.backend (us.map .advance) = some q) :
    (machine τ).run s (us.map .advance) = some { s with backend := q } := by
  induction us generalizing s with
  | nil =>
      cases hrun
      rfl
  | cons u us ih =>
      obtain ⟨q', hq', hrest⟩ := (MessageQueue.machine _ _).run_cons_eq_some_iff.mp hrun
      refine (machine τ).run_cons_eq_some_iff.mpr ⟨{ s with backend := q' }, ?_, ih hrest⟩
      have hstep : s.backend.step (.advance u) = some q' := hq'
      change s.stepQueue (.advance u) = _
      unfold State.stepQueue
      rw [hstep]
      rfl

/-- The end of the backend: no puller is adding a segment; whatever happens later
invokes no method of the backend and runs no function; and a call that is posted
later never waits, and can return in the steps of the threads inside the queue,
with the result false. -/
structure TornDown (s : State τ) : Prop where
  pulled : ∀ p ∈ s.pullers, ∀ k, p.pc ≠ .addSegment k
  quiet : ∀ es u, (machine τ).run s es = some u → u.invocations = s.invocations ∧
    u.backend.handled = s.backend.handled ∧ u.backend.inPlace = s.backend.inPlace
  waits : ∀ es u, (machine τ).run s es = some u → ∀ t k m,
    u.backend.pc t = .awaiting k m → s.backend.pc t = .awaiting k m
  returns : ∀ es u, (machine τ).run s es = some u → ∀ t m phase,
    u.backend.pc t = .posting m true phase → ∃ (us : List (Thread (Caller τ))) (v : State τ)
      (l : List (NeedData.Message × Bool)), (machine τ).run u (us.map .advance) = some v ∧
        v.backend.pc t = .idle ∧ v.backend.returned = u.backend.returned ++ l ++ [(m, false)]

theorem tornDown_of_destroyed {es : List (Event τ)} {s : State τ}
    (hrun : (machine τ).run {} es = some s) (hdestroyed : s.destroyed = true) : TornDown s := by
  have h := inv_run hrun
  obtain ⟨t, hr⟩ := destroyed_spec hdestroyed
  constructor
  · intro p hp k hpc
    obtain ⟨i, hi⟩ := List.mem_iff_getElem?.mp hp
    obtain ⟨j, r, hw⟩ := (h.pullers i p hi).inside (by simp [hpc])
    exact absurd (((h.pullers i p hi).left t hr).symm.trans hw) (by simp)
  · intro fs u hrest
    obtain ⟨-, hquiet⟩ := quiet_run h hdestroyed hrest
    exact ⟨hquiet.invocations, hquiet.backend.handled, hquiet.backend.inPlace⟩
  · intro fs u hrest
    exact (quiet_run h hdestroyed hrest).2.backend.awaiting
  · intro fs u hrest t' m phase hpc
    obtain ⟨hu, hquiet⟩ := quiet_run h hdestroyed hrest
    have hclosed : Closed u.backend := hu.closed (by rw [hquiet.releasing, hr]; trivial)
    obtain ⟨us, q, l, hq, hidle, hreturned⟩ := hclosed.returns hpc
    exact ⟨us, { u with backend := q }, l, run_advance hq, hidle, hreturned⟩

/-- A source is attached by thread 0, its need-data request is notified by thread 1,
and the client is released while the puller is inside `addSegment`. -/
def releaseDuringPull : List (Event ℕ) :=
  let advance (n t : ℕ) := List.replicate n (Event.advance (.client (.thread t)))
  let advancePuller (n : ℕ) (u : PullerCaller ℕ) :=
    List.replicate n (Event.advancePuller 0 (.client u))
  let work (n : ℕ) := List.replicate n Event.work
  let workPuller (n : ℕ) := List.replicate n (Event.workPuller 0)
  List.flatten [
    [.call 0 (.callInEventLoop (.attachSource 1 true))], advance 4 0, work 3,
    [.act .invoke, .act (.attachSource 1)], work 2, advance 1 0,
    [.call 1 (.postMessage (.needData ⟨1, 3, 7⟩))], advance 4 1, work 3,
    [.act (.requestPullBuffer ⟨1, 3, 7⟩)], advancePuller 4 .backendWorker, work 2,
    workPuller 3, [.pull 0 .addSegment],
    -- The release: `stop`, and the stop of the client's queue.
    [.release 0, .teardown 0], advance 4 0, work 3, [.act .invoke], work 2, advance 1 0,
    [.teardown 0], advance 5 0, work 6, advance 4 0,
    -- The stop of the puller, which finishes its message first.
    [.teardown 0, .teardown 0], advancePuller 5 (.thread 0),
    [.pull 0 (.added false), .pull 0 (.haveData .ok)],
    List.replicate 2 (.advance (.client (.puller 0))), workPuller 8,
    advancePuller 4 (.thread 0), [.teardown 0]]

theorem tornDown_of_destroyed_releaseDuringPull : ∃ s,
    (machine ℕ).run {} releaseDuringPull = some s ∧
      s.invocations = [.worker, .addSegment 0, .worker] ∧ TornDown s := by
  have hend : ((machine ℕ).run {} releaseDuringPull).map
      (fun s ↦ (s.destroyed, s.invocations)) =
        some (true, [.worker, .addSegment 0, .worker]) := by decide +kernel
  obtain ⟨s, hs, heq⟩ := Option.map_eq_some_iff.mp hend
  obtain ⟨hdestroyed, hinvocations⟩ := Prod.mk.inj heq
  exact ⟨s, hs, hinvocations, tornDown_of_destroyed hs hdestroyed⟩

end RialtoGStreamer.Teardown
