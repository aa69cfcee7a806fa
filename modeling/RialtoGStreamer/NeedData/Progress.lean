import RialtoGStreamer.MessageQueue.Resting
import RialtoGStreamer.NeedData.Refinement

/-!
# The queues do not block each other

The worker waits for the thread of a puller, in the puller's destructor, and that
thread uses the queue of the worker. Posting waits for nothing but a mutex, though, so
when no thread can go on there is nothing left to do: every message is handled and
every operation has returned.
-/

namespace RialtoGStreamer.NeedData

open Library MediaPlayerClient
open MessageQueue (Thread Ready Filed Served Ticketed Halting Resting)

variable {τ : Type*} [DecidableEq τ]

/-- The steps of threads that are inside the queues already. -/
def QueuesEvent.isInternal : QueuesEvent τ → Bool
  | .advance _ | .work | .handle | .advancePuller _ | .workPuller _ | .haveData _ _ => true
  | .notifyNeedMediaData _ _ | .call _ _ | .post _ | .postFromHandler => false

/-- A worker only looks into its empty queue. -/
def Queues.isIdleTurn (s : Queues τ) : QueuesEvent τ → Prop
  | .work => s.backend.isIdleTurn
  | .workPuller i => ∃ p, s.pullers[i]? = some p ∧ p.queue.isIdleTurn
  | _ => False

/-- No thread can go on, apart from such turns. -/
def Queues.Stalled (s : Queues τ) : Prop :=
  ∀ e, e.isInternal = true → s.step e = none ∨ s.isIdleTurn e

structure Settled (s : Queues τ) : Prop where
  drained : s.drained
  entered : s.handler = .entered
  returned : ∀ u, s.backend.pc u = .idle
  pullers : ∀ p ∈ s.pullers, p.queue.pc (.client ()) = .idle

/-! ## What the queues keep, each on its own -/

structure PullerSound (p : QueuedPuller) : Prop where
  filed : Filed p.queue
  served : Served p.queue
  ticketed : Ticketed p.queue
  halting : Halting p.queue

structure Sound (s : Queues τ) : Prop where
  filed : Filed s.backend
  served : Served s.backend
  pullers : ∀ p ∈ s.pullers, PullerSound p

theorem pullerSound_new : PullerSound {} :=
  have h := MessageQueue.orderly_started (τ := Unit) (μ := Request)
  ⟨h.filed, h.served, h.ticketed, MessageQueue.halting_started⟩

theorem PullerSound.step {p : QueuedPuller} {q : MessageQueue.State Unit Request}
    {handler : HandlerPc} {i : ℕ} (h : PullerSound p) (hw : PullerWired handler i p)
    {e : MessageQueue.Event Unit Request} (hq : p.queue.step e = some q) (answered : Bool) :
    PullerSound { queue := q, answered := answered } := by
  have hd := MessageQueue.deed_of_step hq
  have hone : p.queue.stops.length ≤ 1 := by
    rcases hw.stops with hstops | hstops <;> simp [hstops]
  exact ⟨MessageQueue.filed_deed h.filed hd, MessageQueue.served_deed h.served hd,
    MessageQueue.ticketed_deed h.ticketed hd,
    MessageQueue.halting_move h.halting (hw.ready.kept.intact.stage hone) hw.worker
      (MessageQueue.step_move hq)⟩

theorem Sound.stepBackend {s s' : Queues τ} {e : MessageQueue.Event (Poster τ) Message}
    (h : Sound s) (hstep : s.stepBackend e = some s') : Sound s' := by
  obtain ⟨q, hq, rfl⟩ := stepBackend_spec hstep
  have hd := MessageQueue.deed_of_step hq
  exact ⟨MessageQueue.filed_deed h.filed hd, MessageQueue.served_deed h.served hd, h.pullers⟩

omit [DecidableEq τ] in
theorem Sound.setPuller {s : Queues τ} {i : ℕ} {p : QueuedPuller} (h : Sound s)
    (hp : PullerSound p) : Sound (s.setPuller i p) := by
  refine ⟨h.filed, h.served, fun p₀ hp₀ ↦ ?_⟩
  rcases List.mem_or_eq_of_mem_set hp₀ with hmem | rfl
  · exact h.pullers p₀ hmem
  · exact hp

omit [DecidableEq τ] in
theorem Sound.stepPuller {s s' : Queues τ} {i : ℕ} {e : MessageQueue.Event Unit Request}
    {handler : HandlerPc} (h : Sound s)
    (hw : ∀ i p, s.pullers[i]? = some p → PullerWired handler i p)
    (hstep : s.stepPuller i e = some s') : Sound s' := by
  obtain ⟨p, q, hp, hq, rfl⟩ := stepPuller_spec hstep
  exact h.setPuller ((h.pullers p (List.mem_of_getElem? hp)).step (hw i p hp) hq p.answered)

theorem Sound.handle {s s' : Queues τ} {m : Message} (h : Sound s) (hw : Wired s)
    (hstep : s.handle m = some s') : Sound s' := by
  have hhandler : ∀ handler, Sound { s with handler := handler } :=
    fun _ ↦ ⟨h.filed, h.served, h.pullers⟩
  simp only [Queues.handle] at hstep
  split at hstep
  · simp only [Queues.requestPullBuffer] at hstep
    split at hstep
    · split at hstep
      · exact (hhandler (.requesting _ _)).stepPuller hw.pullers hstep
      · cases hstep
    · exact (hhandler _).stepBackend hstep
  · split at hstep
    · exact (hhandler _).stepBackend hstep
    · cases hstep
  · cases hstep
    exact ⟨h.filed, h.served, h.pullers⟩
  · split at hstep <;> cases hstep
    · refine ⟨h.filed, h.served, fun p hp ↦ ?_⟩
      rcases List.mem_append.mp hp with hp | hp
      · exact h.pullers p hp
      · obtain rfl := List.mem_singleton.mp hp
        exact pullerSound_new
    · exact ⟨h.filed, h.served, h.pullers⟩
  · split at hstep
    · next i hlookup =>
        refine Sound.stepPuller (s := { s with
          attachedSources := s.attachedSources.erase _, handler := .removing i }) ?_ hw.pullers hstep
        exact ⟨h.filed, h.served, h.pullers⟩
    · cases hstep
      exact ⟨h.filed, h.served, h.pullers⟩
  · cases hstep
    exact ⟨h.filed, h.served, h.pullers⟩
  · cases hstep

theorem Sound.step {s s' : Queues τ} {e : QueuesEvent τ} (h : Sound s) (hw : Wired s)
    (hstep : s.step e = some s') : Sound s' := by
  cases e with
  | notifyNeedMediaData | post | advance => exact h.stepBackend hstep
  | call t operation =>
      cases operation with
      | needData | haveData => cases hstep
      | attachSource | removeSource | other => exact h.stepBackend hstep
  | postFromHandler =>
      simp only [Queues.step] at hstep
      split at hstep
      · exact h.stepBackend hstep
      · cases hstep
  | work =>
      simp only [Queues.step, Queues.work] at hstep
      split at hstep
      · refine Sound.stepBackend (s := { s with handler := .entered }) ?_ hstep
        exact ⟨h.filed, h.served, h.pullers⟩
      · cases hstep
  | handle =>
      obtain ⟨m, -, hstep⟩ := Option.bind_eq_some_iff.mp hstep
      exact h.handle hw hstep
  | advancePuller i => exact h.stepPuller hw.pullers hstep
  | workPuller i =>
      obtain ⟨p, hp, hstep⟩ := Option.bind_eq_some_iff.mp hstep
      simp only [Queues.workPuller] at hstep
      split at hstep
      · obtain ⟨q, hq, rfl⟩ := Option.map_eq_some_iff.mp hstep
        exact h.setPuller ((h.pullers p (List.mem_of_getElem? hp)).step (hw.pullers i p hp) hq _)
      · cases hstep
  | haveData i status =>
      obtain ⟨p, hp, hstep⟩ := Option.bind_eq_some_iff.mp hstep
      simp only [Queues.answer] at hstep
      split at hstep
      · split at hstep
        · cases hstep
        · have hsound := h.pullers p (List.mem_of_getElem? hp)
          refine Sound.stepBackend (h.setPuller (i := i) ?_) hstep
          exact ⟨hsound.filed, hsound.served, hsound.ticketed, hsound.halting⟩
      · cases hstep

/-! ## A state in which nothing moves -/

section

variable {s : Queues τ}

theorem Queues.Stalled.backend (h : s.Stalled) : Resting s.backend := by
  refine ⟨fun u ↦ ?_, fun hbusy ↦ ?_⟩
  · simpa [Queues.step, Queues.stepBackend, Queues.isIdleTurn] using h (.advance u) rfl
  · simpa [Queues.step, Queues.work, hbusy, Queues.stepBackend, Queues.isIdleTurn] using h .work rfl

theorem Queues.Stalled.puller (h : s.Stalled) {i : ℕ} {p : QueuedPuller}
    (hp : s.pullers[i]? = some p) (hworker : p.queue.pc .worker = .idle) : Resting p.queue := by
  refine ⟨fun u ↦ ?_, fun hbusy ↦ ?_⟩
  · cases u with
    | worker => simp [MessageQueue.State.step, hworker]
    | client u =>
        have hnone := h (.advancePuller i) rfl
        simpa [Queues.step, Queues.stepPuller, hp, Queues.isIdleTurn] using hnone
  · have hnone := h (.workPuller i) rfl
    simpa [Queues.step, hp, Queues.workPuller, hbusy, Queues.isIdleTurn] using hnone

/-- The thread of a puller has nothing to handle: it could answer, or go on. -/
theorem Wired.puller_rests (hw : Wired s) (hstalled : s.Stalled) {i : ℕ} {p : QueuedPuller}
    (hp : s.pullers[i]? = some p) : p.queue.worker.busy = none := by
  have hwired := hw.pullers i p hp
  cases hbusy : p.queue.worker.busy with
  | none => rfl
  | some r =>
      exfalso
      obtain ⟨k, hhandling⟩ := MessageQueue.handling_of_busy hbusy
      have hidle : s.backend.pc (.client (.puller i)) = .idle := by
        cases hw.answers i with
        | idle hpc => exact hpc
        | answer p₀ r' status phase hp₀ hanswered hbusy' hpc =>
            exact absurd hpc (hstalled.backend.not_posting hw.ready)
      cases hanswered : p.answered with
      | false =>
          have hnone := hstalled (.haveData i .ok) rfl
          simp [Queues.step, hp, Queues.answer, hbusy, hanswered, Queues.stepBackend,
            Queues.setPuller, MessageQueue.State.step, hidle, MessageQueue.State.mayCall,
            Queues.isIdleTurn] at hnone
      | true =>
          have hnone := hstalled (.workPuller i) rfl
          simp [Queues.step, hp, Queues.workPuller, hanswered, hidle, MessageQueue.State.step,
            MessageQueue.State.processMessages, hhandling, hwired.worker, Queues.isIdleTurn,
            MessageQueue.State.isIdleTurn] at hnone

/-- The message of the worker could begin to be handled. -/
theorem Wired.not_entered (hw : Wired s) (hstalled : s.Stalled) {m : Message}
    (hbusy : s.backend.worker.busy = some m) (hworker : s.backend.pc .worker = .idle) :
    s.handler ≠ .entered := by
  intro hentered
  obtain ⟨k, hhandling⟩ := MessageQueue.handling_of_busy hbusy
  have hnone : s.handle m = none := by
    simpa [Queues.step, hbusy, Queues.isIdleTurn] using hstalled .handle rfl
  have hpuller : ∀ {i : ℕ} {p : QueuedPuller}, s.pullers[i]? = some p →
      p.queue.pc (.client ()) = .idle := by
    intro i p hp
    by_contra hpc
    have huses := (hw.pullers i p hp).used hpc
    rw [hentered] at huses
    cases huses
  cases m with
  | needData r =>
      simp only [Queues.handle, hentered, Queues.requestPullBuffer] at hnone
      cases hlookup : s.attachedSources.lookup r.sourceId with
      | none =>
          simp [hlookup, Queues.fail, Queues.stepBackend, MessageQueue.State.step, hworker,
            MessageQueue.State.mayCall, hhandling] at hnone
      | some i =>
          obtain ⟨p, hp, -⟩ := hw.attached _ i hlookup
          simp [hlookup, hp, Queues.stepPuller, MessageQueue.State.step, hpuller hp,
            MessageQueue.State.mayCall] at hnone
  | haveData status r => simp [Queues.handle, hentered] at hnone
  | attachSource id result =>
      simp only [Queues.handle, hentered] at hnone
      split at hnone <;> cases hnone
  | removeSource id =>
      simp only [Queues.handle, hentered] at hnone
      cases hlookup : s.attachedSources.lookup id with
      | none => simp [hlookup] at hnone
      | some i =>
          obtain ⟨p, hp, -⟩ := hw.attached _ i hlookup
          simp [hlookup, hp, Queues.stepPuller, MessageQueue.State.step, hpuller hp,
            MessageQueue.State.mayCall] at hnone
  | other => simp [Queues.handle, hentered] at hnone

/-- The worker has nothing to handle: it could go on with it, or return. -/
theorem Wired.worker_rests (hw : Wired s) (hsound : Sound s) (hstalled : s.Stalled) :
    s.backend.worker.busy = none := by
  cases hbusy : s.backend.worker.busy with
  | none => rfl
  | some m =>
      exfalso
      obtain ⟨k, hhandling⟩ := MessageQueue.handling_of_busy hbusy
      have hworker : s.backend.pc .worker = .idle := by
        cases hw.worker with
        | idle hpc => exact hpc
        | failing _ _ _ hpc | other _ _ hpc =>
            exact absurd hpc (hstalled.backend.not_posting hw.ready)
      have hreturns : s.mayReturn = false := by
        by_contra hmay
        have hnone := hstalled .work rfl
        simp [Queues.step, Queues.work, hmay, Queues.stepBackend, MessageQueue.State.step,
          MessageQueue.State.processMessages, hhandling, hworker, Queues.isIdleTurn,
          MessageQueue.State.isIdleTurn] at hnone
      cases hw.handler with
      | entered hhandler => exact hw.not_entered hstalled hbusy hworker hhandler
      | posting i n r p phase hhandler hb hl hp hpc hn =>
          have hwired := hw.pullers i p hp
          exact (hstalled.puller hp hwired.worker).not_posting hwired.ready hpc
      | posted i n r p hhandler hb hp hpc hn =>
          simp [Queues.mayReturn, hhandler, hp, hpc, hn] at hreturns
      | removing i id p hhandler hb hp hstops =>
          have hwired := hw.pullers i p hp
          have hp' := hsound.pullers p (List.mem_of_getElem? hp)
          rcases hwired.stopping hhandler with hpc | hinside
          · simp [Queues.mayReturn, hhandler, hp, hpc] at hreturns
          · -- The destructor does not wait for a puller that has nothing to do.
            exact (hstalled.puller hp hwired.worker).stop_returned hwired.ready hp'.ticketed
              hp'.halting (hw.puller_rests hstalled hp) hstops hinside
      | failing r hhandler => simp [Queues.mayReturn, hhandler] at hreturns
      | returned m' hhandler => simp [Queues.mayReturn, hhandler] at hreturns

theorem Wired.settled (hw : Wired s) (hsound : Sound s) (hstalled : s.Stalled) : Settled s := by
  have hbusy := hw.worker_rests hsound hstalled
  have hentered := (hw.entered_of_not_busy hbusy).1
  have hresting := hstalled.backend
  obtain ⟨hpending, hidle⟩ := hresting.idle hw.ready hsound.filed hsound.served hw.stops
    (hresting.isIdleTurn hw.ready hw.stops hbusy)
  have hpuller : ∀ p ∈ s.pullers, p.queue.pc (.client ()) = .idle ∧ p.queue.pending = [] ∧
      p.queue.worker.busy = none := by
    intro p hmem
    obtain ⟨i, hp⟩ := List.getElem?_of_mem hmem
    have hwired := hw.pullers i p hp
    have hrests := hw.puller_rests hstalled hp
    have hpc := hw.idle_of_mayReturn (.inl hbusy) hp
    refine ⟨hpc, ?_, hrests⟩
    rcases hwired.stops with hstops | hstops
    · have hp' := hsound.pullers p hmem
      have hturn := hstalled.puller hp hwired.worker
      exact (hturn.idle hwired.ready hp'.filed hp'.served hstops
        (hturn.isIdleTurn hwired.ready hstops hrests)).1
    · exact (hwired.ready.drained hstops hpc).1
  exact ⟨⟨hpending, hbusy, fun p hp ↦ (hpuller p hp).2⟩, hentered, hidle,
    fun p hp ↦ (hpuller p hp).1⟩

end

omit [DecidableEq τ] in
theorem sound_start : Sound ({} : Queues τ) := by
  refine ⟨?_, ?_, fun p hp ↦ absurd hp List.not_mem_nil⟩
  · exact MessageQueue.orderly_started.filed
  · exact MessageQueue.orderly_started.served

theorem always_settled (es : List (QueuesEvent τ)) :
    (queues τ).Always (fun s ↦ s.Stalled → Settled s) {} es := by
  intro pre s _ hrun hstalled
  have hwired : (∃ a, Wired s ∧ Shows s a) ∧ Sound s := by
    refine (queues τ).invariant (I := fun s ↦ (∃ a, Wired s ∧ Shows s a) ∧ Sound s)
      (fun s e t h hstep ↦ ?_) ⟨⟨{}, wired_start, shows_start⟩, sound_start⟩ hrun
    obtain ⟨⟨a, hw, hs⟩, hsound⟩ := h
    obtain ⟨hw', ds, b, -, hs'⟩ := simulated_event hw hs hstep
    exact ⟨⟨b, hw', hs'⟩, hsound.step hw hstep⟩
  exact hwired.1.choose_spec.1.settled hwired.2 hstalled

end RialtoGStreamer.NeedData
