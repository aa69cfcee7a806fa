import RialtoGStreamer.MessageQueue.Closed
import RialtoGStreamer.Teardown.Model

/-!
# What one step of the client can do

The inversion of the step function: a step of one of the queues, with what the
threads respect in it, or a step of a handler, of a manager or of the release.
-/

namespace RialtoGStreamer.Teardown

open Library MediaPlayerClient
open NeedData (Request MediaSourceStatus)

variable {τ : Type*} [DecidableEq τ]

namespace State

/-- The worker is inside the handler of a message. -/
def Handling (s : State τ) : Prop := ∃ k m, s.backend.worker = .handling (.posted k m)

omit [DecidableEq τ] in
theorem attached?_spec {s : State τ} {id : SourceId} {i : ℕ} (h : s.attached? id = some i) :
    ∃ p, s.pullers[i]? = some p ∧ p.source = some id := by
  obtain ⟨hi, hsource, -⟩ := List.findIdx?_eq_some_iff_getElem.mp h
  exact ⟨s.pullers[i], List.getElem?_eq_getElem hi, by simpa using hsource⟩

theorem stepQueue_spec {s u : State τ} {e : MessageQueue.Event (Caller τ) NeedData.Message}
    (h : s.stepQueue e = some u) :
    ∃ q, s.backend.step e = some q ∧ u = { s with backend := q } := by
  obtain ⟨q, hq, rfl⟩ := Option.map_eq_some_iff.mp h
  exact ⟨q, hq, rfl⟩

theorem stepPuller_spec {s u : State τ} {i : ℕ}
    {e : MessageQueue.Event (PullerCaller τ) Request} (h : s.stepPuller i e = some u) :
    ∃ p q, s.pullers[i]? = some p ∧ p.queue.step e = some q ∧
      u = s.setPuller i { p with queue := q } := by
  unfold stepPuller at h
  split at h
  next p hp =>
    obtain ⟨q, hq, rfl⟩ := Option.map_eq_some_iff.mp h
    exact ⟨p, q, hp, hq, rfl⟩
  · cases h

end State

/-- The handlers use a puller's queue only while the worker of the client is inside
one, and the loop of a puller ends a message only when its handler is done. -/
inductive Move (s : State τ) : State τ → Prop
  | queue {e : MessageQueue.Event (Caller τ) NeedData.Message}
      {q : MessageQueue.State (Caller τ) NeedData.Message} (hq : s.backend.step e = some q)
      (hstop : ∀ u, e ≠ .begin u .stop) (hclear : ∀ u, e ≠ .begin u .clear)
      (hwork : e = .work → s.workerFree = true) : Move s { s with backend := q }
  | puller {i : ℕ} {p : Puller τ} {e : MessageQueue.Event (PullerCaller τ) Request}
      {q : MessageQueue.State (PullerCaller τ) Request} (hp : s.pullers[i]? = some p)
      (hq : p.queue.step e = some q) (hstop : ∀ u, e ≠ .begin u .stop)
      (hclear : ∀ u, e ≠ .begin u .clear) (hbegin : ∀ u op, e = .begin u op → s.Handling)
      (hwork : e = .work → ∀ k r, p.queue.worker ≠ .handling (.posted k r)) :
      Move s (s.setPuller i { p with queue := q })
  | finish {i : ℕ} {p : Puller τ} {q : MessageQueue.State (PullerCaller τ) Request}
      (hp : s.pullers[i]? = some p) (hq : p.queue.step .work = some q) :
      Move s (s.setPuller i { p with queue := q, pc := .frame 0 })
  | invoke (h : s.Handling) :
      Move s { s with invocations := s.invocations ++ [.worker] }
  | attachSource (id : SourceId) (h : s.Handling) :
      Move s { s with pullers := s.pullers ++ [{ source := some id }] }
  | removeSource {i : ℕ} {p : Puller τ} {q : MessageQueue.State (PullerCaller τ) Request}
      (h : s.Handling) (hp : s.pullers[i]? = some p) (hsource : p.source ≠ none)
      (hq : p.queue.step (.begin (.client .backendWorker) .stop) = some q) :
      Move s (s.setPuller i { p with source := none, queue := q })
  | pull {i : ℕ} {p : Puller τ} (pc : PullPc) (l : List Invocation)
      (hp : s.pullers[i]? = some p)
      (hin : ∃ k r, p.queue.worker = .handling (.posted k r)) :
      Move s ({ s with invocations := l }.setPuller i { p with pc := pc })
  | haveData {i : ℕ} {p : Puller τ} {m : NeedData.Message}
      {q : MessageQueue.State (Caller τ) NeedData.Message} (hp : s.pullers[i]? = some p)
      (hin : ∃ k r, p.queue.worker = .handling (.posted k r))
      (hq : s.backend.step (.begin (.client (.puller i)) (.postMessage m)) = some q) :
      Move s { s.setPuller i { p with pc := .answered } with backend := q }
  | manage (n : ℕ) (hr : s.releasing = none) : Move s { s with managers := n }
  | release (t : τ) (hr : s.releasing = none) :
      Move s { s with managers := 0, releasing := some (t, .stop) }
  | stop {t : τ} {q : MessageQueue.State (Caller τ) NeedData.Message}
      (hr : s.releasing = some (t, .stop))
      (hq : s.backend.step (.begin (.client (.thread t)) (.callInEventLoop .other)) = some q) :
      Move s { s with backend := q, releasing := some (t, .stopQueue) }
  | stopQueue {t : τ} {q : MessageQueue.State (Caller τ) NeedData.Message}
      (hr : s.releasing = some (t, .stopQueue))
      (hq : s.backend.step (.begin (.client (.thread t)) .stop) = some q) :
      Move s { s with backend := q, releasing := some (t, .join) }
  | join {t : τ} (hr : s.releasing = some (t, .join))
      (hidle : s.backend.pc (.client (.thread t)) = .idle) :
      Move s { s with releasing := some (t, .stopPullers s.attachedPullers) }
  | stopPuller {t : τ} {rest : List ℕ} {i : ℕ} {p : Puller τ}
      {q : MessageQueue.State (PullerCaller τ) Request}
      (hr : s.releasing = some (t, .stopPullers rest)) (hi : i ∈ rest)
      (hp : s.pullers[i]? = some p)
      (hq : p.queue.step (.begin (.client (.thread t)) .stop) = some q) :
      Move s ({ s with releasing := some (t, .stopPullers (rest.filter (· ≠ i))) }.setPuller i
        { p with queue := q })
  | destroy {t : τ} (hr : s.releasing = some (t, .stopPullers []))
      (hidle : ∀ p ∈ s.pullers, p.queue.pc (.client (.thread t)) = .idle) :
      Move s { s with releasing := some (t, .destroyed) }

theorem perform_move {s u : State τ} {a : Action} (hhandling : s.Handling)
    (h : s.perform a = some u) : Move s u := by
  cases a with
  | invoke =>
      cases h
      exact .invoke hhandling
  | requestPullBuffer r =>
      simp only [State.perform] at h
      split at h
      · obtain ⟨p, q, hp, hq, rfl⟩ := State.stepPuller_spec h
        exact .puller hp hq (by simp) (by simp) (fun _ _ _ ↦ hhandling) (by simp)
      · cases h
  | postMessage m =>
      obtain ⟨q, hq, rfl⟩ := State.stepQueue_spec h
      exact .queue hq (by simp) (by simp) (by simp)
  | callInEventLoop m =>
      obtain ⟨q, hq, rfl⟩ := State.stepQueue_spec h
      exact .queue hq (by simp) (by simp) (by simp)
  | attachSource id =>
      simp only [State.perform] at h
      split at h <;> cases h
      exact .attachSource id hhandling
  | removeSource id =>
      simp only [State.perform] at h
      split at h
      next i hi =>
        obtain ⟨p, hp, hsource⟩ := State.attached?_spec hi
        rw [hp] at h
        obtain ⟨p', q, hp', hq, rfl⟩ := State.stepPuller_spec h
        have hlt : i < s.pullers.length := (List.getElem?_eq_some_iff.mp hp).1
        obtain rfl : { p with source := none } = p' := by
          simpa [State.setPuller, hlt] using hp'
        have hmove := Move.removeSource hhandling hp (by simp [hsource]) hq
        simpa [State.setPuller] using hmove
      · cases h

theorem pull_move {s u : State τ} {i : ℕ} {p : Puller τ} {r : Request} {step : PullStep}
    (hp : s.pullers[i]? = some p) (hin : ∃ k r, p.queue.worker = .handling (.posted k r))
    (h : s.pull i p r step = some u) : Move s u := by
  cases step with
  | addSegment =>
      simp only [State.pull] at h
      split at h
      · split at h <;> cases h
        exact .pull _ _ hp hin
      · cases h
  | added noSpace =>
      simp only [State.pull] at h
      split at h <;> cases h
      exact .pull _ s.invocations hp hin
  | skip =>
      simp only [State.pull] at h
      split at h
      · split at h <;> cases h
        exact .pull _ s.invocations hp hin
      · cases h
  | haveData status =>
      simp only [State.pull] at h
      split at h
      · obtain ⟨q, hq, rfl⟩ := State.stepQueue_spec h
        exact .haveData hp hin hq
      · cases h

theorem workPuller_move {s u : State τ} {i : ℕ} {p : Puller τ} (hp : s.pullers[i]? = some p)
    (h : s.workPuller i p = some u) : Move s u := by
  unfold State.workPuller at h
  split at h
  next =>
    split at h
    next =>
      obtain ⟨p', q, hp', hq, rfl⟩ := State.stepPuller_spec h
      have hlt : i < s.pullers.length := (List.getElem?_eq_some_iff.mp hp).1
      obtain rfl : { p with pc := .frame 0 } = p' := by simpa [State.setPuller, hlt] using hp'
      have hmove := Move.finish hp hq
      simpa [State.setPuller] using hmove
    · cases h
  next hnot =>
    obtain ⟨p', q, hp', hq, rfl⟩ := State.stepPuller_spec h
    obtain rfl : p = p' := Option.some.inj (hp.symm.trans hp')
    exact .puller hp hq (by simp) (by simp) (by simp) fun _ k r ↦ hnot k r

theorem teardown_move {s u : State τ} {t : τ} {next : ℕ} {pc : ReleasePc}
    (hr : s.releasing = some (t, pc)) (h : s.teardown t next pc = some u) : Move s u := by
  cases pc with
  | stop =>
      obtain ⟨q, hq, rfl⟩ := State.stepQueue_spec h
      exact .stop hr hq
  | stopQueue =>
      obtain ⟨q, hq, rfl⟩ := State.stepQueue_spec h
      exact .stopQueue hr hq
  | join =>
      simp only [State.teardown] at h
      split at h <;> cases h
      next hidle => exact .join hr hidle
  | stopPullers rest =>
      simp only [State.teardown] at h
      split at h
      next hidle =>
        split at h
        next hrest =>
          cases h
          subst hrest
          exact .destroy hr hidle
        · split at h
          next hnext =>
            obtain ⟨p, q, hp, hq, rfl⟩ := State.stepPuller_spec h
            exact .stopPuller hr hnext hp hq
          · cases h
      · cases h
  | destroyed => cases h

theorem step_move {s u : State τ} {e : Event τ} (h : s.step e = some u) : Move s u := by
  cases e with
  | call t op =>
      cases op with
      | stop | clear => cases h
      | postMessage m | scheduleInEventLoop m | callInEventLoop m =>
          simp only [State.step] at h
          split at h
          · cases h
          · obtain ⟨q, hq, rfl⟩ := State.stepQueue_spec h
            exact .queue hq (by simp) (by simp) (by simp)
  | advance v =>
      obtain ⟨q, hq, rfl⟩ := State.stepQueue_spec h
      exact .queue hq (by simp) (by simp) (by simp)
  | advancePuller i v =>
      obtain ⟨p, q, hp, hq, rfl⟩ := State.stepPuller_spec h
      exact .puller hp hq (by simp) (by simp) (by simp) (by simp)
  | work =>
      simp only [State.step] at h
      split at h
      next hfree =>
        obtain ⟨q, hq, rfl⟩ := State.stepQueue_spec h
        exact .queue hq (by simp) (by simp) fun _ ↦ hfree
      · cases h
  | workPuller i =>
      simp only [State.step] at h
      split at h
      next p hp => exact workPuller_move hp h
      · cases h
  | act a =>
      simp only [State.step, State.act] at h
      split at h
      next k m hw =>
        split at h
        · exact perform_move ⟨k, m, hw⟩ h
        · cases h
      · cases h
  | pull i step =>
      simp only [State.step] at h
      split at h
      next p hp =>
        split at h
        next k r hw => exact pull_move hp ⟨k, r, hw⟩ h
        · cases h
      · cases h
  | attach =>
      simp only [State.step] at h
      split at h <;> cases h
      next hr => exact .manage _ hr
  | release t =>
      simp only [State.step] at h
      split at h
      next hr =>
        split at h <;> cases h
        · exact .release t hr.1
        · exact .manage _ hr.1
      · cases h
  | teardown next =>
      simp only [State.step] at h
      split at h
      next t pc hr => exact teardown_move hr h
      · cases h

end RialtoGStreamer.Teardown
