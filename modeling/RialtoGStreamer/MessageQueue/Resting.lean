import RialtoGStreamer.MessageQueue.Mailbox
import RialtoGStreamer.MessageQueue.Stops

/-!
# A queue in which nothing moves

When no thread can go on, the mutex is free: its owner could. Then a thread that is
inside an operation waits for a message, and the worker has nothing to take, unless
it is inside a handler or gone. A queue that is stopped from outside also knows how
far its worker is: it has left, or is about to, once the message of the stop is done.
-/

namespace RialtoGStreamer.MessageQueue

open Library

variable {τ μ : Type*} [DecidableEq τ]

/-! ## The end of the worker -/

/-- Of a queue that its own worker never stops. -/
structure Halting (s : State τ μ) : Prop where
  out : s.haltDone ≠ [] → s.worker = .testing ∨ s.worker = .left
  running : s.running = false → s.haltDone ≠ [] ∨ ∃ k, s.worker = .halted k
  notRunning : (s.haltDone ≠ [] ∨ ∃ k, s.worker = .halted k) → s.running = false
  joins : ∀ t, s.pc t = .stopping .join → s.haltDone ≠ []

omit [DecidableEq τ] in
theorem halting_started : Halting (State.started τ μ) :=
  ⟨fun h ↦ absurd rfl h, by rintro ⟨⟩, by rintro (h | ⟨k, ⟨⟩⟩); exact absurd rfl h,
    by rintro t ⟨⟩⟩

omit [DecidableEq τ] in
theorem Halting.congr {s s' : State τ μ} (h : Halting s) (hdone : s'.haltDone = s.haltDone)
    (hworker : s'.worker = s.worker) (hrunning : s'.running = s.running)
    (hpc : ∀ t, s'.pc t = .stopping .join → s.pc t = .stopping .join ∨ s.haltDone ≠ []) :
    Halting s' := by
  refine ⟨?_, ?_, ?_, fun t ht ↦ ?_⟩
  · rw [hdone, hworker]
    exact h.out
  · rw [hdone, hworker, hrunning]
    exact h.running
  · rw [hdone, hworker, hrunning]
    exact h.notRunning
  · rw [hdone]
    exact (hpc t ht).elim (h.joins t) id

theorem Halting.goto {s u : State τ μ} (h : Halting s) {t : Thread τ} {p : Pc μ}
    (hdone : u.haltDone = s.haltDone) (hworker : u.worker = s.worker)
    (hrunning : u.running = s.running) (hpc : u.pc = s.pc)
    (hp : p = .stopping .join → s.haltDone ≠ []) : Halting (u.goto t p) := by
  refine h.congr hdone hworker hrunning fun v hv ↦ ?_
  rw [State.goto_pc] at hv
  split at hv
  · exact .inr (hp hv)
  · exact .inl (hpc ▸ hv)

omit [DecidableEq τ] in
theorem halting_work {s s' : State τ μ} (h : Halting s) (hm : WorkMove s s') : Halting s' := by
  obtain ⟨hout, hrunning, hnot, hjoins⟩ := h
  cases hm with
  | lock hw | wait hw | pop hw | popHalt hw | handle hw | handleHalt hw | finish hw =>
      have hnone : s.haltDone = [] := by
        by_contra hdone
        simpa [hw] using hout hdone
      refine ⟨fun hdone ↦ absurd hnone hdone, fun hr ↦ ?_, ?_, hjoins⟩
      · simpa [hw, hnone] using hrunning hr
      · rintro (hdone | ⟨k, ⟨⟩⟩)
        exact absurd hnone hdone
  | @runHalt k hw =>
      refine ⟨fun hdone ↦ ?_, fun _ ↦ .inr ⟨k, rfl⟩, fun _ ↦ rfl, hjoins⟩
      simpa [hw] using hout hdone
  | @signalHalt k hw =>
      have hr : s.running = false := hnot (.inr ⟨k, hw⟩)
      exact ⟨fun _ ↦ .inl rfl, fun _ ↦ .inl (by simp), fun _ ↦ hr, fun t ht ↦ by simp⟩
  | again hw hr =>
      have hnone : s.haltDone = [] := by
        by_contra hdone
        simpa [hr] using hnot (.inl hdone)
      refine ⟨fun hdone ↦ absurd hnone hdone, fun hr' ↦ ?_, ?_, hjoins⟩
      · simp [hr] at hr'
      · rintro (hdone | ⟨k, ⟨⟩⟩)
        exact absurd hnone hdone
  | leave hw hr =>
      have hdone : s.haltDone ≠ [] := (hrunning hr).resolve_right (by simp [hw])
      exact ⟨fun _ ↦ .inr rfl, fun _ ↦ .inl hdone, fun _ ↦ hr, hjoins⟩

theorem halting_move {s s' : State τ μ} {e : Event τ μ} (h : Halting s) (hstage : Stage s)
    (hidle : s.pc .worker = .idle) (hm : Move s e s') : Halting s' := by
  have hclient : ∀ t, s.pc t ≠ .idle → t ≠ .worker := by
    rintro t hbusy rfl
    exact hbusy hidle
  cases hm with
  | @post t _ hm =>
      refine h.congr hm.frame.haltDone hm.frame.worker hm.frame.running fun u hu ↦ ?_
      by_cases hut : u = t
      · subst hut
        rcases hm.frame.own with hsame | ⟨hown, -⟩
        · exact .inl (hsame ▸ hu)
        · rw [hu] at hown
          cases hown
      · exact .inl (hm.frame.others u hut ▸ hu)
  | work hm => exact halting_work h hm
  | beginStop | beginClear => exact h.goto rfl rfl rfl rfl (by rintro ⟨⟩)
  | @stop t _ _ hp hm =>
      have ht := hclient t (by simp [hp])
      obtain ⟨-, -, -, hfacts⟩ := hstage.of_stopping hp
      cases hm with
      | ownThread hw => exact absurd hw ht
      | halt => exact absurd hfacts.1 ht
      | @await k hd =>
          refine h.goto rfl rfl rfl rfl fun _ hnone ↦ ?_
          rw [hnone] at hd
          cases hd
      | notRunning | testRunning | otherThread | refuse | detach | lock | refuseLocked | push
      | notJoinable | join => exact h.goto rfl rfl rfl rfl (by rintro ⟨⟩)
  | @clear t _ _ _ hp hm =>
      cases hm with
      | skipHalt hq =>
          -- Behind a stop from outside there is nothing left to skip.
          obtain ⟨-, -, -, -, hfacts⟩ := hstage.of_clearing hp
          cases t with
          | worker => exact absurd rfl (hclient .worker (by simp [hp]))
          | client t => exact absurd hfacts.2.2.1 (by simp [hq])
      | lock | done => exact h.goto rfl rfl rfl rfl (by rintro ⟨⟩)
      | skip => exact h.congr rfl rfl rfl fun _ hu ↦ .inl hu

/-! ## When nothing moves -/

/-- The worker only looks into the empty queue. -/
def State.isIdleTurn (s : State τ μ) : Prop :=
  s.worker = .waiting ∧ s.queue = []

/-- No thread can go on, apart from such turns of the worker. -/
structure Resting (s : State τ μ) : Prop where
  threads : ∀ t, s.step (.advance t) = none
  worker : s.worker.busy = none → s.step .work = none ∨ s.isIdleTurn

theorem Resting.mutex {s : State τ μ} (h : Resting s) (hheld : Held s) : s.mutex = none := by
  cases hmutex : s.mutex with
  | none => rfl
  | some t =>
      exfalso
      rcases hheld t hmutex with hholds | ⟨-, hlocked⟩
      · have ht := h.threads t
        simp only [State.step] at ht
        cases hpc : s.pc t with
        | posting m call phase =>
            rw [hpc] at hholds ht
            cases phase with
            | entering => cases hholds
            | locked | sawRunning =>
                simp only [State.postMessage] at ht
                split at ht <;> cases ht
            | sawAccepting => cases ht
        | stopping phase =>
            rw [hpc] at hholds ht
            cases phase with
            | refuseLocked | push => cases ht
            | testRunning | compareThread | refuse | halt | detach | lock | await | join =>
                cases hholds
        | clearing stop locked =>
            rw [hpc] at hholds ht
            cases locked with
            | false => cases hholds
            | true =>
                simp only [State.doClear] at ht
                split at ht <;> cases ht
        | idle | awaiting =>
            rw [hpc] at hholds
            cases hholds
      · rcases h.worker (by rw [hlocked]; rfl) with hwork | ⟨hwaiting, -⟩
        · simp only [State.step, State.processMessages, hlocked] at hwork
          split at hwork <;> cases hwork
        · rw [hlocked] at hwaiting
          cases hwaiting

/-- A thread inside an operation waits for a message, or for the worker to leave. -/
inductive RestingPc (s : State τ μ) (t : Thread τ) : Prop
  | idle (hpc : s.pc t = .idle)
  | awaiting (k : ℕ) (m : μ) (hpc : s.pc t = .awaiting k m) (hk : k ∉ s.done)
  | halt (k : ℕ) (hpc : s.pc t = .stopping (.await k)) (hk : k ∉ s.haltDone)
  | join (hpc : s.pc t = .stopping .join) (hleft : s.worker ≠ .left)

theorem Resting.pc {s : State τ μ} (h : Resting s) (hheld : Held s) (howned : Owned s)
    (t : Thread τ) : RestingPc s t := by
  have hfree := h.mutex hheld
  have hholds := howned.holds_eq_false hfree t
  have ht := h.threads t
  simp only [State.step] at ht
  cases hpc : s.pc t with
  | idle => exact .idle hpc
  | awaiting k m =>
      rw [hpc] at ht
      refine .awaiting k m hpc fun hk ↦ ?_
      simp [hk] at ht
  | posting m call phase =>
      rw [hpc] at ht hholds
      cases phase with
      | entering => simp [State.postMessage, hfree] at ht
      | locked | sawRunning | sawAccepting => cases hholds
  | stopping phase =>
      rw [hpc] at ht hholds
      cases phase with
      | await k =>
          refine .halt k hpc fun hk ↦ ?_
          simp [State.doStop, hk] at ht
      | join =>
          refine .join hpc fun hleft ↦ ?_
          simp only [State.doStop, hleft] at ht
          split at ht <;> cases ht
      | testRunning | compareThread =>
          simp only [State.doStop] at ht
          split at ht <;> cases ht
      | lock => simp [State.doStop, hfree] at ht
      | refuse | halt | detach => cases ht
      | refuseLocked | push => cases hholds
  | clearing stop locked =>
      rw [hpc] at ht hholds
      cases locked with
      | false => simp [State.doClear, hfree] at ht
      | true => cases hholds

theorem Resting.not_posting {s : State τ μ} (h : Resting s) (hready : Ready s) {t : Thread τ}
    {m : μ} {call : Bool} {phase : PostPhase} : s.pc t ≠ .posting m call phase := by
  intro hposting
  cases h.pc hready.kept.held hready.kept.intact.owned t with
  | idle hpc | awaiting _ _ hpc | halt _ hpc | join hpc =>
      rw [hposting] at hpc
      cases hpc

theorem Resting.worker_cases {s : State τ μ} (h : Resting s) (hheld : Held s)
    (hbusy : s.worker.busy = none) : s.isIdleTurn ∨ s.worker = .left := by
  have hfree := h.mutex hheld
  rcases h.worker hbusy with hwork | hidle
  · right
    simp only [State.step, State.processMessages] at hwork
    cases hw : s.worker with
    | left => rfl
    | waiting => simp [hw, hfree] at hwork
    | locked =>
        simp only [hw] at hwork
        split at hwork <;> cases hwork
    | popped m => cases m <;> simp [hw] at hwork
    | handling m =>
        cases m with
        | posted k m => simp [hw, WorkerPc.busy] at hbusy
        | halt k => simp [hw] at hwork
    | halted k => simp [hw] at hwork
    | testing => simp [hw] at hwork
  · exact .inl hidle

/-- The worker has not left a queue that was not stopped. -/
theorem Resting.isIdleTurn {s : State τ μ} (h : Resting s) (hready : Ready s)
    (hstops : s.stops = []) (hbusy : s.worker.busy = none) : s.isIdleTurn := by
  refine (h.worker_cases hready.kept.held hbusy).resolve_right fun hleft ↦ ?_
  have hrunning := (hready.kept.joined (by simp [hstops])).notRunning hleft
  simp [(hready.open hstops).1.running] at hrunning

/-- Where the worker looks into the empty queue, all the calls have returned. -/
theorem Resting.idle {s : State τ μ} (h : Resting s) (hready : Ready s) (hfiled : Filed s)
    (hserved : Served s) (hstops : s.stops = []) (hturn : s.isIdleTurn) :
    s.pending = [] ∧ ∀ t, s.pc t = .idle := by
  obtain ⟨hwaiting, hqueue⟩ := hturn
  obtain ⟨hopen, hrest⟩ := hready.open hstops
  have hhandled : s.accepted = s.handled := by
    have hacc := (hready.kept.intact.conserved (by simp [hstops])).accounted
    simpa [hwaiting, hqueue, hopen.skipped] using hacc
  refine ⟨by simp [State.pending, hhandled], fun t ↦ ?_⟩
  cases h.pc hready.kept.held hready.kept.intact.owned t with
  | idle hpc => exact hpc
  | awaiting k m hpc hk =>
      have hmem : (k, m) ∈ s.handled := hhandled ▸ hfiled.awaiting t (k, m) (by rw [hpc]; rfl)
      rcases hserved.handled _ hmem with hdone | hhandling
      · exact absurd hdone hk
      · rw [hwaiting] at hhandling
        cases hhandling
  | halt k hpc =>
      have hbystands := hrest t
      rw [hpc] at hbystands
      cases hbystands
  | join hpc =>
      have hbystands := hrest t
      rw [hpc] at hbystands
      cases hbystands

/-- A stop from outside does not wait for a worker that has nothing to do. -/
theorem Resting.stop_returned {s : State τ μ} (h : Resting s) (hready : Ready s)
    (hticketed : Ticketed s) (hhalting : Halting s) (hbusy : s.worker.busy = none) {t : τ}
    (hstops : s.stops = [.client t]) (hpc : (s.pc (.client t)).bystands = false) : False := by
  have hheld := hready.kept.held
  have hstage := hready.kept.intact.stage (by simp [hstops])
  have hleft : s.worker = .left → s.haltDone ≠ [] := by
    intro hleft
    have hrunning := (hready.kept.joined (by simp [hstops])).notRunning hleft
    exact (hhalting.running hrunning).resolve_right (by simp [hleft])
  cases h.pc hheld hready.kept.intact.owned (.client t) with
  | idle hidle => simp [hidle, Pc.bystands] at hpc
  | awaiting k m hidle => simp [hidle, Pc.bystands] at hpc
  | halt k hawait hk =>
      obtain ⟨-, -, -, hfacts⟩ := hstage.of_stopping hawait
      have hends : HaltEnds s := hfacts.2.2.2.2
      have hmem := List.mem_range.mpr (hticketed.awaited _ k hawait)
      rw [hticketed.accounted.mem_iff] at hmem
      rcases h.worker_cases hheld hbusy with ⟨hwaiting, hqueue⟩ | hgone
      · simp [hwaiting, hqueue, hk] at hmem
      · simp [hgone, hends.haltDone (hleft hgone), hk] at hmem
  | join hjoin hstays =>
      rcases h.worker_cases hheld hbusy with ⟨hwaiting, -⟩ | hgone
      · simpa [hwaiting] using hhalting.out (hhalting.joins _ hjoin)
      · exact hstays hgone

end RialtoGStreamer.MessageQueue
