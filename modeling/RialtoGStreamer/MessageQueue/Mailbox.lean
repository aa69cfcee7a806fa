import RialtoGStreamer.MessageQueue.Closed

/-!
# The queue as a mailbox

What the users of a queue see of it: the accepted messages that are not handled
yet, and the one that the worker handles. A step appends a message behind the
others, takes the first one, finishes the one being handled, or changes neither.
-/

namespace RialtoGStreamer.MessageQueue

open Library

variable {τ μ : Type*} [DecidableEq τ]

/-- The messages that wait, in the hand of the worker or in `m_queue`. -/
def State.pending (s : State τ μ) : List μ :=
  (s.accepted.drop s.handled.length).map Prod.snd

/-- The message that is being handled. -/
def WorkerPc.busy : WorkerPc μ → Option μ
  | .handling (.posted _ m) => some m
  | _ => none

omit [DecidableEq τ] in
theorem handling_of_busy {s : State τ μ} {m : μ} (h : s.worker.busy = some m) :
    ∃ k, s.worker = .handling (.posted k m) := by
  unfold WorkerPc.busy at h
  split at h <;> cases h
  next _ k hw => exact ⟨k, hw⟩

/-- A queue that is never cleared, and accepts messages until its only stop. -/
structure Ready (s : State τ μ) : Prop where
  kept : Kept s
  accepting : s.stops = [] → s.acceptingMessages = true

omit [DecidableEq τ] in
theorem ready_started : Ready (State.started τ μ) := ⟨kept_started, fun _ ↦ rfl⟩

omit [DecidableEq τ] in
theorem pending_started : (State.started τ μ).pending = [] := rfl

omit [DecidableEq τ] in
theorem Ready.open {s : State τ μ} (h : Ready s) (hstops : s.stops = []) :
    Open s ∧ ∀ u, (s.pc u).bystands = true := by
  cases h.kept.intact.stage (by simp [hstops]) with
  | notIssued _ hrest hopen => exact ⟨hopen, hrest⟩
  | stopping t _ h0 | clearing t _ h0 | stopped t h0 => simp [hstops] at h0

theorem Ready.step {s s' : State τ μ} {e : Event τ μ} (h : Ready s)
    (hclear : ∀ t, e ≠ .begin t .clear) (hstep : s.step e = some s') : Ready s' := by
  have hm := step_move hstep
  refine ⟨h.kept.step hclear hstep, fun hstops ↦ ?_⟩
  have hstops0 : s.stops = [] := List.prefix_nil.mp (hstops ▸ prefix_stops_of hm)
  have hrest := (h.open hstops0).2
  cases hm with
  | post hm => exact hm.frame.acceptingMessages.trans (h.accepting hstops0)
  | work hm => exact hm.frame.acceptingMessages.trans (h.accepting hstops0)
  | beginStop => exact h.accepting hstops0
  | beginClear => exact h.accepting hstops0
  | @stop t _ _ hp => exact absurd (hrest t) (by simp [hp, Pc.bystands])
  | @clear t _ _ _ hp => exact absurd (hrest t) (by simp [hp, Pc.bystands])

/-! ## What a step does to the mailbox -/

/-- Neither the messages nor their handling change. -/
structure SameMail (s s' : State τ μ) : Prop where
  accepted : s'.accepted = s.accepted
  handled : s'.handled = s.handled
  worker : s'.worker = s.worker

omit [DecidableEq τ] in
theorem SameMail.pending {s s' : State τ μ} (h : SameMail s s') : s'.pending = s.pending := by
  rw [State.pending, h.accepted, h.handled]
  rfl

theorem sameMail_of_begin {s s' : State τ μ} {t : Thread τ} {op : Operation μ}
    (hstep : s.step (.begin t op) = some s') : SameMail s s' := by
  obtain ⟨-, -, rfl⟩ := begin_spec hstep
  cases op with
  | callInEventLoop m =>
      simp only [State.enter]
      split <;> exact ⟨rfl, rfl, rfl⟩
  | postMessage | scheduleInEventLoop | stop | clear => exact ⟨rfl, rfl, rfl⟩

/-- A thread enters an operation at `p`. -/
structure Enters (s : State τ μ) (t : Thread τ) (p : Pc μ) (s' : State τ μ) : Prop where
  before : s.pc t = .idle
  after : s'.pc t = p
  others : ∀ u, u ≠ t → s'.pc u = s.pc u
  mail : SameMail s s'

theorem enters_postMessage {s s' : State τ μ} {t : Thread τ} {m : μ}
    (hstep : s.step (.begin t (.postMessage m)) = some s') :
    Enters s t (.posting m false .entering) s' := by
  obtain ⟨hidle, -, rfl⟩ := begin_spec hstep
  exact ⟨hidle, goto_pc_self _ _ _, fun u hu ↦ goto_pc_ne _ hu, sameMail_of_begin hstep⟩

theorem enters_callInEventLoop {s s' : State τ μ} {t : τ} {m : μ}
    (hstep : s.step (.begin (.client t) (.callInEventLoop m)) = some s') :
    Enters s (.client t) (.posting m true .entering) s' := by
  have hmail := sameMail_of_begin hstep
  obtain ⟨hidle, -, rfl⟩ := begin_spec hstep
  have henter : s.enter (.client t) (.callInEventLoop m) =
      s.goto (.client t) (.posting m true .entering) := by
    simp [State.enter]
  rw [henter] at hmail ⊢
  exact ⟨hidle, goto_pc_self _ _ _, fun u hu ↦ goto_pc_ne _ hu, hmail⟩

theorem enters_stop {s s' : State τ μ} {t : Thread τ} (hstep : s.step (.begin t .stop) = some s') :
    Enters s t (.stopping .testRunning) s' := by
  have hmail := sameMail_of_begin hstep
  obtain ⟨hidle, -, rfl⟩ := begin_spec hstep
  exact ⟨hidle, goto_pc_self _ _ _, fun u hu ↦ goto_pc_ne _ hu, hmail⟩

/-- A thread inside `postMessage` goes on, or its message is accepted. -/
inductive PostStep (s : State τ μ) (t : Thread τ) (m : μ) (call : Bool) (s' : State τ μ) : Prop
  | going (phase : PostPhase) (hpc : s'.pc t = .posting m call phase) (hmail : SameMail s s')
  | accepted (hpc : s'.pc t = if call then .awaiting s.accepted.length m else .idle)
      (haccepted : s'.accepted = s.accepted ++ [(s.accepted.length, m)])
      (hpending : s'.pending = s.pending ++ [m]) (hworker : s'.worker = s.worker)

/-- As long as there is no stop, a message is not refused. -/
theorem Ready.postStep {s s' : State τ μ} (h : Ready s) (hstops : s.stops = []) {t : Thread τ}
    {m : μ} {call : Bool} {phase : PostPhase} (hpc : s.pc t = .posting m call phase)
    (hstep : s.step (.advance t) = some s') : PostStep s t m call s' := by
  have hrunning := (h.open hstops).1.running
  have haccepting := h.accepting hstops
  simp only [State.step, hpc] at hstep
  cases phase with
  | entering =>
      simp only [State.postMessage] at hstep
      split at hstep <;> cases hstep
      exact .going .locked (goto_pc_self _ _ _) ⟨rfl, rfl, rfl⟩
  | locked =>
      simp only [State.postMessage, hrunning, if_true] at hstep
      cases hstep
      exact .going .sawRunning (goto_pc_self _ _ _) ⟨rfl, rfl, rfl⟩
  | sawRunning =>
      simp only [State.postMessage, haccepting, if_true] at hstep
      cases hstep
      exact .going .sawAccepting (goto_pc_self _ _ _) ⟨rfl, rfl, rfl⟩
  | sawAccepting =>
      cases hstep
      refine .accepted (goto_pc_self _ _ _) rfl ?_ rfl
      have hacc := (h.kept.intact.conserved (by simp [hstops])).accounted
      have hle : s.handled.length ≤ s.accepted.length := by
        rw [hacc]
        simp only [List.length_append]
        omega
      simp [State.pending, List.drop_append_of_le_length hle]

theorem awaiting_step {s s' : State τ μ} {t : Thread τ} {k : ℕ} {m : μ}
    (hpc : s.pc t = .awaiting k m) (hstep : s.step (.advance t) = some s') :
    s'.pc t = .idle ∧ SameMail s s' := by
  simp only [State.step, hpc] at hstep
  split at hstep <;> cases hstep
  exact ⟨goto_pc_self _ _ _, rfl, rfl, rfl⟩

/-- A thread inside a stop stays in it or returns, and posts nothing. -/
theorem stop_step {s s' : State τ μ} {t : Thread τ} (hpc : (s.pc t).bystands = false)
    (hstep : s.step (.advance t) = some s') :
    (s'.pc t = .idle ∨ (s'.pc t).bystands = false) ∧ SameMail s s' := by
  simp only [State.step] at hstep
  split at hstep
  · cases hstep
  next hp => simp [hp, Pc.bystands] at hpc
  next hp => simp [hp, Pc.bystands] at hpc
  next hp =>
    cases doStop_move hstep with
    | notRunning => exact ⟨.inl (goto_pc_self _ _ _), rfl, rfl, rfl⟩
    | testRunning | ownThread | otherThread | refuse | halt | detach | lock | refuseLocked | push
    | await | notJoinable | join =>
        refine ⟨.inr ?_, rfl, rfl, rfl⟩
        rw [goto_pc_self]
        rfl
  next hp =>
    cases doClear_move hstep with
    | done => exact ⟨.inl (goto_pc_self _ _ _), rfl, rfl, rfl⟩
    | lock =>
        refine ⟨.inr ?_, rfl, rfl, rfl⟩
        rw [goto_pc_self]
        rfl
    | skip | skipHalt => exact ⟨.inr hpc, rfl, rfl, rfl⟩

/-- The worker takes the first message, finishes the one it has, or does neither. -/
inductive WorkStep (s s' : State τ μ) : Prop
  | silent (hbefore : s.worker.busy = none) (hafter : s'.worker.busy = none)
      (hpending : s'.pending = s.pending)
  | taken (m : μ) (hbefore : s.worker.busy = none) (hafter : s'.worker.busy = some m)
      (hpending : s.pending = m :: s'.pending)
  | finished (m : μ) (hbefore : s.worker.busy = some m) (hidle : s.pc .worker = .idle)
      (hafter : s'.worker.busy = none) (hpending : s'.pending = s.pending)

theorem Ready.workStep {s s' : State τ μ} (h : Ready s) (hone : s.stops.length ≤ 1)
    (hstep : s.step .work = some s') :
    WorkStep s s' ∧ s'.accepted = s.accepted ∧ s'.pc = s.pc := by
  have hm : WorkMove s s' := processMessages_move hstep
  refine ⟨?_, ?_, hm.frame.pc⟩
  · cases hm with
    | @handle k m hw =>
        refine .taken m (by rw [hw]; rfl) rfl ?_
        have hacc := (h.kept.intact.conserved hone).accounted
        simp [State.pending, hacc, hw]
    | @finish k m hw hp => exact .finished m (by rw [hw]; rfl) hp rfl rfl
    | lock hw | wait hw | pop hw | popHalt hw | handleHalt hw | runHalt hw | signalHalt hw
    | again hw | leave hw => exact .silent (by rw [hw]; rfl) rfl rfl
  · cases hm <;> rfl

omit [DecidableEq τ] in
/-- The stop of `t` has returned: everything that was accepted is handled. -/
theorem Ready.drained {s : State τ μ} (h : Ready s) {t : τ} (hstops : s.stops = [.client t])
    (hidle : s.pc (.client t) = .idle) : s.pending = [] ∧ s.worker = .left := by
  have hone : s.stops.length ≤ 1 := by simp [hstops]
  have hleft := (h.kept.closed hstops hidle).left
  have hshut : Shut s (.client t) := by
    cases h.kept.intact.stage hone with
    | notIssued h0 => simp [hstops] at h0
    | stopping u phase h0 _ hpc | clearing u phase h0 _ hpc =>
        obtain rfl : .client t = u := by simpa [hstops] using h0
        simp [hidle] at hpc
    | stopped u h0 _ _ hshut =>
        obtain rfl : .client t = u := by simpa [hstops] using h0
        exact hshut
  have hacc := (h.kept.intact.conserved hone).accounted
  have hhandled : s.accepted = s.handled := by
    simpa [hleft, hshut.empty, hshut.skipped (by simp)] using hacc
  exact ⟨by simp [State.pending, hhandled], hleft⟩

end RialtoGStreamer.MessageQueue
