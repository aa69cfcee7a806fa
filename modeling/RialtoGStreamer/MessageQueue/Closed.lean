import RialtoGStreamer.MessageQueue.Delivery

/-!
# The queue after a stop from another thread

Such a stop returns only when the worker has left. From then on nothing is
accepted or handled, and a call returns false as soon as the mutex is free, which
takes one step of whoever holds it. These are the facts for those who use a queue
and stop it.
-/

namespace RialtoGStreamer.MessageQueue

open Library

variable {τ μ : Type*} [DecidableEq τ]

/-! ## Steps seen from outside -/

theorem Intact.step {s s' : State τ μ} {e : Event τ μ} (h : Intact s)
    (hclear : ∀ t, e ≠ .begin t .clear) (hstep : s.step e = some s') : Intact s' :=
  intact_move h hclear (step_move hstep)

theorem stops_of_step {s s' : State τ μ} {e : Event τ μ} (hstop : ∀ t, e ≠ .begin t .stop)
    (hstep : s.step e = some s') : s'.stops = s.stops := by
  cases step_move hstep with
  | post hm => exact hm.frame.stops
  | work hm => exact hm.frame.stops
  | beginStop he => exact absurd he (hstop _)
  | beginClear => rfl
  | stop hp hm => cases hm <;> rfl
  | clear hp hm => cases hm <;> rfl

theorem begin_spec {s s' : State τ μ} {t : Thread τ} {op : Operation μ}
    (hstep : s.step (.begin t op) = some s') :
    s.pc t = .idle ∧ MayCall s t ∧ s' = s.enter t op := by
  simp only [State.step] at hstep
  split at hstep
  next hidle =>
    split at hstep <;> cases hstep
    next hmay => exact ⟨hidle, mayCall_of_eq_true hmay, rfl⟩
  · cases hstep

theorem stops_of_beginStop {s s' : State τ μ} {t : Thread τ}
    (hstep : s.step (.begin t .stop) = some s') : s'.stops = s.stops ++ [t] := by
  obtain ⟨-, -, rfl⟩ := begin_spec hstep
  rfl

theorem turn_of_begin {s s' : State τ μ} {t : Thread τ} {op : Operation μ}
    (hstep : s.step (.begin t op) = some s') : Turn s t s' := by
  obtain ⟨hidle, hmay, rfl⟩ := begin_spec hstep
  cases op with
  | postMessage m | scheduleInEventLoop m => exact (PostMove.enter m false hidle hmay).turn
  | callInEventLoop m =>
      simp only [State.enter]
      split
      · exact (PostMove.inPlace m).turn
      · exact (PostMove.enter m true hidle hmay).turn
  | stop => exact turn_goto rfl rfl rfl (.inr hmay) (by rintro ⟨⟩)
  | clear => exact turn_goto rfl rfl rfl (.inr hmay) (by rintro ⟨⟩)

theorem turn_of_advance {s s' : State τ μ} {t : Thread τ}
    (hstep : s.step (.advance t) = some s') : Turn s t s' ∧ s.pc t ≠ .idle := by
  simp only [State.step] at hstep
  split at hstep
  · cases hstep
  next hp => exact ⟨(postMessage_move hp hstep).turn, by simp [hp]⟩
  next hp =>
    split at hstep <;> cases hstep
    next hk => exact ⟨(PostMove.resume hp hk).turn, by simp [hp]⟩
  next hp => exact ⟨(doStop_move hstep).turn hp, by simp [hp]⟩
  next hp => exact ⟨(doClear_move hstep).turn hp, by simp [hp]⟩

theorem pc_of_work {s s' : State τ μ} (hstep : s.step .work = some s') : s'.pc = s.pc :=
  (processMessages_move hstep).frame.pc

/-- A thread enters an operation only by a `begin` of its own. -/
theorem busy_of_step {s s' : State τ μ} {e : Event τ μ} {u : Thread τ}
    (he : ∀ op, e ≠ .begin u op) (hstep : s.step e = some s') (hbusy : s'.pc u ≠ .idle) :
    s.pc u ≠ .idle := by
  cases e with
  | begin t op =>
      have hut : u ≠ t := by
        rintro rfl
        exact he op rfl
      rwa [(turn_of_begin hstep).others u hut] at hbusy
  | advance t =>
      obtain ⟨hturn, ht⟩ := turn_of_advance hstep
      by_cases hut : u = t
      · exact hut ▸ ht
      · rwa [hturn.others u hut] at hbusy
  | work => rwa [pc_of_work hstep] at hbusy

theorem worker_of_step {s s' : State τ μ} {e : Event τ μ} (he : e ≠ .work)
    (hstep : s.step e = some s') : s'.worker = s.worker := by
  cases e with
  | begin t op => exact (turn_of_begin hstep).worker
  | advance t => exact (turn_of_advance hstep).1.worker
  | work => exact absurd rfl he

/-! ## Whoever owns the mutex is in a critical section -/

def Held (s : State τ μ) : Prop :=
  ∀ t, s.mutex = some t → (s.pc t).holds = true ∨ (t = .worker ∧ s.worker = .locked)

theorem held_goto {s u : State τ μ} {t : Thread τ} {p : Pc μ} (h : Held s)
    (hmutex : u.mutex = s.mutex) (hpc : u.pc = s.pc) (hworker : u.worker = s.worker)
    (hp : (s.pc t).holds = true → p.holds = true) : Held (u.goto t p) := by
  intro v hv
  rcases h v (hmutex ▸ hv) with hholds | ⟨rfl, hlocked⟩
  · left
    by_cases hvt : v = t
    · subst hvt
      rw [goto_pc_self]
      exact hp hholds
    · rw [goto_pc_ne _ hvt, hpc]
      exact hholds
  · exact .inr ⟨rfl, hworker.trans hlocked⟩

theorem held_lock {u : State τ μ} {t : Thread τ} {p : Pc μ} (hmutex : u.mutex = some t)
    (hp : p.holds = true) : Held (u.goto t p) := by
  intro v hv
  obtain rfl : t = v := Option.some.inj (hmutex.symm.trans hv)
  left
  rwa [goto_pc_self]

omit [DecidableEq τ] in
theorem held_free {s : State τ μ} (hmutex : s.mutex = none) : Held s := by
  intro v hv
  rw [hmutex] at hv
  cases hv

theorem held_move {s s' : State τ μ} {e : Event τ μ} (h : Held s) (hm : Move s e s') :
    Held s' := by
  cases hm with
  | post hm =>
      cases hm with
      | inPlace m => exact h
      | enter m call hp => exact held_goto h rfl rfl rfl (by simp [hp, Pc.holds])
      | lock hp hfree => exact held_lock rfl rfl
      | sawRunning hp | sawAccepting hp => exact held_goto h rfl rfl rfl fun _ ↦ rfl
      | reject | accept => exact held_free rfl
      | resume hp => exact held_goto h rfl rfl rfl (by simp [hp, Pc.holds])
  | work hm =>
      cases hm with
      | lock hw hfree =>
          intro v hv
          obtain rfl : .worker = v := Option.some.inj hv
          exact .inr ⟨rfl, rfl⟩
      | wait | pop | popHalt => exact held_free rfl
      | handle hw | handleHalt hw | finish hw | runHalt hw | signalHalt hw | again hw | leave hw =>
          intro v hv
          exact .inl ((h v hv).resolve_right (by simp [hw]))
  | beginStop he hp => exact held_goto h rfl rfl rfl (by simp [hp, Pc.holds])
  | beginClear he hp => exact held_goto h rfl rfl rfl (by simp [hp, Pc.holds])
  | stop hp hm =>
      cases hm with
      | lock => exact held_lock rfl rfl
      | refuseLocked => exact held_goto h rfl rfl rfl fun _ ↦ rfl
      | push => exact held_free rfl
      | notRunning | testRunning | ownThread | otherThread | refuse | halt | detach | await
      | notJoinable | join => exact held_goto h rfl rfl rfl (by simp [hp, Pc.holds])
  | clear hp hm =>
      cases hm with
      | lock => exact held_lock rfl rfl
      | skip | skipHalt => exact h
      | done => exact held_free rfl

/-! ## The worker has left -/

/-- A stop from another thread has joined the worker when it returns. -/
structure Joined (s : State τ μ) : Prop where
  left : ∀ t, .client t ∈ s.stopped → s.worker = .left
  notRunning : s.worker = .left → s.running = false

omit [DecidableEq τ] in
theorem Joined.congr {s s' : State τ μ} (h : Joined s) (hstopped : s'.stopped = s.stopped)
    (hworker : s'.worker = s.worker) (hrunning : s'.running = s.running) : Joined s' := by
  constructor
  · intro t ht
    exact hworker.trans (h.left t (hstopped ▸ ht))
  · intro hleft
    exact hrunning.trans (h.notRunning (hworker ▸ hleft))

omit [DecidableEq τ] in
theorem joined_workMove {s s' : State τ μ} (h : Joined s) (hm : WorkMove s s') : Joined s' := by
  have hworker : s.worker ≠ .left := by
    intro hleft
    cases hm <;> simp_all
  constructor
  · intro t ht
    exact absurd (h.left t (hm.frame.stopped ▸ ht)) hworker
  · intro hleft
    cases hm with
    | leave hw hr => exact hr
    | lock | wait | pop | popHalt | handle | handleHalt | finish | runHalt | signalHalt | again =>
        cases hleft

theorem joined_move {s s' : State τ μ} {e : Event τ μ} (h : Joined s) (hstage : Stage s)
    (hm : Move s e s') : Joined s' := by
  cases hm with
  | post hm => exact h.congr hm.frame.stopped hm.frame.worker hm.frame.running
  | work hm => exact joined_workMove h hm
  | beginStop | beginClear => exact h.congr rfl rfl rfl
  | stop hp hm =>
      obtain ⟨-, -, -, hfacts⟩ := hstage.of_stopping hp
      cases hm with
      | notRunning hr =>
          have hopen : Open s := hfacts
          exact absurd (hr.symm.trans hopen.running) Bool.false_ne_true
      | halt => exact ⟨h.left, fun _ ↦ rfl⟩
      | testRunning | ownThread | otherThread | refuse | detach | lock | refuseLocked | push
      | await | notJoinable | join => exact h.congr rfl rfl rfl
  | @clear t stop locked _ hp hm =>
      obtain ⟨-, -, -, -, hfacts⟩ := hstage.of_clearing hp
      cases hm with
      | lock | skip | skipHalt => exact h.congr rfl rfl rfl
      | done =>
          refine ⟨fun u hu ↦ ?_, h.notRunning⟩
          cases t with
          | worker =>
              apply h.left u
              cases stop <;> simpa using hu
          | client t => exact hfacts.2.2.2

/-- What holds of the queue after a stop from another thread. -/
structure Closed (s : State τ μ) : Prop where
  owned : Owned s
  held : Held s
  sealed : Sealed s
  left : s.worker = .left
  notRunning : s.running = false
  rest : ∀ u, (s.pc u).bystands = true

omit [DecidableEq τ] in
theorem closed_of_idle {s : State τ μ} {t : τ} (howned : Owned s) (hheld : Held s)
    (hstage : Stage s) (hjoined : Joined s) (hstops : s.stops = [.client t])
    (hidle : s.pc (.client t) = .idle) : Closed s := by
  cases hstage with
  | notIssued h0 => simp [hstops] at h0
  | stopping u phase h0 h1 hpc =>
      obtain rfl : .client t = u := by simpa [hstops] using h0
      simp [hidle] at hpc
  | clearing u locked h0 h1 hpc =>
      obtain rfl : .client t = u := by simpa [hstops] using h0
      simp [hidle] at hpc
  | stopped u h0 h1 hrest h =>
      obtain rfl : .client t = u := by simpa [hstops] using h0
      have hleft : s.worker = .left := hjoined.left t (by simp [h1])
      exact ⟨howned, hheld, h.sealed, hleft, hjoined.notRunning hleft, hrest⟩

/-- What a queue keeps that is never cleared, as long as there is at most one stop. -/
structure Kept (s : State τ μ) : Prop where
  intact : Intact s
  held : Held s
  joined : s.stops.length ≤ 1 → Joined s

theorem Kept.step {s s' : State τ μ} {e : Event τ μ} (h : Kept s)
    (hclear : ∀ t, e ≠ .begin t .clear) (hstep : s.step e = some s') : Kept s' := by
  have hm := step_move hstep
  refine ⟨h.intact.step hclear hstep, held_move h.held hm, fun hone ↦ ?_⟩
  have hone' : s.stops.length ≤ 1 := Nat.le_trans (prefix_stops_of hm).length_le hone
  exact joined_move (h.joined hone') (h.intact.stage hone') hm

omit [DecidableEq τ] in
theorem kept_started : Kept (State.started τ μ) :=
  ⟨intact_started, held_free rfl, fun _ ↦ ⟨fun _ ht ↦ absurd ht List.not_mem_nil, by rintro ⟨⟩⟩⟩

omit [DecidableEq τ] in
/-- The stop of `t` was issued, and `t` is not inside it any more. -/
theorem Kept.closed {s : State τ μ} (h : Kept s) {t : τ} (hstops : s.stops = [.client t])
    (hidle : s.pc (.client t) = .idle) : Closed s := by
  have hone : s.stops.length ≤ 1 := by simp [hstops]
  exact closed_of_idle h.intact.owned h.held (h.intact.stage hone) (h.joined hone) hstops hidle

/-- Nothing is accepted or handled, and no call begins to wait. -/
structure Frozen (s s' : State τ μ) : Prop where
  accepted : s'.accepted = s.accepted
  handled : s'.handled = s.handled
  inPlace : s'.inPlace = s.inPlace
  awaiting : ∀ u k m, s'.pc u = .awaiting k m → s.pc u = .awaiting k m

omit [DecidableEq τ] in
theorem Frozen.refl (s : State τ μ) : Frozen s s := ⟨rfl, rfl, rfl, fun _ _ _ h ↦ h⟩

omit [DecidableEq τ] in
theorem Frozen.trans {s u v : State τ μ} (h : Frozen s u) (h' : Frozen u v) : Frozen s v :=
  ⟨h'.accepted.trans h.accepted, h'.handled.trans h.handled, h'.inPlace.trans h.inPlace,
    fun t k m hpc ↦ h.awaiting t k m (h'.awaiting t k m hpc)⟩

theorem frozen_goto {s u : State τ μ} {t : Thread τ} {p : Pc μ}
    (haccepted : u.accepted = s.accepted) (hhandled : u.handled = s.handled)
    (hinPlace : u.inPlace = s.inPlace) (hpc : u.pc = s.pc)
    (hp : ∀ k m, p ≠ .awaiting k m) : Frozen s (u.goto t p) := by
  refine ⟨haccepted, hhandled, hinPlace, fun v k m hv ↦ ?_⟩
  rw [State.goto_pc] at hv
  split at hv
  · exact absurd hv (hp k m)
  · exact hpc ▸ hv

theorem inPlace_of_postMessage {s s' : State τ μ} {t : Thread τ} {m : μ} {call : Bool}
    {phase : PostPhase} (h : s.postMessage t m call phase = some s') :
    s'.inPlace = s.inPlace := by
  cases phase with
  | sawAccepting =>
      cases h
      rfl
  | entering =>
      simp only [State.postMessage] at h
      split at h <;> cases h
      rfl
  | locked | sawRunning =>
      simp only [State.postMessage] at h
      split at h <;> cases h <;> rfl

/-- Apart from stops a closed queue is used by threads that post. -/
theorem Closed.postMove {s s' : State τ μ} {e : Event τ μ} (h : Closed s)
    (hstop : ∀ t, e ≠ .begin t .stop) (hclear : ∀ t, e ≠ .begin t .clear)
    (hstep : s.step e = some s') : (∃ t, PostMove s t s') ∧ s'.inPlace = s.inPlace := by
  cases e with
  | begin t op =>
      obtain ⟨hidle, hmay, rfl⟩ := begin_spec hstep
      have ht : t ≠ .worker := by
        rintro rfl
        obtain ⟨k, m, hhandling⟩ := hmay rfl
        exact absurd (h.left.symm.trans hhandling) (by simp)
      cases op with
      | postMessage m | scheduleInEventLoop m => exact ⟨⟨t, .enter m false hidle hmay⟩, rfl⟩
      | callInEventLoop m =>
          simp only [State.enter, ht, false_and, if_false]
          exact ⟨⟨t, .enter m true hidle hmay⟩, rfl⟩
      | stop => exact absurd rfl (hstop t)
      | clear => exact absurd rfl (hclear t)
  | advance t =>
      have hrest := h.rest t
      simp only [State.step] at hstep
      split at hstep
      · cases hstep
      next hp =>
        exact ⟨⟨t, postMessage_move hp hstep⟩, inPlace_of_postMessage hstep⟩
      next hp =>
        split at hstep <;> cases hstep
        next hk => exact ⟨⟨t, .resume hp hk⟩, rfl⟩
      next hp => simp [hp, Pc.bystands] at hrest
      next hp => simp [hp, Pc.bystands] at hrest
  | work =>
      have hm := processMessages_move hstep
      have hleft := h.left
      cases hm <;> simp_all

theorem Closed.step {s s' : State τ μ} {e : Event τ μ} (h : Closed s)
    (hstop : ∀ t, e ≠ .begin t .stop) (hclear : ∀ t, e ≠ .begin t .clear)
    (hstep : s.step e = some s') : Closed s' ∧ Frozen s s' := by
  obtain ⟨⟨t, hm⟩, hinPlace⟩ := h.postMove hstop hclear hstep
  have hframe := hm.frame
  constructor
  · have hmove := step_move hstep
    refine ⟨owned_move h.owned hmove, held_move h.held hmove, h.sealed.bystander (.post hm),
      hframe.worker.trans h.left, hframe.running.trans h.notRunning, fun u ↦ ?_⟩
    rcases (Bystander.post hm).bystands u with ⟨hafter, -⟩ | hsame
    · exact hafter
    · rw [hsame]
      exact h.rest u
  · cases hm with
    | inPlace m => exact absurd hinPlace (by simp)
    | enter m call hp => exact frozen_goto rfl rfl rfl rfl (by simp)
    | lock hp | sawRunning hp | sawAccepting hp => exact frozen_goto rfl rfl rfl rfl (by simp)
    | reject hp => exact frozen_goto rfl rfl rfl rfl (by simp)
    | accept hp => exact absurd hp (h.sealed.nobody _ _ _)
    | resume hp => exact frozen_goto rfl rfl rfl rfl (by simp)

/-! ## Calls return -/

theorem Closed.rejects {s : State τ μ} (h : Closed s) {t : Thread τ} {m : μ} {call : Bool}
    {phase : PostPhase} (hpc : s.pc t = .posting m call phase) (hphase : phase ≠ .entering) :
    s.step (.advance t) = some (s.reject t m call) := by
  cases phase with
  | entering => exact absurd rfl hphase
  | locked => simp [State.step, hpc, State.postMessage, h.notRunning]
  | sawRunning => simp [State.step, hpc, State.postMessage, h.sealed.refusing]
  | sawAccepting => exact absurd hpc (h.sealed.nobody t m call)

theorem Closed.returns_of_free {s : State τ μ} (h : Closed s) (hfree : s.mutex = none)
    {t : Thread τ} {m : μ} (hpc : s.pc t = .posting m true .entering) :
    ∃ s', (machine τ μ).run s [.advance t, .advance t] = some s' ∧ s'.pc t = .idle ∧
      s'.returned = s.returned ++ [(m, false)] := by
  have hlock : s.step (.advance t) =
      some ({ s with mutex := some t }.goto t (.posting m true .locked)) := by
    simp [State.step, hpc, State.postMessage, hfree]
  have hclosed := (h.step (by simp) (by simp) hlock).1
  have hreject := hclosed.rejects (goto_pc_self _ t _) (by simp)
  refine ⟨_, (machine τ μ).run_cons_eq_some_iff.mpr ⟨_, hlock,
    (machine τ μ).run_cons_eq_some_iff.mpr ⟨_, hreject, rfl⟩⟩, ?_, rfl⟩
  exact goto_pc_self _ t _

omit [DecidableEq τ] in
theorem Closed.owner {s : State τ μ} (h : Closed s) {v : Thread τ} (hv : s.mutex = some v) :
    ∃ m call phase, s.pc v = .posting m call phase ∧ phase ≠ .entering := by
  have hholds := (h.held v hv).resolve_right (by simp [h.left])
  have hrest := h.rest v
  cases hpc : s.pc v with
  | posting m call phase =>
      refine ⟨m, call, phase, rfl, ?_⟩
      rintro rfl
      simp [hpc, Pc.holds] at hholds
  | idle | awaiting => simp [hpc, Pc.holds] at hholds
  | stopping | clearing => simp [hpc, Pc.bystands] at hrest

/-- A call that is being posted to a closed queue can return, and returns false:
it needs its own steps and one of the owner of the mutex. -/
theorem Closed.returns {s : State τ μ} (h : Closed s) {t : Thread τ} {m : μ}
    {phase : PostPhase} (hpc : s.pc t = .posting m true phase) :
    ∃ (us : List (Thread τ)) (s' : State τ μ) (l : List (μ × Bool)),
      (machine τ μ).run s (us.map .advance) = some s' ∧ s'.pc t = .idle ∧
      s'.returned = s.returned ++ l ++ [(m, false)] := by
  by_cases hphase : phase = .entering
  · subst hphase
    cases hmutex : s.mutex with
    | none =>
        obtain ⟨s', hrun, hidle, hreturned⟩ := h.returns_of_free hmutex hpc
        exact ⟨[t, t], s', [], hrun, hidle, by simp [hreturned]⟩
    | some v =>
        obtain ⟨m', call, phase', hpc', hphase'⟩ := h.owner hmutex
        have htv : t ≠ v := by
          rintro rfl
          rw [hpc] at hpc'
          cases hpc'
          exact hphase' rfl
        have hreject := h.rejects hpc' hphase'
        have hclosed := (h.step (by simp) (by simp) hreject).1
        have hpct : (s.reject v m' call).pc t = .posting m true .entering :=
          (goto_pc_ne _ htv).trans hpc
        obtain ⟨s', hrun, hidle, hreturned⟩ := hclosed.returns_of_free rfl hpct
        refine ⟨[v, t, t], s', if call then [(m', false)] else [],
          (machine τ μ).run_cons_eq_some_iff.mpr ⟨_, hreject, hrun⟩, hidle, ?_⟩
        rw [hreturned]
        cases call <;> simp [State.reject, State.goto]
  · have hreject := h.rejects hpc hphase
    refine ⟨[t], _, [], (machine τ μ).run_cons_eq_some_iff.mpr ⟨_, hreject, rfl⟩,
      goto_pc_self _ t _, ?_⟩
    simp [State.reject, State.goto]

end RialtoGStreamer.MessageQueue
