import RialtoGStreamer.Timer.Model

/-!
# Cancelling a timer

The callback runs once for each timeout, no callback begins behind a `cancel`
that returned, and a `cancel` does return, whether its notification reaches the
thread or not.
-/

namespace RialtoGStreamer.Timer

open Library

/-! ## Moves -/

/-- A step of the thread or of its callback. -/
inductive ThreadMove (s : State) : Event → State → Prop
  | test (hpc : s.thread = .testing) :
      ThreadMove s .test { s with thread := if s.active then .entering else .decided false }
  | block (hpc : s.thread = .entering) : ThreadMove s .block { s with thread := .blocked }
  | wake (hpc : s.thread = .blocked) : ThreadMove s .wake { s with thread := .testing }
  | expire (hpc : s.thread = .blocked) :
      ThreadMove s .expire { s with thread := .expired, expiries := s.expiries + 1 }
  | confirm (hpc : s.thread = .expired) :
      ThreadMove s .confirm
        { s with thread := if s.active then .confirming else .decided false }
  | decide (hpc : s.thread = .confirming) :
      ThreadMove s .decide { s with thread := .decided (s.active && s.callable) }
  | call (hpc : s.thread = .decided true) :
      ThreadMove s .unlock { s with thread := .calling, begun := s.begun + 1 }
  | skip (hpc : s.thread = .decided false) : ThreadMove s .unlock { s with thread := .looping }
  | returnCallback (hpc : s.thread = .calling) :
      ThreadMove s .returnCallback { s with thread := .looping }
  | selfCancel (hpc : s.thread = .calling) : ThreadMove s .selfCancel { s with active := false }
  | loop (hpc : s.thread = .looping) :
      ThreadMove s .loop { s with
        thread := if s.timerType = .periodic ∧ s.active = true then .testing else .ending }
  | finish (hpc : s.thread = .ending) :
      ThreadMove s .finish { s with thread := .exited, active := false }

inductive StepMove (s : State) : Event → State → Prop
  | thread {e : Event} {t : State} (hmove : ThreadMove s e t) : StepMove s e t
  | cancel (hpc : s.owner = .free) :
      StepMove s .cancel { s with active := false, owner := .stored }
  | cancelAgain (hpc : s.owner = .joined) : StepMove s .cancel { s with active := false }
  | notify (hpc : s.owner = .stored) :
      StepMove s .notify { s with
        owner := .joining, thread := if s.thread = .blocked then .testing else s.thread }
  | join (hpc : s.owner = .joining) (hexited : s.thread = .exited) :
      StepMove s .join { s with owner := .joined }

theorem advance_move {s t : State} {e : Event} (h : s.advance s.thread e = some t) :
    ThreadMove s e t := by
  unfold State.advance at h
  split at h
  · next hpc =>
      cases h
      exact .test hpc
  · next hpc =>
      cases h
      exact .block hpc
  · next hpc =>
      cases h
      exact .wake hpc
  · next hpc =>
      cases h
      exact .expire hpc
  · next hpc =>
      cases h
      exact .confirm hpc
  · next hpc =>
      cases h
      exact .decide hpc
  · next hpc =>
      cases h
      exact .call hpc
  · next hpc =>
      cases h
      exact .skip hpc
  · next hpc =>
      cases h
      exact .returnCallback hpc
  · next hpc =>
      cases h
      exact .selfCancel hpc
  · next hpc =>
      cases h
      exact .loop hpc
  · next hpc =>
      cases h
      exact .finish hpc
  · cases h

theorem own_move {s t : State} {e : Event} (h : s.own s.owner e = some t) : StepMove s e t := by
  unfold State.own at h
  split at h
  · next hpc =>
      cases h
      exact .cancel hpc
  · next hpc =>
      cases h
      exact .cancelAgain hpc
  · next hpc =>
      cases h
      exact .notify hpc
  · next hpc =>
      split at h
      · next hexited =>
          cases h
          exact .join hpc hexited
      · cases h
  · cases h

theorem step_move {s t : State} {e : Event} (h : s.step e = some t) : StepMove s e t := by
  cases e with
  | cancel | notify | join => exact own_move h
  | test | block | wake | expire | confirm | decide | unlock | returnCallback | selfCancel | loop
  | finish => exact .thread (advance_move h)

/-! ## Timeouts and callbacks -/

namespace ThreadPc

/-- A timeout that may still lead to a callback. -/
def pending : ThreadPc → ℕ
  | .expired | .confirming | .decided true => 1
  | .testing | .entering | .blocked | .decided false | .calling | .looping | .ending | .exited => 0

/-- The thread has to wait before it can call back. -/
def toWait : ThreadPc → ℕ
  | .testing | .entering | .blocked => 1
  | .expired | .confirming | .decided _ | .calling | .looping | .ending | .exited => 0

end ThreadPc

/-- A callback needs a timeout of its own, and an active timer misses none; a timer
that is not periodic waits once. -/
structure Timed (s : State) : Prop where
  begun_le : s.begun + s.thread.pending ≤ s.expiries
  begun_eq : s.active = true → s.callable = true → s.begun + s.thread.pending = s.expiries
  oneShot : s.timerType = .oneShot → s.expiries + s.thread.toWait ≤ 1

/-- A step that neither times out nor calls back. -/
theorem Timed.move {s : State} (hs : Timed s) (active : Bool) {thread : ThreadPc}
    {owner : OwnerPc} (hactive : active = true → s.active = true)
    (hle : thread.pending ≤ s.thread.pending)
    (heq : active = true → s.callable = true → thread.pending = s.thread.pending)
    (hwait : s.timerType = .oneShot → thread.toWait ≤ s.thread.toWait) :
    Timed { s with active := active, thread := thread, owner := owner } := by
  refine ⟨?_, ?_, ?_⟩
  · exact Nat.le_trans (Nat.add_le_add_left hle _) hs.begun_le
  · intro h hcallable
    have hbegun := hs.begun_eq (hactive h) hcallable
    rw [← heq h hcallable] at hbegun
    exact hbegun
  · intro hone
    exact Nat.le_trans (Nat.add_le_add_left (hwait hone) _) (hs.oneShot hone)

theorem timed_of_thread {s t : State} {e : Event} (hs : Timed s) (hmove : ThreadMove s e t) :
    Timed t := by
  cases hmove with
  | test hpc | confirm hpc =>
      apply hs.move s.active id
      all_goals
        rw [hpc]
        cases s.active <;> simp [ThreadPc.pending, ThreadPc.toWait]
  | decide hpc =>
      apply hs.move s.active id
      all_goals
        rw [hpc]
        cases s.active <;> cases s.callable <;> simp [ThreadPc.pending, ThreadPc.toWait]
  | block hpc | wake hpc | skip hpc | returnCallback hpc =>
      apply hs.move s.active id
      all_goals
        rw [hpc]
        simp [ThreadPc.pending, ThreadPc.toWait]
  | loop hpc =>
      apply hs.move s.active id
      all_goals
        rw [hpc]
        split <;> simp_all [ThreadPc.pending, ThreadPc.toWait]
  | selfCancel hpc =>
      apply hs.move false (by simp) (Nat.le_refl _) (by simp) fun _ ↦ Nat.le_refl _
  | finish hpc =>
      apply hs.move false (by simp)
      all_goals
        rw [hpc]
        simp [ThreadPc.pending, ThreadPc.toWait]
  | expire hpc =>
      obtain ⟨hle, heq, hone⟩ := hs
      rw [hpc] at hle heq hone
      exact ⟨Nat.succ_le_succ hle, fun h h' ↦ congrArg Nat.succ (heq h h'), hone⟩
  | call hpc =>
      obtain ⟨hle, heq, hone⟩ := hs
      rw [hpc] at hle heq hone
      exact ⟨hle, heq, hone⟩

theorem timed_step {s t : State} {e : Event} (hs : Timed s) (hstep : s.step e = some t) :
    Timed t := by
  cases step_move hstep with
  | thread hmove => exact timed_of_thread hs hmove
  | cancel hpc | cancelAgain hpc =>
      exact hs.move false (by simp) (Nat.le_refl _) (by simp) fun _ ↦ Nat.le_refl _
  | notify hpc =>
      apply hs.move s.active id
      all_goals
        split <;> simp_all [ThreadPc.pending, ThreadPc.toWait]
  | join hpc hexited =>
      exact hs.move s.active id (Nat.le_refl _) (fun _ _ ↦ rfl) fun _ ↦ Nat.le_refl _

/-! ## Behind the end of the flag -/

/-- The owner clears the flag before it waits for the thread, which clears it too,
and has waited for the thread when it returns. -/
structure Stopping (s : State) : Prop where
  cleared : s.owner ≠ .free → s.active = false
  exited : s.thread = .exited → s.active = false
  joined : s.owner = .joined → s.thread = .exited

/-- Nobody sets the flag again. -/
theorem active_step {s t : State} {e : Event} (hactive : s.active = false)
    (hstep : s.step e = some t) : t.active = false := by
  cases step_move hstep with
  | thread hmove =>
      cases hmove with
      | selfCancel | finish => rfl
      | test | block | wake | expire | confirm | decide | call | skip | returnCallback | loop =>
          exact hactive
  | cancel | cancelAgain => rfl
  | notify | join => exact hactive

theorem stopping_step {s t : State} {e : Event} (hs : Stopping s) (hstep : s.step e = some t) :
    Stopping t := by
  have hkeeps : s.owner ≠ .free → t.active = false := fun h ↦ active_step (hs.cleared h) hstep
  cases step_move hstep with
  | thread hmove =>
      have hjoined : s.thread ≠ .exited → s.owner = .joined → t.thread = .exited :=
        fun hrunning howner ↦ absurd (hs.joined howner) hrunning
      cases hmove with
      | test hpc | confirm hpc | loop hpc =>
          refine ⟨hkeeps, ?_, hjoined (by simp [hpc])⟩
          dsimp only
          split <;> rintro ⟨⟩
      | block hpc | wake hpc | expire hpc | decide hpc | call hpc | skip hpc
      | returnCallback hpc => exact ⟨hkeeps, by rintro ⟨⟩, hjoined (by simp [hpc])⟩
      | selfCancel hpc | finish hpc => exact ⟨fun _ ↦ rfl, fun _ ↦ rfl, hjoined (by simp [hpc])⟩
  | cancel hpc => exact ⟨fun _ ↦ rfl, fun _ ↦ rfl, by rintro ⟨⟩⟩
  | cancelAgain hpc => exact ⟨fun _ ↦ rfl, fun _ ↦ rfl, hs.joined⟩
  | notify hpc =>
      have hclear := hs.cleared (by simp [hpc])
      exact ⟨fun _ ↦ hclear, fun _ ↦ hclear, by rintro ⟨⟩⟩
  | join hpc hexited => exact ⟨fun _ ↦ hkeeps (by simp [hpc]), hs.exited, fun _ ↦ hexited⟩

namespace ThreadPc

/-- A callback that was decided upon and has not begun. -/
def decision (thread : ThreadPc) : ℕ :=
  if thread = .decided true then 1 else 0

/-- The most steps to the end of the thread once the flag is cleared. -/
def remaining : ThreadPc → ℕ
  | .entering => 6
  | .blocked => 5
  | .testing | .expired | .confirming | .decided true => 4
  | .decided false | .calling => 3
  | .looping => 2
  | .ending => 1
  | .exited => 0

theorem remaining_le (thread : ThreadPc) : thread.remaining ≤ 6 := by
  cases thread with
  | decided shouldCallback => cases shouldCallback <;> decide
  | testing | entering | blocked | expired | confirming | calling | looping | ending | exited =>
      decide

end ThreadPc

/-- With the flag cleared the thread heads for its end. -/
theorem remaining_step {s t : State} {e : Event} (hactive : s.active = false)
    (hstep : s.step e = some t) :
    (if e.isThread then 1 else 0) + t.thread.remaining ≤ s.thread.remaining := by
  cases step_move hstep with
  | thread hmove =>
      cases hmove with
      | test hpc | confirm hpc | decide hpc | loop hpc =>
          rw [hpc]
          simp [hactive, Event.isThread, ThreadPc.remaining]
      | block hpc | wake hpc | expire hpc | call hpc | skip hpc | returnCallback hpc
      | finish hpc =>
          rw [hpc]
          simp [Event.isThread, ThreadPc.remaining]
      | selfCancel hpc => exact Nat.le_of_eq (Nat.zero_add _)
  | cancel | cancelAgain | join => exact Nat.le_of_eq (Nat.zero_add _)
  | notify hpc =>
      by_cases hblocked : s.thread = .blocked
      · simp [hblocked, Event.isThread, ThreadPc.remaining]
      · simp [hblocked, Event.isThread]

/-- With the flag cleared no callback is decided upon. -/
theorem decision_step {s t : State} {e : Event} (hactive : s.active = false)
    (hstep : s.step e = some t) :
    t.begun + t.thread.decision ≤ s.begun + s.thread.decision := by
  cases step_move hstep with
  | thread hmove =>
      cases hmove with
      | test hpc | confirm hpc | decide hpc | loop hpc =>
          rw [hpc]
          simp [hactive, ThreadPc.decision]
      | block hpc | wake hpc | expire hpc | call hpc | skip hpc | returnCallback hpc
      | finish hpc =>
          rw [hpc]
          simp [ThreadPc.decision]
      | selfCancel hpc => exact Nat.le_refl _
  | cancel | cancelAgain | join => exact Nat.le_refl _
  | notify hpc =>
      dsimp only
      split
      · next hblocked =>
          rw [hblocked]
          simp [ThreadPc.decision]
      · exact Nat.le_refl _

theorem begun_step {s t : State} {e : Event} (hexited : s.thread = .exited)
    (hstep : s.step e = some t) : t.thread = .exited ∧ t.begun = s.begun := by
  cases step_move hstep with
  | thread hmove => cases hmove <;> simp_all
  | cancel | cancelAgain | join => exact ⟨hexited, rfl⟩
  | notify hpc => exact ⟨by simp [hexited], rfl⟩

/-- The thread is never stuck: a wait ends at its timeout at the latest. -/
theorem thread_enabled {s : State} (hrunning : s.thread ≠ .exited) :
    ∃ e, e.isThread = true ∧ (s.step e).isSome = true := by
  cases hpc : s.thread with
  | testing => exact ⟨.test, rfl, by simp [State.step, hpc, State.advance]⟩
  | entering => exact ⟨.block, rfl, by simp [State.step, hpc, State.advance]⟩
  | blocked => exact ⟨.expire, rfl, by simp [State.step, hpc, State.advance]⟩
  | expired => exact ⟨.confirm, rfl, by simp [State.step, hpc, State.advance]⟩
  | confirming => exact ⟨.decide, rfl, by simp [State.step, hpc, State.advance]⟩
  | decided shouldCallback =>
      refine ⟨.unlock, rfl, ?_⟩
      cases shouldCallback <;> simp [State.step, hpc, State.advance]
  | calling => exact ⟨.returnCallback, rfl, by simp [State.step, hpc, State.advance]⟩
  | looping => exact ⟨.loop, rfl, by simp [State.step, hpc, State.advance]⟩
  | ending => exact ⟨.finish, rfl, by simp [State.step, hpc, State.advance]⟩
  | exited => exact absurd hpc hrunning

/-! ## Runs -/

/-- What the callers of a timer rely on: a callback for each timeout, at most one
of a timer that is not periodic, none but a callback already decided upon once
the flag is cleared, and none behind a `cancel` that returned; and a `cancel`
returns, after at most six steps of the thread. -/
structure Reliable (s : State) : Prop where
  begun_le : s.begun ≤ s.expiries
  begun_eq : s.active = true → s.callable = true → s.begun + s.thread.pending = s.expiries
  oneShot : s.timerType = .oneShot → s.begun ≤ 1
  stops : s.active = false → ∀ es t, machine.run s es = some t →
    t.begun ≤ s.begun + s.thread.decision
  quiet : s.owner = .joined → ∀ es t, machine.run s es = some t → t.begun = s.begun
  returns : s.owner ≠ .free → ∀ es t, machine.run s es = some t →
    es.countP Event.isThread ≤ 6 ∧
      (t.thread ≠ .exited → ∃ e, e.isThread = true ∧ (t.step e).isSome = true) ∧
        (t.thread = .exited → t.owner = .joining → (t.step .join).isSome = true)

theorem timed_start (timerType : TimerType) (callable : Bool) : Timed { timerType, callable } :=
  ⟨Nat.le_refl 0, fun _ _ ↦ rfl, fun _ ↦ Nat.le_refl 1⟩

theorem stopping_start (timerType : TimerType) (callable : Bool) :
    Stopping { timerType, callable } :=
  ⟨fun h ↦ absurd rfl h, by rintro ⟨⟩, by rintro ⟨⟩⟩

theorem reliable {s : State} (htimed : Timed s) (hstopping : Stopping s) : Reliable s := by
  have hinactive : ∀ s e t, s.active = false → machine.step s e = some t → t.active = false :=
    fun s e t ↦ active_step
  refine ⟨Nat.le_of_add_right_le htimed.begun_le, htimed.begun_eq, ?_, ?_, ?_, ?_⟩
  · intro hone
    have hbegun := htimed.begun_le
    have hexpiries := htimed.oneShot hone
    omega
  · intro hactive es t hrun
    have hbound := (machine.invariant (I := fun t ↦ t.active = false ∧
      t.begun + t.thread.decision ≤ s.begun + s.thread.decision) ?_ ⟨hactive, Nat.le_refl _⟩ hrun).2
    · exact Nat.le_of_add_right_le hbound
    · rintro u e v ⟨hu, hle⟩ hstep
      exact ⟨active_step hu hstep, Nat.le_trans (decision_step hu hstep) hle⟩
  · intro howner es t hrun
    have hexited := hstopping.joined howner
    refine (machine.invariant (I := fun t ↦ t.thread = .exited ∧ t.begun = s.begun) ?_
      ⟨hexited, rfl⟩ hrun).2
    rintro u e v ⟨hu, hbegun⟩ hstep
    obtain ⟨hv, hsame⟩ := begun_step hu hstep
    exact ⟨hv, hsame.trans hbegun⟩
  · intro howner es t hrun
    have hactive := hstopping.cleared howner
    have hcount := machine.countP_le_of_measure (μ := fun s ↦ s.thread.remaining)
      (p := Event.isThread) hinactive (fun _ _ _ ↦ remaining_step) hactive hrun
    refine ⟨?_, thread_enabled, ?_⟩
    · exact Nat.le_trans (Nat.le_of_add_right_le hcount) s.thread.remaining_le
    · intro hexited hjoining
      simp [State.step, hjoining, State.own, hexited]

/-- The notification comes before the wait and is lost; the thread exits at its
timeout, and does not call back. -/
example : (machine.run { timerType := .periodic, callable := true }
      [.test, .cancel, .notify, .block, .expire, .confirm, .unlock, .loop, .finish, .join]).map
    (fun s ↦ (s.owner, s.expiries, s.begun)) = some (.joined, 1, 0) := by
  decide

end RialtoGStreamer.Timer
