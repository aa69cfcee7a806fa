import Mathlib.Tactic.Common
import RialtoGStreamer.MessageQueue.Model

/-!
# What one step of the message queue can do

The inversion of the step function. A step is a move of a thread inside
`postMessage`, a move of the worker's loop, or a move of a thread inside
`doStop` or `doClear`. The invariants of the queue are derived from the moves
and never unfold the functions of the source.
-/

namespace RialtoGStreamer.MessageQueue

variable {τ μ : Type*} [DecidableEq τ]

/-- The worker enters queue operations only from within a posted message. -/
def MayCall (s : State τ μ) (t : Thread τ) : Prop :=
  t = .worker → ∃ k m, s.worker = .handling (.posted k m)

omit [DecidableEq τ] in
theorem mayCall_of_eq_true {s : State τ μ} {t : Thread τ} (h : s.mayCall t = true) :
    MayCall s t := by
  rintro rfl
  simp only [State.mayCall] at h
  split at h
  · next hw => exact ⟨_, _, hw⟩
  · cases h

/-- Moves of a thread that posts or calls. -/
inductive PostMove (s : State τ μ) (t : Thread τ) : State τ μ → Prop
  | inPlace (m : μ) :
      PostMove s t { s with inPlace := s.inPlace ++ [m], returned := s.returned ++ [(m, true)] }
  | enter (m : μ) (call : Bool) (hp : s.pc t = .idle) (hmay : MayCall s t) :
      PostMove s t (s.goto t (.posting m call .entering))
  | lock {m : μ} {call : Bool} (hp : s.pc t = .posting m call .entering)
      (hfree : s.mutex = none) :
      PostMove s t ({ s with mutex := some t }.goto t (.posting m call .locked))
  | sawRunning {m : μ} {call : Bool} (hp : s.pc t = .posting m call .locked)
      (hr : s.running = true) : PostMove s t (s.goto t (.posting m call .sawRunning))
  | sawAccepting {m : μ} {call : Bool} (hp : s.pc t = .posting m call .sawRunning)
      (ha : s.acceptingMessages = true) :
      PostMove s t (s.goto t (.posting m call .sawAccepting))
  | reject {m : μ} {call : Bool} {phase : PostPhase} (hp : s.pc t = .posting m call phase)
      (hphase : (phase = .locked ∧ s.running = false) ∨
        (phase = .sawRunning ∧ s.acceptingMessages = false)) :
      PostMove s t (s.reject t m call)
  | accept {m : μ} {call : Bool} (hp : s.pc t = .posting m call .sawAccepting) :
      PostMove s t ({ s with
        queue := s.queue ++ [Message.posted s.accepted.length m]
        accepted := s.accepted ++ [(s.accepted.length, m)]
        mutex := none }.goto t (if call then .awaiting s.accepted.length m else .idle))
  | resume {k : ℕ} {m : μ} (hp : s.pc t = .awaiting k m) (hk : k ∈ s.done) :
      PostMove s t ({ s with returned := s.returned ++ [(m, true)] }.goto t .idle)

/-- Moves of the worker's loop. -/
inductive WorkMove (s : State τ μ) : State τ μ → Prop
  | lock (hw : s.worker = .waiting) (hfree : s.mutex = none) :
      WorkMove s { s with mutex := some .worker, worker := .locked }
  | wait (hw : s.worker = .locked) (hq : s.queue = []) :
      WorkMove s { s with mutex := none, worker := .waiting }
  | pop {k : ℕ} {m : μ} {rest : List (Message μ)} (hw : s.worker = .locked)
      (hq : s.queue = .posted k m :: rest) :
      WorkMove s { s with queue := rest, mutex := none, worker := .popped (.posted k m) }
  | popHalt {k : ℕ} {rest : List (Message μ)} (hw : s.worker = .locked)
      (hq : s.queue = .halt k :: rest) :
      WorkMove s { s with queue := rest, mutex := none, worker := .popped (.halt k) }
  | handle {k : ℕ} {m : μ} (hw : s.worker = .popped (.posted k m)) :
      WorkMove s
        { s with handled := s.handled ++ [(k, m)], worker := .handling (.posted k m) }
  | handleHalt {k : ℕ} (hw : s.worker = .popped (.halt k)) :
      WorkMove s { s with worker := .handling (.halt k) }
  | finish {k : ℕ} {m : μ} (hw : s.worker = .handling (.posted k m))
      (hp : s.pc .worker = .idle) :
      WorkMove s { s with done := s.done ++ [k], worker := .testing }
  | runHalt {k : ℕ} (hw : s.worker = .handling (.halt k)) :
      WorkMove s { s with running := false, worker := .halted k }
  | signalHalt {k : ℕ} (hw : s.worker = .halted k) :
      WorkMove s { s with haltDone := s.haltDone ++ [k], worker := .testing }
  | again (hw : s.worker = .testing) (hr : s.running = true) :
      WorkMove s { s with worker := .waiting }
  | leave (hw : s.worker = .testing) (hr : s.running = false) :
      WorkMove s { s with worker := .left }

/-- Moves of a thread inside `doStop`, before its `doClear`. -/
inductive StopMove (s : State τ μ) (t : Thread τ) : StopPhase → State τ μ → Prop
  | notRunning (hr : s.running = false) :
      StopMove s t .testRunning ({ s with stopped := s.stopped ++ [t] }.goto t .idle)
  | testRunning (hr : s.running = true) :
      StopMove s t .testRunning (s.goto t (.stopping .compareThread))
  | ownThread (hw : t = .worker) (hthread : s.workerThread = true) :
      StopMove s t .compareThread (s.goto t (.stopping .refuse))
  | otherThread (hw : t = .worker → s.workerThread = false) :
      StopMove s t .compareThread (s.goto t (.stopping .lock))
  | refuse : StopMove s t .refuse ({ s with acceptingMessages := false }.goto t (.stopping .halt))
  | halt : StopMove s t .halt ({ s with running := false }.goto t (.stopping .detach))
  | detach : StopMove s t .detach ({ s with workerThread := false }.goto t (.clearing true false))
  | lock (hfree : s.mutex = none) :
      StopMove s t .lock ({ s with mutex := some t }.goto t (.stopping .refuseLocked))
  | refuseLocked :
      StopMove s t .refuseLocked ({ s with acceptingMessages := false }.goto t (.stopping .push))
  | push :
      StopMove s t .push ({ s with
        queue := s.queue ++ [Message.halt s.halts]
        halts := s.halts + 1
        mutex := none }.goto t (.stopping (.await s.halts)))
  | await {k : ℕ} (hd : k ∈ s.haltDone) :
      StopMove s t (.await k) (s.goto t (.stopping .join))
  | notJoinable (hthread : s.workerThread = false) :
      StopMove s t .join (s.goto t (.clearing true false))
  | join (hw : s.worker = .left) :
      StopMove s t .join ({ s with workerThread := false }.goto t (.clearing true false))

/-- Moves of a thread inside `doClear`. -/
inductive ClearMove (s : State τ μ) (t : Thread τ) (stop : Bool) : Bool → State τ μ → Prop
  | lock (hfree : s.mutex = none) :
      ClearMove s t stop false ({ s with mutex := some t }.goto t (.clearing stop true))
  | skip {k : ℕ} {m : μ} {rest : List (Message μ)} (hq : s.queue = .posted k m :: rest) :
      ClearMove s t stop true
        { s with queue := rest, skipped := s.skipped ++ [(k, m)], done := s.done ++ [k] }
  | skipHalt {k : ℕ} {rest : List (Message μ)} (hq : s.queue = .halt k :: rest) :
      ClearMove s t stop true { s with queue := rest, haltDone := s.haltDone ++ [k] }
  | done (hq : s.queue = []) :
      ClearMove s t stop true ({ s with
        mutex := none
        stopped := if stop then s.stopped ++ [t] else s.stopped }.goto t .idle)

inductive Move (s : State τ μ) (e : Event τ μ) : State τ μ → Prop
  | post {t : Thread τ} {s' : State τ μ} (h : PostMove s t s') : Move s e s'
  | work {s' : State τ μ} (h : WorkMove s s') : Move s e s'
  | beginStop {t : Thread τ} (he : e = .begin t .stop) (hp : s.pc t = .idle)
      (hmay : MayCall s t) :
      Move s e ({ s with stops := s.stops ++ [t] }.goto t (.stopping .testRunning))
  | beginClear {t : Thread τ} (he : e = .begin t .clear) (hp : s.pc t = .idle)
      (hmay : MayCall s t) : Move s e (s.goto t (.clearing false false))
  | stop {t : Thread τ} {phase : StopPhase} {s' : State τ μ} (hp : s.pc t = .stopping phase)
      (h : StopMove s t phase s') : Move s e s'
  | clear {t : Thread τ} {stop locked : Bool} {s' : State τ μ}
      (hp : s.pc t = .clearing stop locked) (h : ClearMove s t stop locked s') : Move s e s'

theorem enter_move {s : State τ μ} {t : Thread τ} (op : Operation μ) (hp : s.pc t = .idle)
    (hmay : MayCall s t) : Move s (.begin t op) (s.enter t op) := by
  cases op with
  | postMessage m => exact .post (.enter m false hp hmay)
  | scheduleInEventLoop m => exact .post (.enter m false hp hmay)
  | callInEventLoop m =>
      simp only [State.enter]
      split
      · exact .post (t := t) (.inPlace m)
      · exact .post (.enter m true hp hmay)
  | stop => exact .beginStop rfl hp hmay
  | clear => exact .beginClear rfl hp hmay

theorem postMessage_move {s s' : State τ μ} {t : Thread τ} {m : μ} {call : Bool}
    {phase : PostPhase} (hp : s.pc t = .posting m call phase)
    (h : s.postMessage t m call phase = some s') : PostMove s t s' := by
  cases phase with
  | entering =>
      simp only [State.postMessage] at h
      split at h
      · next hfree =>
          cases h
          exact .lock hp hfree
      · cases h
  | locked =>
      simp only [State.postMessage] at h
      split at h
      · next hr =>
          cases h
          exact .sawRunning hp hr
      · next hr =>
          cases h
          exact .reject hp (.inl ⟨rfl, by simpa using hr⟩)
  | sawRunning =>
      simp only [State.postMessage] at h
      split at h
      · next ha =>
          cases h
          exact .sawAccepting hp ha
      · next ha =>
          cases h
          exact .reject hp (.inr ⟨rfl, by simpa using ha⟩)
  | sawAccepting =>
      cases h
      exact .accept hp

theorem doStop_move {s s' : State τ μ} {t : Thread τ} {phase : StopPhase}
    (h : s.doStop t phase = some s') : StopMove s t phase s' := by
  cases phase with
  | testRunning =>
      simp only [State.doStop] at h
      split at h
      · next hr =>
          cases h
          exact .testRunning hr
      · next hr =>
          cases h
          exact .notRunning (by simpa using hr)
  | compareThread =>
      simp only [State.doStop] at h
      split at h
      · next hw =>
          cases h
          exact .ownThread hw.1 hw.2
      · next hw =>
          cases h
          exact .otherThread fun ht ↦ by simpa [ht] using hw
  | refuse =>
      cases h
      exact .refuse
  | halt =>
      cases h
      exact .halt
  | detach =>
      cases h
      exact .detach
  | lock =>
      simp only [State.doStop] at h
      split at h
      · next hfree =>
          cases h
          exact .lock hfree
      · cases h
  | refuseLocked =>
      cases h
      exact .refuseLocked
  | push =>
      cases h
      exact .push
  | await k =>
      simp only [State.doStop] at h
      split at h
      · next hd =>
          cases h
          exact .await hd
      · cases h
  | join =>
      simp only [State.doStop] at h
      split at h
      · next hthread =>
          cases h
          exact .notJoinable hthread
      · split at h
        · next hw =>
            cases h
            exact .join hw
        · cases h

theorem doClear_move {s s' : State τ μ} {t : Thread τ} {stop locked : Bool}
    (h : s.doClear t stop locked = some s') : ClearMove s t stop locked s' := by
  cases locked with
  | false =>
      simp only [State.doClear] at h
      split at h
      · next hfree =>
          cases h
          exact .lock hfree
      · cases h
  | true =>
      simp only [State.doClear] at h
      split at h
      · next m rest hq =>
          cases h
          cases m with
          | posted k m => exact .skip hq
          | halt k => exact .skipHalt hq
      · next hq =>
          cases h
          exact .done hq

omit [DecidableEq τ] in
theorem processMessages_move {s s' : State τ μ} (h : s.processMessages = some s') :
    WorkMove s s' := by
  simp only [State.processMessages] at h
  split at h
  · next hw =>
      split at h
      · next hfree =>
          cases h
          exact .lock hw hfree
      · cases h
  · next hw =>
      split at h
      · next hq =>
          cases h
          exact .wait hw hq
      · next m rest hq =>
          cases h
          cases m with
          | posted k m => exact .pop hw hq
          | halt k => exact .popHalt hw hq
  · next hw =>
      cases h
      exact .handle hw
  · next hw =>
      cases h
      exact .handleHalt hw
  · next hw =>
      split at h
      · next hp =>
          cases h
          exact .finish hw hp
      · cases h
  · next hw =>
      cases h
      exact .runHalt hw
  · next hw =>
      cases h
      exact .signalHalt hw
  · next hw =>
      cases h
      cases hr : s.running with
      | true => simpa [hr] using WorkMove.again hw hr
      | false => simpa [hr] using WorkMove.leave hw hr
  · cases h

theorem step_move {s s' : State τ μ} {e : Event τ μ} (h : s.step e = some s') :
    Move s e s' := by
  cases e with
  | begin t op =>
      simp only [State.step] at h
      split at h
      · next hidle =>
          split at h
          · next hmay =>
              cases h
              exact enter_move op hidle (mayCall_of_eq_true hmay)
          · cases h
      · cases h
  | advance t =>
      simp only [State.step] at h
      split at h
      · cases h
      · next hp => exact .post (postMessage_move hp h)
      · next hp =>
          split at h
          · next hk =>
              cases h
              exact .post (.resume hp hk)
          · cases h
      · next hp => exact .stop hp (doStop_move h)
      · next hp => exact .clear hp (doClear_move h)
  | work => exact .work (processMessages_move h)

end RialtoGStreamer.MessageQueue
