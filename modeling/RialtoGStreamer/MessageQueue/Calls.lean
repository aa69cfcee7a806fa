import Mathlib.Data.List.Nodup
import RialtoGStreamer.MessageQueue.Closed

/-!
# What a call in the event loop returns

Any number of threads post, call, stop and clear. Each operation gets a number
of its own, so that a call can be told from every other one. A call that returns
false was refused, and its function never runs; a call that returns true ran its
function once, unless `doClear` skipped its message, which sets `m_done` as well.
-/

namespace RialtoGStreamer.MessageQueue

open Library

variable {τ μ : Type*} [DecidableEq τ]

/-! ## Numbered operations -/

def Operation.number (n : ℕ) : Operation μ → Operation (ℕ × μ)
  | .postMessage m => .postMessage (n, m)
  | .scheduleInEventLoop m => .scheduleInEventLoop (n, m)
  | .callInEventLoop m => .callInEventLoop (n, m)
  | .stop => .stop
  | .clear => .clear

def Event.number (n : ℕ) : Event τ μ → Event τ (ℕ × μ)
  | .begin t op => .begin t (op.number n)
  | .advance t => .advance t
  | .work => .work

/-- The queue, and how many steps it has taken. -/
structure Calls (τ μ : Type*) where
  queue : State τ (ℕ × μ)
  count : ℕ

def Calls.started (τ μ : Type*) : Calls τ μ where
  queue := State.started τ (ℕ × μ)
  count := 0

/-- The messages of a step carry its number. -/
def Calls.step (c : Calls τ μ) (e : Event τ μ) : Option (Calls τ μ) :=
  (c.queue.step (e.number c.count)).map fun queue ↦ { queue, count := c.count + 1 }

def numbered (τ μ : Type*) [DecidableEq τ] : Machine (Calls τ μ) (Event τ μ) where
  step := Calls.step

/-- How often the function with the number `n` was run. -/
def State.executed (s : State τ (ℕ × μ)) (n : ℕ) : ℕ :=
  (s.handled.map (·.2.1)).count n + (s.inPlace.map Prod.fst).count n

/-- Every call that has returned tells whether its function was run. -/
def Truthful (s : State τ (ℕ × μ)) : Prop :=
  ∀ n m result, ((n, m), result) ∈ s.returned → s.executed n = if result then 1 else 0

/-- The accepted message that a thread waits for. -/
@[simp] def Pc.awaits : Pc μ → Option (ℕ × μ)
  | .awaiting k m => some (k, m)
  | _ => none

/-- No call comes back from a `wait` that a `skip` has ended. -/
def Unskipped (s : State τ μ) : Event τ μ → Prop
  | .advance t => ∀ x ∈ (s.pc t).awaits, x.1 ∉ s.skipped.map Prod.fst
  | .begin _ _ | .work => True

instance (s : State τ μ) : (e : Event τ μ) → Decidable (Unskipped s e)
  | .advance t =>
      inferInstanceAs (Decidable (∀ x ∈ (s.pc t).awaits, x.1 ∉ s.skipped.map Prod.fst))
  | .begin _ _ | .work => instDecidableTrue

/-! ## The steps of calls -/

/-- The message that a thread is posting. -/
@[simp] def Pc.posts : Pc μ → Option μ
  | .posting m _ _ => some m
  | _ => none

@[simp] def Operation.message : Operation μ → Option μ
  | .postMessage m | .scheduleInEventLoop m | .callInEventLoop m => some m
  | .stop | .clear => none

/-- The moves of `postMessage` and `callInEventLoop`, each with its event. -/
inductive CallMove (s : State τ μ) : Event τ μ → State τ μ → Prop
  | inPlace (t : Thread τ) (m : μ) :
      CallMove s (.begin t (.callInEventLoop m))
        { s with inPlace := s.inPlace ++ [m], returned := s.returned ++ [(m, true)] }
  | enter (t : Thread τ) (op : Operation μ) (m : μ) (call : Bool) (hm : op.message = some m)
      (hp : s.pc t = .idle) : CallMove s (.begin t op) (s.goto t (.posting m call .entering))
  | post (t : Thread τ) (m : μ) (call : Bool) (phase : PostPhase)
      (mutex : Option (Thread τ)) (hp : (s.pc t).posts = some m)
      (hphase : phase = .sawAccepting → s.acceptingMessages = true) :
      CallMove s (.advance t) ({ s with mutex := mutex }.goto t (.posting m call phase))
  | reject (t : Thread τ) (m : μ) (call : Bool) (hp : (s.pc t).posts = some m) :
      CallMove s (.advance t) (s.reject t m call)
  | accept (t : Thread τ) (m : μ) (call : Bool) (hp : s.pc t = .posting m call .sawAccepting) :
      CallMove s (.advance t) ({ s with
        queue := s.queue ++ [Message.posted s.accepted.length m]
        accepted := s.accepted ++ [(s.accepted.length, m)]
        mutex := none }.goto t (if call then .awaiting s.accepted.length m else .idle))
  | resume (t : Thread τ) (k : ℕ) (m : μ) (hp : s.pc t = .awaiting k m) (hk : k ∈ s.done) :
      CallMove s (.advance t) ({ s with returned := s.returned ++ [(m, true)] }.goto t .idle)

/-- A step of a call, of the worker, or of a stop or a clear; in the last two the
thread neither posts nor waits for a message. -/
inductive Deed (s : State τ μ) (e : Event τ μ) (s' : State τ μ) : Prop
  | call (h : CallMove s e s')
  | work (he : e = .work) (h : WorkMove s s')
  | beginStop (t : Thread τ) (he : e = .begin t .stop) (hp : s.pc t = .idle)
      (hs : s' = { s with stops := s.stops ++ [t] }.goto t (.stopping .testRunning))
  | beginClear (t : Thread τ) (he : e = .begin t .clear) (hp : s.pc t = .idle)
      (hs : s' = s.goto t (.clearing false false))
  | stop (t : Thread τ) (phase : StopPhase) (he : e = .advance t)
      (hp : s.pc t = .stopping phase) (h : StopMove s t phase s')
  | clear (t : Thread τ) (stop locked : Bool) (he : e = .advance t)
      (hp : s.pc t = .clearing stop locked) (h : ClearMove s t stop locked s')

theorem callMove_of_postMessage {s s' : State τ μ} {t : Thread τ} {m : μ} {call : Bool}
    {phase : PostPhase} (hp : s.pc t = .posting m call phase)
    (h : s.postMessage t m call phase = some s') : CallMove s (.advance t) s' := by
  have hposts : (s.pc t).posts = some m := by rw [hp]; rfl
  cases phase with
  | entering =>
      simp only [State.postMessage] at h
      split at h <;> cases h
      exact .post t m call .locked (some t) hposts (by simp)
  | locked =>
      simp only [State.postMessage] at h
      split at h <;> cases h
      · exact .post t m call .sawRunning s.mutex hposts (by simp)
      · exact .reject t m call hposts
  | sawRunning =>
      simp only [State.postMessage] at h
      split at h <;> cases h
      · next haccepting => exact .post t m call .sawAccepting s.mutex hposts fun _ ↦ haccepting
      · exact .reject t m call hposts
  | sawAccepting =>
      cases h
      exact .accept t m call hp

theorem deed_of_step {s s' : State τ μ} {e : Event τ μ} (h : s.step e = some s') :
    Deed s e s' := by
  cases e with
  | begin t op =>
      obtain ⟨hidle, -, rfl⟩ := begin_spec h
      cases op with
      | postMessage m | scheduleInEventLoop m => exact .call (.enter t _ m false rfl hidle)
      | callInEventLoop m =>
          simp only [State.enter]
          split
          · exact .call (.inPlace t m)
          · exact .call (.enter t _ m true rfl hidle)
      | stop => exact .beginStop t rfl hidle rfl
      | clear => exact .beginClear t rfl hidle rfl
  | advance t =>
      simp only [State.step] at h
      split at h
      · cases h
      · next hp => exact .call (callMove_of_postMessage hp h)
      · next hp =>
          split at h <;> cases h
          next hk => exact .call (.resume t _ _ hp hk)
      · next hp => exact .stop t _ rfl hp (doStop_move h)
      · next hp => exact .clear t _ _ rfl hp (doClear_move h)
  | work => exact .work rfl (processMessages_move h)

/-! ## Where an accepted message is -/

/-- An accepted message is in one place, in whatever order the messages are
taken; what is done was handled or skipped, and a call waits for what was accepted. -/
structure Filed (s : State τ μ) : Prop where
  accounted : s.accepted.Perm
    (s.handled ++ s.worker.inHand ++ s.skipped ++ s.queue.filterMap Message.entry)
  numbered : s.accepted.map Prod.fst = List.range s.accepted.length
  handling : ∀ k m, s.worker = .handling (.posted k m) → (k, m) ∈ s.handled
  done : ∀ k ∈ s.done, (∃ m, (k, m) ∈ s.handled) ∨ k ∈ s.skipped.map Prod.fst
  awaiting : ∀ t x, (s.pc t).awaits = some x → x ∈ s.accepted

/-- What a step of one thread does to `P` of the places of all. -/
theorem forall_goto {P : Thread τ → Pc μ → Prop} {s u : State τ μ} {t : Thread τ} {p : Pc μ}
    (hpc : u.pc = s.pc) (h : ∀ v, P v (s.pc v)) (hp : P t p) (v : Thread τ) :
    P v ((u.goto t p).pc v) := by
  by_cases hv : v = t
  · subst hv
    rwa [goto_pc_self]
  · rw [goto_pc_ne p hv, hpc]
    exact h v

omit [DecidableEq τ] in
/-- A step that neither takes nor finishes a message. -/
theorem Filed.congr {s s' : State τ μ} (h : Filed s) (haccepted : s'.accepted = s.accepted)
    (hhandled : s'.handled = s.handled) (hskipped : s'.skipped = s.skipped)
    (hdone : s'.done = s.done) (hhand : s'.worker.inHand = s.worker.inHand)
    (hqueue : s'.queue.filterMap Message.entry = s.queue.filterMap Message.entry)
    (hworker : ∀ k m, s'.worker = .handling (.posted k m) → s.worker = .handling (.posted k m))
    (hpc : ∀ t x, (s'.pc t).awaits = some x → x ∈ s.accepted) : Filed s' := by
  refine ⟨?_, ?_, ?_, ?_, ?_⟩
  · rw [haccepted, hhandled, hskipped, hhand, hqueue]
    exact h.accounted
  · rw [haccepted]
    exact h.numbered
  · rw [hhandled]
    exact fun k m hw ↦ h.handling k m (hworker k m hw)
  · rw [hdone, hhandled, hskipped]
    exact h.done
  · rw [haccepted]
    exact hpc

theorem Filed.goto {s : State τ μ} (h : Filed s) (t : Thread τ) {p : Pc μ}
    (hp : ∀ x, p.awaits = some x → x ∈ s.accepted) : Filed (s.goto t p) :=
  ⟨h.accounted, h.numbered, h.handling, h.done,
    forall_goto (P := fun _ p ↦ ∀ x, p.awaits = some x → x ∈ s.accepted) rfl h.awaiting hp⟩

omit [DecidableEq τ] in
/-- The message enters the queue. -/
theorem Filed.accept {s : State τ μ} (h : Filed s) (m : μ) (mutex : Option (Thread τ)) :
    Filed { s with
      queue := s.queue ++ [Message.posted s.accepted.length m]
      accepted := s.accepted ++ [(s.accepted.length, m)]
      mutex := mutex } := by
  refine ⟨?_, ?_, h.handling, h.done, fun t x hx ↦ List.mem_append_left _ (h.awaiting t x hx)⟩
  · have hacc := h.accounted.append_right [(s.accepted.length, m)]
    simpa using hacc
  · simp [h.numbered, List.range_succ]

theorem filed_call {s s' : State τ μ} {e : Event τ μ} (h : Filed s) (hm : CallMove s e s') :
    Filed s' := by
  -- No other list than `returned` and `inPlace` is written.
  have hsame : ∀ (inPlace : List μ) (returned : List (μ × Bool)) (mutex : Option (Thread τ)),
      Filed { s with inPlace := inPlace, returned := returned, mutex := mutex } :=
    fun _ _ _ ↦ ⟨h.accounted, h.numbered, h.handling, h.done, h.awaiting⟩
  cases hm with
  | inPlace t m => exact hsame _ _ _
  | enter t op m call => exact h.goto t (by rintro _ ⟨⟩)
  | post t m call phase mutex => exact (hsame s.inPlace s.returned mutex).goto t (by rintro _ ⟨⟩)
  | reject t m call => exact (hsame s.inPlace _ none).goto t (by rintro _ ⟨⟩)
  | accept t m call =>
      apply (h.accept m none).goto t
      intro x hx
      cases call with
      | true =>
          obtain rfl : (s.accepted.length, m) = x := Option.some.inj hx
          exact List.mem_append_right _ (List.mem_singleton_self _)
      | false => cases hx
  | resume t k m => exact (hsame s.inPlace _ s.mutex).goto t (by rintro _ ⟨⟩)

omit [DecidableEq τ] in
theorem filed_work {s s' : State τ μ} (h : Filed s) (hm : WorkMove s s') : Filed s' := by
  cases hm with
  | lock hw | wait hw | handleHalt hw | runHalt hw | signalHalt hw | again hw | leave hw =>
      refine h.congr rfl rfl rfl rfl ?_ rfl ?_ h.awaiting
      · rw [hw]
        rfl
      · rintro k m ⟨⟩
  | @pop k m rest hw hq =>
      refine ⟨?_, h.numbered, by rintro k m ⟨⟩, h.done, h.awaiting⟩
      have hacc := h.accounted
      rw [hw, hq] at hacc
      have hfront : (s.handled ++ (s.skipped ++ (k, m) :: rest.filterMap Message.entry)).Perm
          (s.handled ++ (k, m) :: (s.skipped ++ rest.filterMap Message.entry)) :=
        List.perm_middle.append_left _
      simpa using hacc.trans (by simpa using hfront)
  | popHalt hw hq =>
      refine h.congr rfl rfl rfl rfl ?_ ?_ ?_ h.awaiting
      · rw [hw]
        rfl
      · rw [hq]
        rfl
      · rintro k m ⟨⟩
  | @handle k m hw =>
      refine ⟨?_, h.numbered, ?_, ?_, h.awaiting⟩
      · have hacc := h.accounted
        rw [hw] at hacc
        simpa using hacc
      · rintro k' m' ⟨⟩
        exact List.mem_append_right _ (List.mem_singleton_self _)
      · intro j hj
        rcases h.done j hj with ⟨m', hm'⟩ | hrefused
        · exact .inl ⟨m', List.mem_append_left _ hm'⟩
        · exact .inr hrefused
  | @finish k m hw =>
      refine ⟨?_, h.numbered, by rintro k m ⟨⟩, ?_, h.awaiting⟩
      · have hacc := h.accounted
        rw [hw] at hacc
        exact hacc
      · intro j hj
        rcases List.mem_append.mp hj with hj | hj
        · exact h.done j hj
        · rw [List.mem_singleton.mp hj]
          exact .inl ⟨m, h.handling k m hw⟩

theorem filed_clear {s s' : State τ μ} {t : Thread τ} {stop locked : Bool} (h : Filed s)
    (hm : ClearMove s t stop locked s') : Filed s' := by
  have hsame : ∀ (mutex : Option (Thread τ)) (stopped : List (Thread τ)),
      Filed { s with mutex := mutex, stopped := stopped } :=
    fun _ _ ↦ ⟨h.accounted, h.numbered, h.handling, h.done, h.awaiting⟩
  cases hm with
  | lock => exact (hsame _ s.stopped).goto t (by rintro _ ⟨⟩)
  | @skip k m rest hq =>
      refine ⟨?_, h.numbered, h.handling, ?_, h.awaiting⟩
      · have hacc := h.accounted
        rw [hq] at hacc
        simpa using hacc
      · intro j hj
        rw [List.map_append, List.mem_append]
        rcases List.mem_append.mp hj with hj | hj
        · exact (h.done j hj).imp_right .inl
        · exact .inr (.inr hj)
  | @skipHalt k rest hq =>
      refine h.congr rfl rfl rfl rfl rfl ?_ (fun _ _ hw ↦ hw) h.awaiting
      rw [hq]
      rfl
  | done => exact (hsame none _).goto t (by rintro _ ⟨⟩)

theorem filed_stop {s s' : State τ μ} {t : Thread τ} {phase : StopPhase} (h : Filed s)
    (hm : StopMove s t phase s') : Filed s' := by
  have hsame : ∀ (running accepting : Bool) (mutex : Option (Thread τ)) (workerThread : Bool)
      (stopped : List (Thread τ)), Filed { s with
        running := running, acceptingMessages := accepting, mutex := mutex
        workerThread := workerThread, stopped := stopped } :=
    fun _ _ _ _ _ ↦ ⟨h.accounted, h.numbered, h.handling, h.done, h.awaiting⟩
  cases hm with
  | notRunning => exact (hsame _ _ s.mutex _ _).goto t (by rintro _ ⟨⟩)
  | testRunning | ownThread | otherThread | await | notJoinable =>
      exact h.goto t (by rintro _ ⟨⟩)
  | refuse | refuseLocked =>
      exact (hsame s.running false s.mutex _ s.stopped).goto t (by rintro _ ⟨⟩)
  | halt => exact (hsame false _ s.mutex _ s.stopped).goto t (by rintro _ ⟨⟩)
  | detach | join => exact (hsame s.running _ s.mutex false s.stopped).goto t (by rintro _ ⟨⟩)
  | lock => exact (hsame s.running _ (some t) _ s.stopped).goto t (by rintro _ ⟨⟩)
  | push =>
      have hpush : Filed { s with
          queue := s.queue ++ [Message.halt s.halts], halts := s.halts + 1, mutex := none } := by
        refine h.congr rfl rfl rfl rfl rfl ?_ (fun _ _ hw ↦ hw) h.awaiting
        simp [List.filterMap_cons]
      exact hpush.goto t (by rintro _ ⟨⟩)

theorem filed_deed {s s' : State τ μ} {e : Event τ μ} (h : Filed s) (hd : Deed s e s') :
    Filed s' := by
  cases hd with
  | call hm => exact filed_call h hm
  | work he hm => exact filed_work h hm
  | beginStop t he hp hs =>
      subst hs
      have hsame : Filed { s with stops := s.stops ++ [t] } :=
        ⟨h.accounted, h.numbered, h.handling, h.done, h.awaiting⟩
      exact hsame.goto t (by rintro _ ⟨⟩)
  | beginClear t he hp hs =>
      subst hs
      exact h.goto t (by rintro _ ⟨⟩)
  | stop t phase he hp hm => exact filed_stop h hm
  | clear t stop locked he hp hm => exact filed_clear h hm

/-! ## Whose number it is -/

/-- How often the number `n` was accepted, run in place or refused. -/
def State.used (s : State τ (ℕ × μ)) (n : ℕ) : ℕ :=
  (s.accepted.map (·.2.1)).count n + (s.inPlace.map Prod.fst).count n +
    ((s.returned.filter (!·.2)).map (·.1.1)).count n

/-- Each number below `count` is posted by one thread at most, or used once. -/
structure Unique (s : State τ (ℕ × μ)) (count : ℕ) : Prop where
  once : ∀ n, s.used n ≤ 1
  below : ∀ n, count ≤ n → s.used n = 0
  posting : ∀ t m, (s.pc t).posts = some m → m.1 < count ∧ s.used m.1 = 0
  distinct : ∀ t u m m', (s.pc t).posts = some m → (s.pc u).posts = some m' → m.1 = m'.1 → t = u

omit [DecidableEq τ] in
/-- One number may be used that nobody posts any more, and one thread may begin
to post with the number of the step. -/
theorem Unique.next {s s' : State τ (ℕ × μ)} {n : ℕ} (h : Unique s n) (t : Thread τ)
    (hused : ∀ j, s'.used j = s.used j ∨ s'.used j = 1 ∧ j ≤ n ∧
      ∀ u m, (s'.pc u).posts = some m → m.1 ≠ j)
    (hposts : ∀ u m, (s'.pc u).posts = some m →
      (s.pc u).posts = some m ∨ m.1 = n ∧ u = t) : Unique s' (n + 1) := by
  refine ⟨fun j ↦ ?_, fun j hj ↦ ?_, fun u m hm ↦ ?_, fun u v m m' hm hm' heq ↦ ?_⟩
  · rcases hused j with hsame | ⟨hone, -⟩
    · rw [hsame]
      exact h.once j
    · omega
  · rcases hused j with hsame | ⟨-, hle, -⟩
    · rw [hsame]
      exact h.below j (by omega)
    · omega
  · have hold : m.1 < n + 1 ∧ s.used m.1 = 0 := by
      rcases hposts u m hm with hm | ⟨hn, -⟩
      · exact ⟨Nat.lt_succ_of_lt (h.posting u m hm).1, (h.posting u m hm).2⟩
      · exact ⟨by omega, h.below _ (Nat.le_of_eq hn.symm)⟩
    refine ⟨hold.1, ?_⟩
    rcases hused m.1 with hsame | ⟨-, -, hnobody⟩
    · rw [hsame]
      exact hold.2
    · exact absurd rfl (hnobody u m hm)
  · rcases hposts u m hm with hu | ⟨hn, rfl⟩ <;> rcases hposts v m' hm' with hv | ⟨hn', rfl⟩
    · exact h.distinct u v m m' hu hv heq
    · have hlt := (h.posting u m hu).1
      omega
    · have hlt := (h.posting v m' hv).1
      omega
    · rfl

/-- A step of thread `t`, which posts what it did before or begins to post. -/
theorem posts_goto {s u : State τ (ℕ × μ)} {t : Thread τ} {p : Pc (ℕ × μ)} {n : ℕ}
    (hpc : u.pc = s.pc) (hp : ∀ m, p.posts = some m → (s.pc t).posts = some m ∨ m.1 = n)
    (v : Thread τ) (m : ℕ × μ) (hm : ((u.goto t p).pc v).posts = some m) :
    (s.pc v).posts = some m ∨ m.1 = n ∧ v = t :=
  forall_goto (P := fun v p ↦ ∀ m, p.posts = some m → (s.pc v).posts = some m ∨ m.1 = n ∧ v = t)
    hpc (fun _ _ hm ↦ .inl hm) (fun m hm ↦ (hp m hm).imp_right fun hn ↦ ⟨hn, rfl⟩) v m hm

omit [DecidableEq τ] in
/-- The number that `t` posts is used, and `t` posts no more. -/
theorem Unique.spend {s s' : State τ (ℕ × μ)} {t : Thread τ} {m : ℕ × μ} {n : ℕ}
    (h : Unique s n) (hm : (s.pc t).posts = some m) (hself : (s'.pc t).posts = none)
    (hothers : ∀ v, v ≠ t → s'.pc v = s.pc v)
    (hused : ∀ j, s'.used j = s.used j + if m.1 = j then 1 else 0) : Unique s' (n + 1) := by
  have hposting := h.posting t m hm
  have hposts : ∀ v m', (s'.pc v).posts = some m' → v ≠ t ∧ (s.pc v).posts = some m' := by
    intro v m' hm'
    by_cases hv : v = t
    · rw [hv, hself] at hm'
      cases hm'
    · rw [hothers v hv] at hm'
      exact ⟨hv, hm'⟩
  apply h.next t
  · intro j
    rw [hused j]
    by_cases hj : m.1 = j
    · right
      refine ⟨?_, ?_, fun v m' hm' heq ↦ ?_⟩
      · rw [if_pos hj, ← hj, hposting.2]
      · omega
      · exact (hposts v m' hm').1 (h.distinct v t m' m (hposts v m' hm').2 hm (heq.trans hj.symm))
    · exact .inl (by rw [if_neg hj, Nat.add_zero])
  · exact fun v m' hm' ↦ .inl (hposts v m' hm').2

omit [DecidableEq τ] in
theorem message_number {e : Event τ μ} {n : ℕ} {t : Thread τ} {op : Operation (ℕ × μ)}
    {m : ℕ × μ} (he : e.number n = .begin t op) (hm : op.message = some m) : m.1 = n := by
  cases e with
  | begin u op' =>
      cases he
      cases op' <;> cases hm <;> rfl
  | advance | work => cases he

theorem unique_call {s s' : State τ (ℕ × μ)} {e : Event τ μ} {n : ℕ} (h : Unique s n)
    (hm : CallMove s (e.number n) s') : Unique s' (n + 1) := by
  generalize he : e.number n = e' at hm
  cases hm with
  | inPlace t m =>
      obtain hn : m.1 = n := message_number he rfl
      apply h.next t
      · intro j
        have hused : s.used m.1 = 0 := h.below _ (Nat.le_of_eq hn.symm)
        by_cases hj : m.1 = j
        · right
          subst hj
          refine ⟨?_, Nat.le_of_eq hn, fun u m' hm' heq ↦ ?_⟩
          · simp [State.used] at hused ⊢
            omega
          · have hlt := (h.posting u m' hm').1
            omega
        · left
          simp [State.used, hj]
      · exact fun u m' hm' ↦ .inl hm'
  | enter t op m call hm =>
      obtain hn : m.1 = n := message_number he hm
      refine h.next t (fun j ↦ .inl rfl) ?_
      apply posts_goto rfl
      rintro m' ⟨⟩
      exact .inr hn
  | post t m call phase mutex hp =>
      refine h.next t (fun j ↦ .inl rfl) ?_
      apply posts_goto (s := s) rfl
      rintro m' ⟨⟩
      exact .inl hp
  | reject t m call hp =>
      cases call with
      | true =>
          apply h.spend hp
          · rw [State.reject, goto_pc_self]
            rfl
          · exact fun v hv ↦ goto_pc_ne _ hv
          · intro j
            simp [State.used, State.goto, State.reject, List.count_singleton]
            omega
      | false =>
          refine h.next t (fun j ↦ .inl rfl) ?_
          apply posts_goto (s := s) rfl
          rintro m' ⟨⟩
  | accept t m call hp =>
      apply h.spend (m := m) (by rw [hp]; rfl)
      · rw [goto_pc_self]
        cases call <;> rfl
      · exact fun v hv ↦ goto_pc_ne _ hv
      · intro j
        simp [State.used, State.goto, List.count_singleton]
        omega
  | resume t k m =>
      apply h.next t
      · intro j
        left
        simp [State.used, State.goto]
      · apply posts_goto (s := s) rfl
        rintro m' ⟨⟩

omit [DecidableEq τ] in
/-- The other steps use no number. -/
theorem Unique.quiet {s s' : State τ (ℕ × μ)} {n : ℕ} (h : Unique s n)
    (hrecord : (s'.accepted, s'.inPlace, s'.returned) = (s.accepted, s.inPlace, s.returned))
    (hposts : ∀ t, (s'.pc t).posts = none ∨ s'.pc t = s.pc t) : Unique s' (n + 1) := by
  simp only [Prod.mk.injEq] at hrecord
  obtain ⟨haccepted, hinPlace, hreturned⟩ := hrecord
  apply h.next .worker
  · intro j
    left
    unfold State.used
    rw [haccepted, hinPlace, hreturned]
  · intro u m hm
    rcases hposts u with hnone | hsame
    · rw [hnone] at hm
      cases hm
    · rw [hsame] at hm
      exact .inl hm

theorem quiet_goto {s u : State τ μ} {t : Thread τ} {p : Pc μ} (hpc : u.pc = s.pc)
    (hp : p.posts = none) (v : Thread τ) :
    ((u.goto t p).pc v).posts = none ∨ (u.goto t p).pc v = s.pc v :=
  forall_goto (P := fun v p ↦ p.posts = none ∨ p = s.pc v) hpc (fun _ ↦ .inr rfl) (.inl hp) v

theorem unique_deed {s s' : State τ (ℕ × μ)} {e : Event τ μ} {n : ℕ} (h : Unique s n)
    (hd : Deed s (e.number n) s') : Unique s' (n + 1) := by
  cases hd with
  | call hm => exact unique_call h hm
  | work he hm => cases hm <;> exact h.quiet rfl fun t ↦ .inr rfl
  | beginStop t he hp hs | beginClear t he hp hs =>
      subst hs
      exact h.quiet rfl (quiet_goto rfl rfl)
  | stop t phase he hp hm => cases hm <;> exact h.quiet rfl (quiet_goto rfl rfl)
  | clear t stop locked he hp hm =>
      cases hm with
      | lock | done => exact h.quiet rfl (quiet_goto rfl rfl)
      | skip | skipHalt => exact h.quiet rfl fun t ↦ .inr rfl

/-! ## What a call returns -/

omit [DecidableEq τ] in
theorem count_accepted {s : State τ (ℕ × μ)} (hf : Filed s) (n : ℕ) :
    (s.handled.map (·.2.1)).count n ≤ (s.accepted.map (·.2.1)).count n := by
  have hperm := (hf.accounted.map (·.2.1)).count_eq n
  simp only [List.map_append, List.count_append] at hperm
  omega

omit [DecidableEq τ] in
theorem executed_le_used {s : State τ (ℕ × μ)} (hf : Filed s) (n : ℕ) :
    s.executed n + ((s.returned.filter (!·.2)).map (·.1.1)).count n ≤ s.used n := by
  have hcount := count_accepted hf n
  unfold State.executed State.used
  omega

omit [DecidableEq τ] in
/-- A refused call was not run; it is the others that may lie. -/
theorem truthful_iff {s : State τ (ℕ × μ)} {count : ℕ} (hf : Filed s) (hu : Unique s count) :
    Truthful s ↔ ∀ m, (m, true) ∈ s.returned → 0 < s.executed m.1 := by
  constructor
  · intro h m hm
    have hone := h m.1 m.2 true hm
    simp at hone
    omega
  · intro h n m result hm
    have hle := executed_le_used hf n
    have honce := hu.once n
    cases result with
    | true =>
        have hpos := h (n, m) hm
        simp at hpos ⊢
        omega
    | false =>
        have hmem : n ∈ (s.returned.filter (!·.2)).map (·.1.1) :=
          List.mem_map.mpr ⟨((n, m), false), List.mem_filter.mpr ⟨hm, rfl⟩, rfl⟩
        have hpos := List.count_pos_iff.mpr hmem
        simp
        omega

omit [DecidableEq τ] in
theorem Filed.tickets_nodup {s : State τ μ} (hf : Filed s) : (s.accepted.map Prod.fst).Nodup := by
  rw [hf.numbered]
  exact List.nodup_range

omit [DecidableEq τ] in
/-- No message is handled and skipped. -/
theorem Filed.not_skipped {s : State τ μ} (hf : Filed s) {k : ℕ} {m : μ}
    (hhandled : (k, m) ∈ s.handled) : k ∉ s.skipped.map Prod.fst := by
  intro hskipped
  have hnodup := (hf.accounted.map Prod.fst).nodup_iff.mp hf.tickets_nodup
  simp only [List.map_append, List.append_assoc] at hnodup
  have hdisjoint := List.disjoint_of_nodup_append hnodup
  refine hdisjoint (List.mem_map.mpr ⟨_, hhandled, rfl⟩) ?_
  exact List.mem_append_right _ (List.mem_append_left _ hskipped)

omit [DecidableEq τ] in
theorem Filed.mem_accepted {s : State τ μ} (hf : Filed s) {x : ℕ × μ} (hx : x ∈ s.handled) :
    x ∈ s.accepted := by
  rw [hf.accounted.mem_iff, List.append_assoc, List.append_assoc]
  exact List.mem_append_left _ hx

omit [DecidableEq τ] in
/-- A call that can come back was run unless it was skipped. -/
theorem executed_pos_iff {s : State τ (ℕ × μ)} {count : ℕ} (hf : Filed s) (hu : Unique s count)
    {t : Thread τ} {k : ℕ} {m : ℕ × μ} (hp : s.pc t = .awaiting k m) (hk : k ∈ s.done) :
    0 < s.executed m.1 ↔ k ∉ s.skipped.map Prod.fst := by
  have haccepted : (k, m) ∈ s.accepted := hf.awaiting t (k, m) (by rw [hp]; rfl)
  constructor
  · intro hpos
    have honce := hu.once m.1
    have hmem : m.1 ∈ s.accepted.map (·.2.1) := List.mem_map.mpr ⟨_, haccepted, rfl⟩
    have hcount := List.count_pos_iff.mpr hmem
    -- It was not run in place, since its number is in use for the accepted message.
    have hhandled : 0 < (s.handled.map (·.2.1)).count m.1 := by
      unfold State.executed at hpos
      unfold State.used at honce
      omega
    obtain ⟨⟨k', m'⟩, hin, hnumber⟩ := List.mem_map.mp (List.count_pos_iff.mp hhandled)
    have hnodup : (s.accepted.map (·.2.1)).Nodup := by
      apply List.nodup_iff_count_le_one.mpr
      intro j
      have honce := hu.once j
      unfold State.used at honce
      omega
    have heq := List.inj_on_of_nodup_map hnodup (hf.mem_accepted hin) haccepted hnumber
    obtain ⟨rfl, rfl⟩ := Prod.mk.inj heq
    exact hf.not_skipped hin
  · intro hskipped
    obtain ⟨m', hin⟩ := (hf.done k hk).resolve_right hskipped
    have heq := List.inj_on_of_nodup_map hf.tickets_nodup (hf.mem_accepted hin) haccepted rfl
    obtain rfl := (Prod.mk.inj heq).2
    have hmem : m'.1 ∈ s.handled.map (·.2.1) := List.mem_map.mpr ⟨_, hin, rfl⟩
    have hpos := List.count_pos_iff.mpr hmem
    unfold State.executed
    omega

omit [DecidableEq τ] in
theorem Truthful.mono {s s' : State τ (ℕ × μ)} {count count' : ℕ} (h : Truthful s)
    (hf : Filed s) (hu : Unique s count) (hf' : Filed s') (hu' : Unique s' count')
    (hexecuted : ∀ j, s.executed j ≤ s'.executed j)
    (hreturned : ∀ m, (m, true) ∈ s'.returned → (m, true) ∈ s.returned ∨ 0 < s'.executed m.1) :
    Truthful s' := by
  rw [truthful_iff hf' hu']
  intro m hm
  rcases hreturned m hm with hold | hpos
  · exact Nat.lt_of_lt_of_le ((truthful_iff hf hu).mp h m hold) (hexecuted m.1)
  · exact hpos

omit [DecidableEq τ] in
theorem unskipped_of_awaits {s : State τ μ} {t : Thread τ} (hp : (s.pc t).awaits = none) :
    Unskipped s (.advance t) := by
  intro x hx
  rw [hp] at hx
  cases hx

theorem Pc.awaits_of_posts {p : Pc μ} {m : μ} (hp : p.posts = some m) : p.awaits = none := by
  cases p <;> first | rfl | cases hp

/-- A step keeps the calls truthful unless it brings a skipped one back. -/
theorem truthful_deed {s s' : State τ (ℕ × μ)} {e : Event τ (ℕ × μ)} {count count' : ℕ}
    (hf : Filed s) (hu : Unique s count) (h : Truthful s) (hd : Deed s e s')
    (hu' : Unique s' count') : Truthful s' ↔ Unskipped s e := by
  have hf' := filed_deed hf hd
  -- A step that returns from no call, and may run something.
  have hkeep : (∀ j, s.executed j ≤ s'.executed j) →
      (∀ m, (m, true) ∈ s'.returned → (m, true) ∈ s.returned) → Unskipped s e →
        (Truthful s' ↔ Unskipped s e) := by
    intro hexecuted hreturned hunskipped
    refine iff_of_true ?_ hunskipped
    exact h.mono hf hu hf' hu' hexecuted fun m hm ↦ .inl (hreturned m hm)
  cases hd with
  | call hm =>
      cases hm with
      | inPlace t m =>
          refine iff_of_true (h.mono hf hu hf' hu' (fun j ↦ ?_) fun m' hm' ↦ ?_) trivial
          · simp only [State.executed, List.map_append, List.count_append]
            omega
          · rcases List.mem_append.mp hm' with hold | hnew
            · exact .inl hold
            · right
              obtain ⟨rfl, -⟩ := Prod.mk.inj (List.mem_singleton.mp hnew)
              simp only [State.executed, List.map_append, List.map_cons, List.map_nil,
                List.count_append, List.count_singleton_self]
              omega
      | enter => exact hkeep (fun _ ↦ Nat.le_refl _) (fun _ hm ↦ hm) trivial
      | post t m call phase mutex hp =>
          exact hkeep (fun _ ↦ Nat.le_refl _) (fun _ hm ↦ hm)
            (unskipped_of_awaits (Pc.awaits_of_posts hp))
      | accept t m call hp =>
          exact hkeep (fun _ ↦ Nat.le_refl _) (fun _ hm ↦ hm)
            (unskipped_of_awaits (by rw [hp]; rfl))
      | reject t m call hp =>
          refine hkeep (fun _ ↦ Nat.le_refl _) (fun m' hm' ↦ ?_)
            (unskipped_of_awaits (Pc.awaits_of_posts hp))
          cases call with
          | true =>
              rcases List.mem_append.mp hm' with hold | hnew
              · exact hold
              · cases List.mem_singleton.mp hnew
          | false => exact hm'
      | resume t k m hp hk =>
          have hiff := executed_pos_iff hf hu hp hk
          rw [truthful_iff hf' hu']
          constructor
          · intro hall x hx
            rw [hp] at hx
            obtain rfl : (k, m) = x := Option.some.inj hx
            exact hiff.mp (hall m (List.mem_append_right _ (List.mem_singleton_self _)))
          · intro hunskipped m' hm'
            rcases List.mem_append.mp hm' with hold | hnew
            · exact (truthful_iff hf hu).mp h m' hold
            · obtain ⟨rfl, -⟩ := Prod.mk.inj (List.mem_singleton.mp hnew)
              exact hiff.mpr (hunskipped (k, m') (by rw [hp]; rfl))
  | work he hm =>
      subst he
      cases hm with
      | handle =>
          refine hkeep (fun j ↦ ?_) (fun _ hm ↦ hm) trivial
          simp only [State.executed, List.map_append, List.count_append]
          omega
      | _ => exact hkeep (fun _ ↦ Nat.le_refl _) (fun _ hm ↦ hm) trivial
  | beginStop t he hp hs | beginClear t he hp hs =>
      subst he hs
      exact hkeep (fun _ ↦ Nat.le_refl _) (fun _ hm ↦ hm) trivial
  | stop t phase he hp hm =>
      subst he
      have hunskipped : Unskipped s (.advance t) := unskipped_of_awaits (by rw [hp]; rfl)
      cases hm <;> exact hkeep (fun _ ↦ Nat.le_refl _) (fun _ hm ↦ hm) hunskipped
  | clear t stop locked he hp hm =>
      subst he
      have hunskipped : Unskipped s (.advance t) := unskipped_of_awaits (by rw [hp]; rfl)
      cases hm <;> exact hkeep (fun _ ↦ Nat.le_refl _) (fun _ hm ↦ hm) hunskipped

/-! ## Whole runs -/

/-- What holds of the numbered queue after every step. -/
def Calls.Kept (c : Calls τ μ) : Prop :=
  Filed c.queue ∧ Unique c.queue c.count

omit [DecidableEq τ] in
theorem Calls.started_kept : (Calls.started τ μ).Kept := by
  refine ⟨⟨List.Perm.refl _, rfl, by rintro k m ⟨⟩, ?_, by rintro t x ⟨⟩⟩, ?_, ?_, ?_, ?_⟩
  · exact fun k hk ↦ (List.not_mem_nil hk).elim
  · exact fun n ↦ Nat.zero_le _
  · exact fun n _ ↦ rfl
  · rintro t m ⟨⟩
  · rintro t u m m' ⟨⟩

theorem Calls.step_spec {c c' : Calls τ μ} {e : Event τ μ} (h : (numbered τ μ).step c e = some c') :
    Deed c.queue (e.number c.count) c'.queue ∧ c'.count = c.count + 1 := by
  obtain ⟨queue, hstep, rfl⟩ := Option.map_eq_some_iff.mp h
  exact ⟨deed_of_step hstep, rfl⟩

/-- The calls are truthful throughout a run exactly if none of them comes back
after a `stop` or a `clear` has skipped its message. -/
theorem truthful_iff_of_run {es : List (Event τ μ)} {c : Calls τ μ}
    (hrun : (numbered τ μ).run (Calls.started τ μ) es = some c) :
    (numbered τ μ).Always (fun c ↦ Truthful c.queue) (Calls.started τ μ) es ↔
      (numbered τ μ).Meets (fun c e ↦ Unskipped c.queue (e.number c.count))
        (Calls.started τ μ) es := by
  refine (numbered τ μ).always_iff_meets (J := Calls.Kept) ?_ ?_ Calls.started_kept ?_ hrun
  · intro c e c' hk _ _ hstep
    obtain ⟨hd, hcount⟩ := Calls.step_spec hstep
    exact ⟨filed_deed hk.1 hd, hcount ▸ unique_deed hk.2 hd⟩
  · intro c e c' hk htruthful hstep
    obtain ⟨hd, hcount⟩ := Calls.step_spec hstep
    exact truthful_deed hk.1 hk.2 htruthful hd (unique_deed hk.2 hd)
  · exact fun n m result hm ↦ (List.not_mem_nil hm).elim

/-- A call from another thread with one from the worker inside it, and a call that
finds the queue stopping. -/
def nestedCalls : List (Event ℕ ℕ) :=
  .begin (.client 0) (.callInEventLoop 7) :: List.replicate 4 (.advance (.client 0)) ++
    List.replicate 3 .work ++ [.begin .worker (.callInEventLoop 8), .work, .advance (.client 0)] ++
    .begin (.client 1) .stop :: List.replicate 5 (.advance (.client 1)) ++
    .begin (.client 2) (.callInEventLoop 9) :: List.replicate 3 (.advance (.client 2))

theorem truthful_nestedCalls :
    ∃ c, (numbered ℕ ℕ).run (Calls.started ℕ ℕ) nestedCalls = some c ∧
      c.queue.returned = [((8, 8), true), ((0, 7), true), ((17, 9), false)] ∧
      (numbered ℕ ℕ).Always (fun c ↦ Truthful c.queue) (Calls.started ℕ ℕ) nestedCalls := by
  obtain ⟨c, hrun, hreturned⟩ := Option.map_eq_some_iff.mp
    (show ((numbered ℕ ℕ).run (Calls.started ℕ ℕ) nestedCalls).map (·.queue.returned) =
        some [((8, 8), true), ((0, 7), true), ((17, 9), false)] by
      decide +kernel)
  exact ⟨c, hrun, hreturned, (truthful_iff_of_run hrun).mpr (by decide +kernel)⟩

/-- The worker stops the queue while a call waits behind the message it handles. -/
def skippedCall : List (Event ℕ ℕ) :=
  .begin (.client 0) (.scheduleInEventLoop 5) :: List.replicate 4 (.advance (.client 0)) ++
    List.replicate 3 .work ++
    .begin (.client 1) (.callInEventLoop 7) :: List.replicate 4 (.advance (.client 1)) ++
    .begin .worker .stop :: List.replicate 7 (.advance .worker) ++ [.advance (.client 1)]

theorem skipped_call_returns_true :
    ∃ c, (numbered ℕ ℕ).run (Calls.started ℕ ℕ) skippedCall = some c ∧
      ((8, 7), true) ∈ c.queue.returned ∧ c.queue.executed 8 = 0 ∧ ¬ Truthful c.queue := by
  obtain ⟨c, hrun, hend⟩ := Option.map_eq_some_iff.mp
    (show ((numbered ℕ ℕ).run (Calls.started ℕ ℕ) skippedCall).map
        (fun c ↦ (c.queue.returned, c.queue.executed 8)) = some ([((8, 7), true)], 0) by
      decide +kernel)
  obtain ⟨hreturned, hexecuted⟩ := Prod.mk.inj hend
  have hmem : ((8, 7), true) ∈ c.queue.returned := by
    rw [hreturned]
    exact List.mem_singleton_self _
  refine ⟨c, hrun, hmem, hexecuted, fun htruthful ↦ ?_⟩
  have hone := htruthful 8 7 true hmem
  rw [hexecuted] at hone
  cases hone

end RialtoGStreamer.MessageQueue
