import RialtoGStreamer.MessageQueue.Calls

/-!
# Stops that race with each other

A stop tests `m_running` without the lock and pushes its message later without a
second test. Pushed behind the last `doClear`, the message is never handled nor
skipped, and the stop waits for it forever. As long as each stop pushes in time,
nobody waits forever: whoever has made the worker leave is still to clear the
queue, and after that the queue stays empty.
-/

namespace RialtoGStreamer.MessageQueue

open Library

variable {τ μ : Type*} [DecidableEq τ]

/-- Inside `stop`. -/
def Pc.isStop : Pc μ → Bool
  | .stopping _ | .clearing true _ => true
  | _ => false

/-- Blocked in `wait()` on a message that is neither handled nor skipped. -/
def State.Waits (s : State τ μ) (t : Thread τ) : Prop :=
  match s.pc t with
  | .awaiting k _ => k ∉ s.done
  | .stopping (.await k) => k ∉ s.haltDone
  | _ => False

/-- The worker has left its loop, every stop is over or blocked in its `wait()`,
and some thread is blocked in a `wait()`. -/
structure Stuck (s : State τ μ) : Prop where
  left : s.worker = .left
  stops : ∀ t, (s.pc t).isStop = true → s.Waits t
  waits : ∃ t, s.Waits t

/-- The message of a stop whose function has run and which is about to be done. -/
def WorkerPc.signals : WorkerPc μ → Option ℕ
  | .halted k => some k
  | _ => none

def State.signaled (s : State τ μ) (k : ℕ) : Bool :=
  k ∈ s.haltDone ∨ s.worker.signals = some k

/-- The thread is inside a stop that does not wait any more, but has not finished
its `doClear`. -/
def Pc.willClear (signaled : ℕ → Bool) : Pc μ → Bool
  | .stopping .detach | .stopping .join | .clearing true _ => true
  | .stopping (.await k) => signaled k
  | _ => false

def State.willClear (s : State τ μ) (t : Thread τ) : Bool :=
  (s.pc t).willClear s.signaled

def Pc.pushes : Pc μ → Bool
  | .stopping .push => true
  | _ => false

/-- A stop pushes its message while the queue is running, or in front of the
`doClear` of another stop. -/
def Timely (s : State τ μ) : Event τ μ → Prop
  | .advance t => (s.pc t).pushes = true →
      s.running = true ∨ ∃ u ∈ s.stops, u ≠ t ∧ s.willClear u = true
  | .begin _ _ | .work => True

instance (s : State τ μ) : (e : Event τ μ) → Decidable (Timely s e)
  | .advance t => inferInstanceAs (Decidable ((s.pc t).pushes = true →
      s.running = true ∨ ∃ u ∈ s.stops, u ≠ t ∧ s.willClear u = true))
  | .begin _ _ | .work => instDecidableTrue

/-! ## Where the messages of the stops are -/

@[simp] def Message.ticket : Message μ → Option ℕ
  | .halt k => some k
  | .posted _ _ => none

@[simp] def WorkerPc.ticket : WorkerPc μ → List ℕ
  | .popped (.halt k) | .handling (.halt k) | .halted k => [k]
  | _ => []

/-- Each message of a stop is queued, in the hands of the worker or done, and its
stop waits for it until it is done. -/
structure Ticketed (s : State τ μ) : Prop where
  accounted : (List.range s.halts).Perm
    (s.queue.filterMap Message.ticket ++ s.worker.ticket ++ s.haltDone)
  awaited : ∀ t k, s.pc t = .stopping (.await k) → k < s.halts
  waiter : ∀ k < s.halts, k ∉ s.haltDone → ∃ t, s.pc t = .stopping (.await k)

omit [DecidableEq τ] in
/-- A step in which no stop pushes or comes back, and `done` says which messages
are done. -/
theorem Ticketed.congr {s s' : State τ μ} (h : Ticketed s) (hhalts : s'.halts = s.halts)
    (haccounted : (s.queue.filterMap Message.ticket ++ s.worker.ticket ++ s.haltDone).Perm
      (s'.queue.filterMap Message.ticket ++ s'.worker.ticket ++ s'.haltDone))
    (hdone : ∀ k ∈ s.haltDone, k ∈ s'.haltDone)
    (hpc : ∀ t k, s'.pc t = .stopping (.await k) ↔ s.pc t = .stopping (.await k)) :
    Ticketed s' := by
  refine ⟨?_, fun t k hk ↦ ?_, fun k hk hnot ↦ ?_⟩
  · rw [hhalts]
    exact h.accounted.trans haccounted
  · rw [hhalts]
    exact h.awaited t k ((hpc t k).mp hk)
  · rw [hhalts] at hk
    obtain ⟨t, ht⟩ := h.waiter k hk fun hmem ↦ hnot (hdone k hmem)
    exact ⟨t, (hpc t k).mpr ht⟩

/-- Thread `t` does not wait for a stop, neither before nor after its step. -/
theorem await_goto {s u : State τ μ} {t : Thread τ} {p : Pc μ} (hpc : u.pc = s.pc)
    (hbefore : ∀ k, s.pc t ≠ .stopping (.await k)) (hafter : ∀ k, p ≠ .stopping (.await k))
    (v : Thread τ) (k : ℕ) :
    (u.goto t p).pc v = .stopping (.await k) ↔ s.pc v = .stopping (.await k) := by
  by_cases hv : v = t
  · subst hv
    rw [goto_pc_self]
    exact iff_of_false (hafter k) (hbefore k)
  · rw [goto_pc_ne p hv, hpc]

theorem ticketed_call {s s' : State τ μ} {e : Event τ μ} (h : Ticketed s)
    (hm : CallMove s e s') : Ticketed s' := by
  have hposting : ∀ {t m}, (s.pc t).posts = some m → ∀ k, s.pc t ≠ .stopping (.await k) := by
    rintro t m hp k hawait
    rw [hawait] at hp
    cases hp
  cases hm with
  | inPlace t m => exact h.congr rfl (.refl _) (fun _ hk ↦ hk) fun _ _ ↦ .rfl
  | enter t op m call hm hp =>
      exact h.congr rfl (.refl _) (fun _ hk ↦ hk) (await_goto rfl (by simp [hp]) (by simp))
  | post t m call phase mutex hp | reject t m call hp =>
      exact h.congr rfl (.refl _) (fun _ hk ↦ hk) (await_goto rfl (hposting hp) (by simp))
  | accept t m call hp =>
      refine h.congr rfl ?_ (fun _ hk ↦ hk) (await_goto rfl (by simp [hp]) ?_)
      · simp [List.filterMap_cons, State.goto]
      · cases call <;> simp
  | resume t k m hp =>
      exact h.congr rfl (.refl _) (fun _ hk ↦ hk) (await_goto rfl (by simp [hp]) (by simp))

omit [DecidableEq τ] in
theorem ticketed_work {s s' : State τ μ} (h : Ticketed s) (hm : WorkMove s s') :
    Ticketed s' := by
  cases hm with
  | @signalHalt k hw =>
      refine h.congr rfl ?_ (fun _ hk ↦ List.mem_append_left _ hk) fun _ _ ↦ .rfl
      rw [hw]
      simpa using (List.perm_append_singleton k s.haltDone).symm.append_left _
  | @popHalt k rest hw hq =>
      refine h.congr rfl ?_ (fun _ hk ↦ hk) fun _ _ ↦ .rfl
      rw [hw, hq]
      simpa using List.perm_middle.symm
  | pop hw hq =>
      refine h.congr rfl ?_ (fun _ hk ↦ hk) fun _ _ ↦ .rfl
      rw [hw, hq]
      exact .refl _
  | lock hw | wait hw | handle hw | handleHalt hw | finish hw | runHalt hw | again hw | leave hw =>
      refine h.congr rfl ?_ (fun _ hk ↦ hk) fun _ _ ↦ .rfl
      rw [hw]
      exact .refl _

theorem ticketed_stop {s s' : State τ μ} {t : Thread τ} {phase : StopPhase} (h : Ticketed s)
    (hp : s.pc t = .stopping phase) (hm : StopMove s t phase s') : Ticketed s' := by
  cases hm with
  | push =>
      refine ⟨?_, fun v k hk ↦ ?_, fun k hk hnot ↦ ?_⟩
      · have haccounted := h.accounted.append_right [s.halts]
        rw [← List.range_succ] at haccounted
        refine haccounted.trans ((List.perm_append_singleton _ _).trans ?_)
        change (s.halts :: (_ ++ s.worker.ticket ++ s.haltDone)).Perm
          ((s.queue ++ [Message.halt s.halts]).filterMap Message.ticket ++ s.worker.ticket ++
            s.haltDone)
        rw [List.filterMap_append, List.append_assoc, List.append_assoc, List.append_assoc]
        exact List.perm_middle.symm
      · change k < s.halts + 1
        by_cases hv : v = t
        · subst hv
          rw [goto_pc_self] at hk
          cases hk
          exact Nat.lt_succ_self _
        · rw [goto_pc_ne _ hv] at hk
          exact Nat.lt_succ_of_lt (h.awaited v k hk)
      · rcases Nat.lt_succ_iff_lt_or_eq.mp hk with hk | rfl
        · obtain ⟨v, hv⟩ := h.waiter k hk hnot
          have hne : v ≠ t := by
            rintro rfl
            rw [hp] at hv
            cases hv
          exact ⟨v, (goto_pc_ne _ hne).trans hv⟩
        · exact ⟨t, goto_pc_self _ _ _⟩
  | @await k hd =>
      refine ⟨h.accounted, fun v j hj ↦ ?_, fun j hj hnot ↦ ?_⟩
      · by_cases hv : v = t
        · subst hv
          rw [goto_pc_self] at hj
          cases hj
        · rw [goto_pc_ne _ hv] at hj
          exact h.awaited v j hj
      · obtain ⟨v, hv⟩ := h.waiter j hj hnot
        -- The stop that comes back waited for a message that is done.
        have hne : v ≠ t := by
          rintro rfl
          rw [hp] at hv
          cases hv
          exact hnot hd
        exact ⟨v, (goto_pc_ne _ hne).trans hv⟩
  | notRunning | testRunning | ownThread | otherThread | refuse | halt | detach | lock
  | refuseLocked | notJoinable | join =>
      exact h.congr rfl (.refl _) (fun _ hk ↦ hk) (await_goto rfl (by simp [hp]) (by simp))

theorem ticketed_clear {s s' : State τ μ} {t : Thread τ} {stop locked : Bool} (h : Ticketed s)
    (hp : s.pc t = .clearing stop locked) (hm : ClearMove s t stop locked s') :
    Ticketed s' := by
  cases hm with
  | lock | done =>
      exact h.congr rfl (.refl _) (fun _ hk ↦ hk) (await_goto rfl (by simp [hp]) (by simp))
  | skip hq =>
      refine h.congr rfl ?_ (fun _ hk ↦ hk) fun _ _ ↦ .rfl
      rw [hq]
      exact .refl _
  | @skipHalt k rest hq =>
      refine h.congr rfl ?_ (fun _ hk ↦ List.mem_append_left _ hk) fun _ _ ↦ .rfl
      rw [hq]
      simpa using (List.perm_append_singleton k
        (rest.filterMap Message.ticket ++ (s.worker.ticket ++ s.haltDone))).symm

theorem ticketed_deed {s s' : State τ μ} {e : Event τ μ} (h : Ticketed s) (hd : Deed s e s') :
    Ticketed s' := by
  cases hd with
  | call hm => exact ticketed_call h hm
  | work he hm => exact ticketed_work h hm
  | beginStop t he hp hs | beginClear t he hp hs =>
      subst hs
      exact h.congr rfl (.refl _) (fun _ hk ↦ hk) (await_goto rfl (by simp [hp]) (by simp))
  | stop t phase he hp hm => exact ticketed_stop h hp hm
  | clear t stop locked he hp hm => exact ticketed_clear h hp hm

/-! ## What is done, and what is refused -/

/-- A message that has left the queue is done, or the worker is running it. -/
structure Served (s : State τ μ) : Prop where
  handled : ∀ x ∈ s.handled, x.1 ∈ s.done ∨ s.worker = .handling (.posted x.1 x.2)
  skipped : ∀ x ∈ s.skipped, x.1 ∈ s.done

omit [DecidableEq τ] in
theorem served_work {s s' : State τ μ} (h : Served s) (hm : WorkMove s s') : Served s' := by
  -- Unless the worker is running a message, all that it took are done.
  have hdone : (∀ k m, s.worker ≠ .handling (.posted k m)) → ∀ x ∈ s.handled, x.1 ∈ s.done :=
    fun hw x hx ↦ (h.handled x hx).resolve_right (hw x.1 x.2)
  cases hm with
  | handle hw =>
      refine ⟨fun x hx ↦ ?_, h.skipped⟩
      rcases List.mem_append.mp hx with hx | hx
      · exact .inl (hdone (by simp [hw]) x hx)
      · obtain rfl := List.mem_singleton.mp hx
        exact .inr rfl
  | @finish k m hw =>
      refine ⟨fun x hx ↦ .inl ?_, fun x hx ↦ List.mem_append_left _ (h.skipped x hx)⟩
      rcases h.handled x hx with hx | hx
      · exact List.mem_append_left _ hx
      · rw [hw] at hx
        cases hx
        exact List.mem_append_right _ (List.mem_singleton_self _)
  | lock hw | wait hw | pop hw | popHalt hw | handleHalt hw | runHalt hw | signalHalt hw | again hw
  | leave hw =>
      exact ⟨fun x hx ↦ .inl (hdone (by simp [hw]) x hx), h.skipped⟩

theorem served_deed {s s' : State τ μ} {e : Event τ μ} (h : Served s) (hd : Deed s e s') :
    Served s' := by
  cases hd with
  | call hm => cases hm <;> exact ⟨h.handled, h.skipped⟩
  | work he hm => exact served_work h hm
  | beginStop t he hp hs | beginClear t he hp hs =>
      subst hs
      exact ⟨h.handled, h.skipped⟩
  | stop t phase he hp hm => cases hm <;> exact ⟨h.handled, h.skipped⟩
  | clear t stop locked he hp hm =>
      cases hm with
      | skip hq =>
          refine ⟨fun x hx ↦ (h.handled x hx).imp_left (List.mem_append_left _), fun x hx ↦ ?_⟩
          rcases List.mem_append.mp hx with hx | hx
          · exact List.mem_append_left _ (h.skipped x hx)
          · obtain rfl := List.mem_singleton.mp hx
            exact List.mem_append_right _ (List.mem_singleton_self _)
      | lock | skipHalt | done => exact ⟨h.handled, h.skipped⟩

/-- Past the place where a stop clears `m_acceptingMessages`. -/
def Pc.refuses : Pc μ → Bool
  | .stopping .push | .stopping .halt => true
  | _ => false

/-- Nothing is accepted from the first stop on that comes that far. -/
structure Refusing (s : State τ μ) : Prop where
  halts : 0 < s.halts → s.acceptingMessages = false
  stopping : ∀ t, (s.pc t).refuses = true → s.acceptingMessages = false
  running : s.running = false → s.acceptingMessages = false
  left : s.worker = .left → s.running = false

/-- A step to a place where no stop refuses. -/
theorem Refusing.goto {s : State τ μ} (h : Refusing s) {t : Thread τ} {p : Pc μ}
    (hp : p.refuses = false) : Refusing (s.goto t p) := by
  refine ⟨h.halts, ?_, h.running, h.left⟩
  refine forall_goto (P := fun _ p ↦ p.refuses = true → s.acceptingMessages = false) rfl
    h.stopping fun hrefuses ↦ ?_
  rw [hp] at hrefuses
  cases hrefuses

theorem refusing_call {s s' : State τ μ} {e : Event τ μ} (h : Refusing s)
    (hm : CallMove s e s') : Refusing s' := by
  have hsame : ∀ (queue : List (Message μ)) (accepted : List (ℕ × μ)) (inPlace : List μ)
      (returned : List (μ × Bool)) (mutex : Option (Thread τ)), Refusing { s with
        queue := queue, accepted := accepted, inPlace := inPlace, returned := returned
        mutex := mutex } :=
    fun _ _ _ _ _ ↦ ⟨h.halts, h.stopping, h.running, h.left⟩
  cases hm with
  | inPlace t m => exact hsame _ _ _ _ _
  | enter t op m call => exact h.goto rfl
  | post t m call phase mutex =>
      exact (hsame s.queue s.accepted s.inPlace s.returned mutex).goto rfl
  | reject t m call => exact (hsame s.queue s.accepted s.inPlace _ none).goto rfl
  | accept t m call =>
      apply (hsame _ _ s.inPlace s.returned none).goto
      cases call <;> rfl
  | resume t k m => exact (hsame s.queue s.accepted s.inPlace _ s.mutex).goto rfl

omit [DecidableEq τ] in
theorem refusing_work {s s' : State τ μ} (h : Refusing s) (ht : Ticketed s)
    (hm : WorkMove s s') : Refusing s' := by
  cases hm with
  | @runHalt k hw =>
      have hk : k ∈ List.range s.halts := by
        rw [ht.accounted.mem_iff, hw]
        simp
      have hpos : 0 < s.halts := Nat.lt_of_le_of_lt (Nat.zero_le k) (List.mem_range.mp hk)
      exact ⟨h.halts, h.stopping, fun _ ↦ h.halts hpos, by rintro ⟨⟩⟩
  | leave hw hr => exact ⟨h.halts, h.stopping, h.running, fun _ ↦ hr⟩
  | lock | wait | pop | popHalt | handle | handleHalt | finish | signalHalt | again =>
      exact ⟨h.halts, h.stopping, h.running, by rintro ⟨⟩⟩

theorem refusing_stop {s s' : State τ μ} {t : Thread τ} {phase : StopPhase} (h : Refusing s)
    (hp : s.pc t = .stopping phase) (hm : StopMove s t phase s') : Refusing s' := by
  have hsame : ∀ (mutex : Option (Thread τ)) (workerThread : Bool) (stopped : List (Thread τ)),
      Refusing { s with mutex := mutex, workerThread := workerThread, stopped := stopped } :=
    fun _ _ _ ↦ ⟨h.halts, h.stopping, h.running, h.left⟩
  cases hm with
  | notRunning => exact (hsame s.mutex _ _).goto rfl
  | testRunning | ownThread | otherThread | await | notJoinable => exact h.goto rfl
  | detach | join => exact (hsame s.mutex false s.stopped).goto rfl
  | lock => exact (hsame (some t) _ s.stopped).goto rfl
  | refuse | refuseLocked => exact ⟨fun _ ↦ rfl, fun _ _ ↦ rfl, fun _ ↦ rfl, h.left⟩
  | halt =>
      have hrefuses : s.acceptingMessages = false := h.stopping t (by rw [hp]; rfl)
      exact ⟨fun _ ↦ hrefuses, fun _ _ ↦ hrefuses, fun _ ↦ hrefuses, fun _ ↦ rfl⟩
  | push =>
      have hrefuses : s.acceptingMessages = false := h.stopping t (by rw [hp]; rfl)
      exact ⟨fun _ ↦ hrefuses, fun _ _ ↦ hrefuses, fun _ ↦ hrefuses, h.left⟩

theorem refusing_deed {s s' : State τ μ} {e : Event τ μ} (h : Refusing s) (ht : Ticketed s)
    (hd : Deed s e s') : Refusing s' := by
  cases hd with
  | call hm => exact refusing_call h hm
  | work he hm => exact refusing_work h ht hm
  | beginStop t he hp hs =>
      subst hs
      have hsame : Refusing { s with stops := s.stops ++ [t] } :=
        ⟨h.halts, h.stopping, h.running, h.left⟩
      exact hsame.goto rfl
  | beginClear t he hp hs =>
      subst hs
      exact h.goto rfl
  | stop t phase he hp hm => exact refusing_stop h hp hm
  | clear t stop locked he hp hm =>
      have hsame : ∀ (mutex : Option (Thread τ)) (stopped : List (Thread τ)),
          Refusing { s with mutex := mutex, stopped := stopped } :=
        fun _ _ ↦ ⟨h.halts, h.stopping, h.running, h.left⟩
      cases hm with
      | lock => exact (hsame _ s.stopped).goto rfl
      | done => exact (hsame none _).goto rfl
      | skip | skipHalt => exact ⟨h.halts, h.stopping, h.running, h.left⟩

/-! ## Who is still to clear the queue -/

/-- Nothing is queued, and nobody is about to queue a message. -/
structure Emptied (s : State τ μ) : Prop where
  queue : s.queue = []
  nobody : ∀ t m call, s.pc t ≠ .posting m call .sawAccepting

/-- Once the queue does not run any more, some stop is still to clear it, or it
is empty for good. -/
def Rescued (s : State τ μ) : Prop :=
  s.running = false → (∃ u, s.willClear u = true) ∨ Emptied s

theorem signaled_deed {s s' : State τ μ} {e : Event τ μ} (hd : Deed s e s') {k : ℕ}
    (hk : s.signaled k = true) : s'.signaled k = true := by
  simp only [State.signaled, decide_eq_true_eq] at hk ⊢
  cases hd with
  | call hm => cases hm <;> exact hk
  | work he hm =>
      cases hm with
      | @signalHalt j hw =>
          rcases hk with hk | hk
          · exact .inl (List.mem_append_left _ hk)
          · rw [hw] at hk
            obtain rfl : j = k := Option.some.inj hk
            exact .inl (List.mem_append_right _ (List.mem_singleton_self _))
      | lock hw | wait hw | pop hw | popHalt hw | handle hw | handleHalt hw | finish hw | runHalt hw
      | again hw | leave hw => exact .inl (hk.resolve_right (by simp [hw, WorkerPc.signals]))
  | beginStop t he hp hs | beginClear t he hp hs =>
      subst hs
      exact hk
  | stop t phase he hp hm => cases hm <;> exact hk
  | clear t stop locked he hp hm =>
      cases hm with
      | skipHalt => exact hk.imp_left (List.mem_append_left _)
      | lock | skip | done => exact hk

theorem Pc.willClear_mono {p : Pc μ} {f g : ℕ → Bool} (hfg : ∀ k, f k = true → g k = true)
    (hp : p.willClear f = true) : p.willClear g = true := by
  cases p with
  | stopping phase =>
      cases phase with
      | await k => exact hfg k hp
      | testRunning | compareThread | refuse | halt | detach | lock | refuseLocked | push | join =>
          exact hp
  | clearing stop locked => cases stop <;> exact hp
  | idle | posting | awaiting => exact hp

/-- It is another thread that moves. -/
theorem willClear_goto {s x : State τ μ} {t u : Thread τ} {p : Pc μ} {f : ℕ → Bool}
    (hfg : ∀ k, s.signaled k = true → f k = true) (hpc : x.pc = s.pc)
    (hnot : (s.pc t).willClear s.signaled = false) (hu : s.willClear u = true) :
    ((x.goto t p).pc u).willClear f = true := by
  have hut : u ≠ t := by
    rintro rfl
    rw [State.willClear, hnot] at hu
    cases hu
  rw [goto_pc_ne p hut, hpc]
  exact Pc.willClear_mono hfg hu

theorem Pc.willClear_of_posts {p : Pc μ} {m : μ} (hp : p.posts = some m) (f : ℕ → Bool) :
    p.willClear f = false := by
  cases p <;> first | rfl | cases hp

theorem emptied_of_done {s : State τ μ} {t : Thread τ} {stop : Bool} {x : State τ μ}
    (howned : Owned s) (hp : s.pc t = .clearing stop true) (hq : x.queue = [])
    (hpc : x.pc = s.pc) : Emptied (x.goto t .idle) := by
  refine ⟨hq, fun v m call hv ↦ ?_⟩
  by_cases hvt : v = t
  · subst hvt
    rw [goto_pc_self] at hv
    cases hv
  · rw [goto_pc_ne _ hvt, hpc] at hv
    have hmine := howned.owner t (by rw [hp]; rfl)
    have hother := howned.owner v (by rw [hv]; rfl)
    rw [hmine] at hother
    exact hvt (Option.some.inj hother).symm

/-- A stop that is to clear the queue remains so until it has. -/
theorem willClear_deed {s s' : State τ μ} {e : Event τ μ} (howned : Owned s) (hd : Deed s e s')
    {u : Thread τ} (hu : s.willClear u = true) : s'.willClear u = true ∨ Emptied s' := by
  have hsignaled : ∀ k, s.signaled k = true → s'.signaled k = true := fun k ↦ signaled_deed hd
  have hsame : s'.pc = s.pc → s'.willClear u = true := by
    intro hpc
    rw [State.willClear, hpc]
    exact Pc.willClear_mono hsignaled hu
  cases hd with
  | call hm =>
      left
      cases hm with
      | inPlace t m => exact hsame rfl
      | enter t op m call hm hp =>
          exact willClear_goto hsignaled rfl (by rw [hp]; rfl) hu
      | post t m call phase mutex hp | reject t m call hp =>
          exact willClear_goto hsignaled rfl (Pc.willClear_of_posts hp _) hu
      | accept t m call hp | resume t k m hp =>
          exact willClear_goto hsignaled rfl (by rw [hp]; rfl) hu
  | work he hm => exact .inl (by cases hm <;> exact hsame rfl)
  | beginStop t he hp hs | beginClear t he hp hs =>
      subst hs
      exact .inl (willClear_goto hsignaled rfl (by rw [hp]; rfl) hu)
  | stop t phase he hp hm =>
      left
      by_cases hut : u = t
      · subst hut
        rw [State.willClear, hp] at hu
        cases hm with
        | detach | notJoinable | join | await =>
            rw [State.willClear, goto_pc_self]
            rfl
        | notRunning | testRunning | ownThread | otherThread | refuse | halt | lock | refuseLocked
        | push => cases hu
      · cases hm <;>
          · rw [State.willClear, goto_pc_ne _ hut]
            exact Pc.willClear_mono hsignaled hu
  | clear t stop locked he hp hm =>
      cases hm with
      | skip | skipHalt => exact .inl (hsame rfl)
      | done hq => exact .inr (emptied_of_done howned hp hq rfl)
      | lock =>
          left
          by_cases hut : u = t
          · subst hut
            rw [State.willClear, hp] at hu
            rw [State.willClear, goto_pc_self]
            cases stop with
            | true => rfl
            | false => cases hu
          · rw [State.willClear, goto_pc_ne _ hut]
            exact Pc.willClear_mono hsignaled hu

theorem emptied_goto {s x : State τ μ} {t : Thread τ} {p : Pc μ} (h : Emptied s)
    (hq : x.queue = s.queue) (hpc : x.pc = s.pc)
    (hp : ∀ m call, p ≠ .posting m call .sawAccepting) : Emptied (x.goto t p) := by
  refine ⟨hq.trans h.queue, ?_⟩
  exact forall_goto (P := fun _ p ↦ ∀ m call, p ≠ .posting m call .sawAccepting) hpc h.nobody hp

/-- An empty queue that accepts nothing stays empty, as long as no stop pushes. -/
theorem emptied_deed {s s' : State τ μ} {e : Event τ μ} (h : Emptied s)
    (hrefuses : s.acceptingMessages = false) (hd : Deed s e s')
    (hpush : ∀ t, e = .advance t → s.pc t ≠ .stopping .push) : Emptied s' := by
  cases hd with
  | call hm =>
      cases hm with
      | inPlace t m => exact ⟨h.queue, h.nobody⟩
      | enter t op m call => exact emptied_goto h rfl rfl (by simp)
      | post t m call phase mutex hp hphase =>
          refine emptied_goto h rfl rfl ?_
          rintro m' call' ⟨⟩
          rw [hphase rfl] at hrefuses
          cases hrefuses
      | reject t m call => exact emptied_goto h rfl rfl (by simp)
      | accept t m call hp => exact absurd hp (h.nobody t m call)
      | resume t k m => exact emptied_goto h rfl rfl (by simp)
  | work he hm =>
      cases hm with
      | pop hw hq | popHalt hw hq =>
          rw [h.queue] at hq
          cases hq
      | lock | wait | handle | handleHalt | finish | runHalt | signalHalt | again | leave =>
          exact ⟨h.queue, h.nobody⟩
  | beginStop t he hp hs | beginClear t he hp hs =>
      subst hs
      exact emptied_goto h rfl rfl (by simp)
  | stop t phase he hp hm =>
      cases hm with
      | push => exact absurd hp (hpush t he)
      | notRunning | testRunning | ownThread | otherThread | refuse | halt | detach | lock
      | refuseLocked | await | notJoinable | join => exact emptied_goto h rfl rfl (by simp)
  | clear t stop locked he hp hm =>
      cases hm with
      | skip hq | skipHalt hq =>
          rw [h.queue] at hq
          cases hq
      | lock | done => exact emptied_goto h rfl rfl (by simp)

omit [DecidableEq τ] in
/-- The stop whose function the worker runs still waits for its message. -/
theorem Ticketed.waiter_of_handling {s : State τ μ} (h : Ticketed s) {k : ℕ}
    (hw : s.worker = .handling (.halt k)) : ∃ t, s.pc t = .stopping (.await k) := by
  have hk : k ∈ List.range s.halts := by
    rw [h.accounted.mem_iff, hw]
    simp
  apply h.waiter k (List.mem_range.mp hk)
  intro hdone
  have hnodup := h.accounted.nodup_iff.mp List.nodup_range
  rw [hw] at hnodup
  exact List.disjoint_of_nodup_append hnodup (List.mem_append_right _ (List.mem_singleton_self k))
    hdone

theorem rescued_deed {s s' : State τ μ} {e : Event τ μ} (h : Rescued s) (howned : Owned s)
    (hticketed : Ticketed s) (hrefusing : Refusing s) (htimely : Timely s e) (hd : Deed s e s') :
    Rescued s' := by
  intro hrunning'
  cases hrunning : s.running with
  | false =>
      have hclear : (∃ u, s.willClear u = true) → (∃ u, s'.willClear u = true) ∨ Emptied s' := by
        rintro ⟨u, hu⟩
        exact (willClear_deed howned hd hu).imp_left fun hu' ↦ ⟨u, hu'⟩
      rcases h hrunning with hwill | hempty
      · exact hclear hwill
      · by_cases hpush : ∃ t, e = .advance t ∧ s.pc t = .stopping .push
        · obtain ⟨t, rfl, hp⟩ := hpush
          rcases htimely (by rw [hp]; rfl) with hr | ⟨u, -, -, hu⟩
          · rw [hrunning] at hr
            cases hr
          · exact hclear ⟨u, hu⟩
        · right
          apply emptied_deed hempty (hrefusing.running hrunning) hd
          exact fun t he hp ↦ hpush ⟨t, he, hp⟩
  | true =>
      -- The step ends the run: the worker runs a message of a stop, or stops itself.
      left
      have hsame : s'.running = s.running → ∃ u, s'.willClear u = true := by
        intro hsame
        rw [hsame, hrunning] at hrunning'
        cases hrunning'
      cases hd with
      | call hm => cases hm <;> exact hsame rfl
      | work he hm =>
          cases hm with
          | @runHalt k hw =>
              obtain ⟨t, ht⟩ := hticketed.waiter_of_handling hw
              refine ⟨t, ?_⟩
              simp [State.willClear, ht, Pc.willClear, State.signaled, WorkerPc.signals]
          | lock | wait | pop | popHalt | handle | handleHalt | finish | signalHalt | again
          | leave => exact hsame rfl
      | beginStop t he hp hs | beginClear t he hp hs =>
          subst hs
          exact hsame rfl
      | stop t phase he hp hm =>
          cases hm with
          | halt => exact ⟨t, by rw [State.willClear, goto_pc_self]; rfl⟩
          | notRunning | testRunning | ownThread | otherThread | refuse | detach | lock
          | refuseLocked | push | await | notJoinable | join => exact hsame rfl
      | clear t stop locked he hp hm => cases hm <;> exact hsame rfl

/-! ## Whole runs -/

/-- What holds after every step of stops that push in time. -/
structure Orderly (s : State τ μ) : Prop where
  owned : Owned s
  filed : Filed s
  ticketed : Ticketed s
  served : Served s
  refusing : Refusing s
  rescued : Rescued s

theorem orderly_step {s s' : State τ μ} {e : Event τ μ} (h : Orderly s) (htimely : Timely s e)
    (hstep : s.step e = some s') : Orderly s' := by
  have hd := deed_of_step hstep
  exact ⟨owned_move h.owned (step_move hstep), filed_deed h.filed hd, ticketed_deed h.ticketed hd,
    served_deed h.served hd, refusing_deed h.refusing h.ticketed hd,
    rescued_deed h.rescued h.owned h.ticketed h.refusing htimely hd⟩

omit [DecidableEq τ] in
theorem orderly_started : Orderly (State.started τ μ) := by
  refine ⟨intact_started.owned, ?_, ?_, ?_, ?_, by rintro ⟨⟩⟩
  · exact ⟨.refl _, rfl, by rintro k m ⟨⟩, fun k hk ↦ (List.not_mem_nil hk).elim, by rintro t x ⟨⟩⟩
  · exact ⟨.refl _, by rintro t k ⟨⟩, fun k hk ↦ absurd hk (Nat.not_lt_zero k)⟩
  · exact ⟨fun x hx ↦ (List.not_mem_nil hx).elim, fun x hx ↦ (List.not_mem_nil hx).elim⟩
  · exact ⟨fun hpos ↦ absurd hpos (Nat.lt_irrefl 0), by rintro t ⟨⟩, by rintro ⟨⟩, by rintro ⟨⟩⟩

omit [DecidableEq τ] in
/-- With the queue empty and the worker gone, there is nothing to wait for. -/
theorem Orderly.not_waits {s : State τ μ} (h : Orderly s) (hleft : s.worker = .left)
    (hqueue : s.queue = []) (t : Thread τ) : ¬ s.Waits t := by
  intro hwaits
  unfold State.Waits at hwaits
  split at hwaits
  · next k m hp =>
      have haccepted := h.filed.awaiting t (k, m) (by rw [hp]; rfl)
      rw [h.filed.accounted.mem_iff, hleft, hqueue] at haccepted
      simp only [WorkerPc.inHand, List.filterMap_nil, List.append_nil, List.mem_append] at haccepted
      rcases haccepted with hhandled | hskipped
      · rcases h.served.handled _ hhandled with hdone | hhandling
        · exact hwaits hdone
        · rw [hleft] at hhandling
          cases hhandling
      · exact hwaits (h.served.skipped _ hskipped)
  · next k hp =>
      have hk := List.mem_range.mpr (h.ticketed.awaited t k hp)
      rw [h.ticketed.accounted.mem_iff, hleft, hqueue] at hk
      exact hwaits hk
  · exact hwaits

omit [DecidableEq τ] in
/-- Once the worker has left, a stop that is to clear the queue does not wait. -/
theorem not_waits_of_willClear {s : State τ μ} {u : Thread τ} (hleft : s.worker = .left)
    (hu : s.willClear u = true) : (s.pc u).isStop = true ∧ ¬ s.Waits u := by
  unfold State.willClear at hu
  unfold State.Waits
  cases hpc : s.pc u with
  | stopping phase =>
      refine ⟨rfl, ?_⟩
      rw [hpc] at hu
      cases phase with
      | await k =>
          have hdone : k ∈ s.haltDone := by
            simpa [Pc.willClear, State.signaled, hleft, WorkerPc.signals] using hu
          exact fun hnot ↦ hnot hdone
      | testRunning | compareThread | refuse | halt | detach | lock | refuseLocked | push | join =>
          exact id
  | clearing stop locked =>
      rw [hpc] at hu
      cases stop with
      | true => exact ⟨rfl, id⟩
      | false => cases hu
  | idle | posting | awaiting =>
      rw [hpc] at hu
      cases hu

omit [DecidableEq τ] in
theorem Orderly.not_stuck {s : State τ μ} (h : Orderly s) : ¬ Stuck s := by
  rintro ⟨hleft, hstops, t, hwaits⟩
  rcases h.rescued (h.refusing.left hleft) with ⟨u, hu⟩ | hempty
  · obtain ⟨hstop, hnot⟩ := not_waits_of_willClear hleft hu
    exact hnot (hstops u hstop)
  · exact h.not_waits hleft hempty.queue t hwaits

/-- Whatever the other threads do, no state is reached in which the worker has
left and somebody waits for good, as long as every stop pushes in time. -/
theorem not_stuck_of_timely {es : List (Event τ μ)}
    (htimely : (machine τ μ).Meets Timely (State.started τ μ) es) :
    (machine τ μ).Always (fun s ↦ ¬ Stuck s) (State.started τ μ) es :=
  (machine τ μ).always_of_meets (I := Orderly) (fun _ _ _ h hc hstep ↦ orderly_step h hc hstep)
    (fun _ h ↦ h.not_stuck) orderly_started htimely

/-- Two stops of which the second pushes behind the message of the first, and a
call that was accepted before. -/
def overlappingStops : List (Event ℕ ℕ) :=
  .begin (.client 2) (.callInEventLoop 7) :: List.replicate 4 (.advance (.client 2)) ++
    .begin (.client 0) .stop :: List.replicate 2 (.advance (.client 0)) ++
    .begin (.client 1) .stop :: List.replicate 2 (.advance (.client 1)) ++
    List.replicate 3 (.advance (.client 0)) ++ List.replicate 3 (.advance (.client 1)) ++
    List.replicate 11 .work ++ List.replicate 5 (.advance (.client 0)) ++
    List.replicate 4 (.advance (.client 1)) ++ [.advance (.client 2)]

theorem not_stuck_overlappingStops :
    ((machine ℕ ℕ).run (State.started ℕ ℕ) overlappingStops).map
        (fun s ↦ (s.stopped, s.returned)) = some ([.client 0, .client 1], [(7, true)]) ∧
      (machine ℕ ℕ).Always (fun s ↦ ¬ Stuck s) (State.started ℕ ℕ) overlappingStops :=
  ⟨by decide +kernel, not_stuck_of_timely (by decide +kernel)⟩

/-- A thread that began nothing is idle. -/
theorem idle_of_run {es : List (Event τ μ)} {s : State τ μ} {t : Thread τ}
    (hrun : (machine τ μ).run (State.started τ μ) es = some s)
    (hbegin : ∀ op, .begin t op ∉ es) : s.pc t = .idle := by
  refine (machine τ μ).invariant_of_meets (I := fun s ↦ s.pc t = .idle)
    (C := fun _ e ↦ ∀ op, e ≠ .begin t op) (fun s e s' hidle hne hstep ↦ ?_) rfl ?_ hrun
  · by_contra hbusy
    exact busy_of_step hne hstep hbusy hidle
  · refine (machine τ μ).meets_of_forall_mem (fun e he op heq ↦ ?_) _
    exact hbegin op (heq ▸ he)

/-- The second stop has seen the queue running, and goes on when the first is over. -/
def lateStop : List (Event ℕ ℕ) :=
  .begin (.client 0) .stop :: List.replicate 2 (.advance (.client 0)) ++
    .begin (.client 1) .stop :: List.replicate 2 (.advance (.client 1)) ++
    List.replicate 3 (.advance (.client 0)) ++ List.replicate 6 .work ++
    List.replicate 4 (.advance (.client 0)) ++ List.replicate 3 (.advance (.client 1))

theorem late_stop_stuck :
    ∃ s, (machine ℕ ℕ).run (State.started ℕ ℕ) lateStop = some s ∧ s.stopped = [.client 0] ∧
      s.Waits (.client 1) ∧ Stuck s := by
  obtain ⟨s, hrun, hend⟩ := Option.map_eq_some_iff.mp
    (show ((machine ℕ ℕ).run (State.started ℕ ℕ) lateStop).map
        (fun s ↦ (s.stopped, s.worker, s.pc (.client 0), s.pc (.client 1), s.haltDone)) =
          some ([.client 0], .left, .idle, .stopping (.await 1), [0]) by
      decide +kernel)
  simp only [Prod.mk.injEq] at hend
  obtain ⟨hstopped, hleft, hfirst, hsecond, hdone⟩ := hend
  have hwaits : s.Waits (.client 1) := by
    unfold State.Waits
    rw [hsecond, hdone]
    change 1 ∉ [0]
    decide
  refine ⟨s, hrun, hstopped, hwaits, hleft, fun t ht ↦ ?_, _, hwaits⟩
  -- No other thread is inside a stop.
  have hidle : t ≠ .client 0 → t ≠ .client 1 → s.pc t = .idle := by
    intro h0 h1
    apply idle_of_run hrun
    intro op hmem
    simp [lateStop, h0, h1] at hmem
  by_cases h1 : t = .client 1
  · rw [h1]
    exact hwaits
  · have hnot : s.pc t = .idle := by
      by_cases h0 : t = .client 0
      · rw [h0, hfirst]
      · exact hidle h0 h1
    rw [hnot] at ht
    cases ht

end RialtoGStreamer.MessageQueue
