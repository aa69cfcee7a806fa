import RialtoGStreamer.Library.Places
import RialtoGStreamer.WebAudio.References

/-!
# Streaming threads in front of the queue

`notifyNewSample` waits for room in the thread of its caller and pushes the buffer
later, in the event loop, so a thread that found room is counted apart. The
predicate of the wait is tested under `m_queueSizeMutex`, again at each wake-up;
whatever takes buffers out of the queue calls `notify_one` under that mutex.
-/

namespace RialtoGStreamer.WebAudio

open Library

variable {β : Type*}

/-- Where a streaming thread is in `notifyNewSample`: before the test of the
predicate, in the wait, or behind it. -/
inductive StreamPc (β : Type*) where
  | idle
  | testing (buf : List β)
  | blocked (buf : List β) (notified : Bool)
  | admitted (buf : List β)

def StreamPc.isBlocked : StreamPc β → Bool
  | .blocked _ _ => true
  | .idle | .testing _ | .admitted _ => false

/-- The buffer that is to be pushed without another test. -/
def StreamPc.toPush : StreamPc β → ℕ
  | .admitted _ => 1
  | .idle | .testing _ | .blocked _ _ => 0

/-- The client and its callers; `trace` are the events of the client so far. -/
structure Streaming (β : Type*) where
  client : State β := {}
  threads : List (StreamPc β)
  trace : List (Event β) := []

/-- An event of a thread, or of the client, which notifies the thread `woken` if
it notifies any. -/
inductive StreamEvent (β : Type*) where
  | notifyNewSample (i : ℕ) (buf : List β)
  | test (i : ℕ)
  | wake (i : ℕ)
  | push (i : ℕ)
  | client (event : Event β) (woken : ℕ)

namespace Streaming

/-- `m_queueSizeCv.notify_one()`: one of the threads that wait, if there is one. -/
def notifyOne (threads : List (StreamPc β)) (woken : ℕ) : Option (List (StreamPc β)) :=
  match threads[woken]? with
  | some (.blocked buf _) => some (threads.set woken (.blocked buf true))
  | _ => if threads.any StreamPc.isBlocked then none else some threads

/-- The predicate of the wait. -/
def hasRoom (s : Streaming β) : Bool :=
  s.client.dataBuffers.length < maxQueueSize

def stepClient (s : Streaming β) (event : Event β) (woken : ℕ) : Option (Streaming β) :=
  (s.client.step event).bind fun client ↦
    (if s.client.fate event = .keep then some s.threads else notifyOne s.threads woken).map
      fun threads ↦ { client, threads, trace := s.trace ++ [event] }

def step (s : Streaming β) : StreamEvent β → Option (Streaming β)
  | .notifyNewSample i buf =>
      match s.threads[i]? with
      | some .idle => some { s with threads := s.threads.set i (.testing buf) }
      | _ => none
  | .test i =>
      match s.threads[i]? with
      | some (.testing buf) => some { s with
          threads := s.threads.set i (if s.hasRoom then .admitted buf else .blocked buf false) }
      | _ => none
  | .wake i =>
      match s.threads[i]? with
      | some (.blocked buf _) => some { s with threads := s.threads.set i (.testing buf) }
      | _ => none
  | .push i =>
      match s.threads[i]? with
      | some (.admitted buf) =>
          if s.client.worker = .idle then
            some {
              client := s.client.notifyNewSample buf, threads := s.threads.set i .idle
              trace := s.trace ++ [.notifyNewSample buf] }
          else none
      | _ => none
  | .client (.notifyNewSample _) _ => none
  | .client event woken => s.stepClient event woken

end Streaming

def streaming (β : Type*) : Machine (Streaming β) (StreamEvent β) where
  step := Streaming.step

/-! ## Moves -/

/-- A thread enters, tests, or wakes up; a buffer is pushed; the client takes
another step, and notifies if the queue may have become shorter. -/
inductive StreamMove (s : Streaming β) : Streaming β → Prop
  | enter (i : ℕ) (buf : List β) (hpc : s.threads[i]? = some .idle) :
      StreamMove s { s with threads := s.threads.set i (.testing buf) }
  | pass (i : ℕ) (buf : List β) (hpc : s.threads[i]? = some (.testing buf))
      (hroom : s.client.dataBuffers.length < maxQueueSize) :
      StreamMove s { s with threads := s.threads.set i (.admitted buf) }
  | block (i : ℕ) (buf : List β) (hpc : s.threads[i]? = some (.testing buf))
      (hfull : maxQueueSize ≤ s.client.dataBuffers.length) :
      StreamMove s { s with threads := s.threads.set i (.blocked buf false) }
  | wake (i : ℕ) (buf : List β) (notified : Bool)
      (hpc : s.threads[i]? = some (.blocked buf notified)) :
      StreamMove s { s with threads := s.threads.set i (.testing buf) }
  | push (i : ℕ) (buf : List β) (hpc : s.threads[i]? = some (.admitted buf))
      (hworker : s.client.worker = .idle) :
      StreamMove s {
        client := s.client.notifyNewSample buf, threads := s.threads.set i .idle
        trace := s.trace ++ [.notifyNewSample buf] }
  | client (event : Event β) (client : State β) (threads : List (StreamPc β))
      (hother : ∀ buf, event ≠ .notifyNewSample buf) (hstep : s.client.step event = some client)
      (hkeep : s.client.fate event = .keep → threads = s.threads)
      (hnotify : s.client.fate event ≠ .keep →
        ∃ woken, Streaming.notifyOne s.threads woken = some threads) :
      StreamMove s { client, threads, trace := s.trace ++ [event] }

theorem stepClient_move {s t : Streaming β} {event : Event β} {woken : ℕ}
    (hother : ∀ buf, event ≠ .notifyNewSample buf)
    (h : s.stepClient event woken = some t) : StreamMove s t := by
  obtain ⟨client, hclient, h⟩ := Option.bind_eq_some_iff.mp h
  obtain ⟨threads, hthreads, rfl⟩ := Option.map_eq_some_iff.mp h
  refine .client event client threads hother hclient ?_ ?_
  · intro hkeep
    rw [if_pos hkeep] at hthreads
    exact (Option.some.inj hthreads).symm
  · intro hkeep
    rw [if_neg hkeep] at hthreads
    exact ⟨woken, hthreads⟩

theorem stream_move {s t : Streaming β} {e : StreamEvent β} (h : s.step e = some t) :
    StreamMove s t := by
  cases e with
  | notifyNewSample i buf =>
      simp only [Streaming.step] at h
      split at h
      · next hpc =>
          cases h
          exact .enter i buf hpc
      · cases h
  | test i =>
      simp only [Streaming.step] at h
      split at h
      · next buf hpc =>
          cases h
          by_cases hroom : s.client.dataBuffers.length < maxQueueSize
          · rw [show s.hasRoom = true from decide_eq_true hroom]
            exact .pass i buf hpc hroom
          · rw [show s.hasRoom = false from decide_eq_false hroom]
            exact .block i buf hpc (Nat.le_of_not_lt hroom)
      · cases h
  | wake i =>
      simp only [Streaming.step] at h
      split at h
      · next buf notified hpc =>
          cases h
          exact .wake i buf notified hpc
      · cases h
  | push i =>
      simp only [Streaming.step] at h
      split at h
      · next buf hpc =>
          split at h
          · next hworker =>
              cases h
              exact .push i buf hpc hworker
          · cases h
      · cases h
  | client event woken =>
      cases event with
      | notifyNewSample buf => cases h
      | «open» | close | setEos | timerExpired | notifyPushSamplesTimerExpired | iterate
      | finishPush | notifyEndOfStream => exact stepClient_move (by simp) h

/-! ## The length of the queue -/

theorem fate_ne_clear (s : State β) (availableFrames : UInt32) (mapped written : Bool) :
    s.fate (.iterate (some availableFrames) mapped written) ≠ .clear := by
  unfold State.fate
  cases s.dataBuffers with
  | nil => simp
  | cons buffer rest =>
      dsimp only
      split_ifs <;> simp

/-- Only `notifyNewSample` makes the queue longer. -/
theorem length_le_of_step {s t : State β} {e : Event β} (hstep : s.step e = some t)
    (hother : ∀ buf, e ≠ .notifyNewSample buf) :
    t.dataBuffers.length ≤ s.dataBuffers.length := by
  by_cases hclear : s.fate e = .clear
  · cases step_move hstep with
    | iterate available mapped written _ hmove =>
        cases hmove with
        | refused => exact Nat.zero_le _
        | full | granted => exact absurd hclear (fate_ne_clear _ _ _ _)
    | _ => cases hclear
  · rcases length_of_step hstep hclear with ⟨buf, rfl, -⟩ | ⟨-, ⟨-, heq⟩ | ⟨-, hless⟩⟩
    · exact absurd rfl (hother buf)
    · exact Nat.le_of_eq heq
    · exact Nat.le_of_succ_le (Nat.le_of_eq hless)

theorem length_eq_of_keep {s t : State β} {e : Event β} (hstep : s.step e = some t)
    (hother : ∀ buf, e ≠ .notifyNewSample buf) (hkeep : s.fate e = .keep) :
    t.dataBuffers.length = s.dataBuffers.length := by
  rcases length_of_step hstep (by simp [hkeep]) with ⟨buf, rfl, -⟩ | ⟨-, ⟨-, heq⟩ | ⟨hne, -⟩⟩
  · exact absurd rfl (hother buf)
  · exact heq
  · exact absurd hkeep hne

theorem length_notifyNewSample (s : State β) (buf : List β) :
    (s.notifyNewSample buf).dataBuffers.length = s.dataBuffers.length + 1 := by
  unfold State.notifyNewSample
  rw [(sameBytes_pushSamples _).dataBuffers]
  simp

/-! ## Any number of threads -/

/-- The queue of a client with `n` streaming threads. A thread that is alone is
not left in its wait while there is room, and the client takes only steps of the
client whose test and push are one step. -/
structure Held (n : ℕ) (s : Streaming β) : Prop where
  count : s.threads.length = n
  bound : s.client.dataBuffers.length + total StreamPc.toPush s.threads < maxQueueSize + n
  lone : n = 1 → ∀ buf, s.threads = [.blocked buf false] →
    maxQueueSize ≤ s.client.dataBuffers.length
  refines : n = 1 → (machine β).run {} s.trace = some s.client

theorem total_toPush_set {threads : List (StreamPc β)} {i : ℕ} {pc : StreamPc β}
    (hpc : threads[i]? = some pc) (hzero : pc.toPush = 0) (pc' : StreamPc β) :
    total StreamPc.toPush (threads.set i pc') =
      total StreamPc.toPush threads + pc'.toPush := by
  have htotal := total_set (f := StreamPc.toPush) hpc pc'
  omega

theorem toPush_le_one (pc : StreamPc β) : pc.toPush ≤ 1 := by
  cases pc <;> simp [StreamPc.toPush]

/-- The thread itself has nothing to push yet. -/
theorem total_toPush_lt {threads : List (StreamPc β)} {i : ℕ} {pc : StreamPc β}
    (hpc : threads[i]? = some pc) (hzero : pc.toPush = 0) :
    total StreamPc.toPush threads < threads.length := by
  have hset := total_toPush_set hpc hzero (.admitted [])
  have hle := total_le_length toPush_le_one (threads.set i (.admitted []))
  rw [hset, List.length_set] at hle
  exact hle

/-- The thread that moved is the only one. -/
theorem eq_of_set_eq_singleton {threads : List (StreamPc β)} {i : ℕ} {pc pc' pc'' : StreamPc β}
    (hpc : threads[i]? = some pc) (h : threads.set i pc' = [pc'']) : pc' = pc'' := by
  have hget : (threads.set i pc')[i]? = some pc' := by
    rw [List.getElem?_set_self (List.getElem?_eq_some_iff.mp hpc).1]
  rw [h] at hget
  cases i with
  | zero => exact (Option.some.inj hget).symm
  | succ i => cases hget

/-- One thread moves, and the client does not. -/
theorem Held.move {n : ℕ} {s : Streaming β} (hs : Held n s) {i : ℕ} {pc pc' : StreamPc β}
    (hpc : s.threads[i]? = some pc) (hzero : pc.toPush = 0)
    (hbound : pc'.toPush = 1 → s.client.dataBuffers.length < maxQueueSize)
    (hlone : ∀ buf, pc' = .blocked buf false → maxQueueSize ≤ s.client.dataBuffers.length) :
    Held n { s with threads := s.threads.set i pc' } := by
  refine ⟨?_, ?_, ?_, hs.refines⟩
  · rw [List.length_set]
    exact hs.count
  · have hcount := hs.count
    have hold := hs.bound
    have hlt := total_toPush_lt hpc hzero
    have hone := toPush_le_one pc'
    change s.client.dataBuffers.length + total StreamPc.toPush (s.threads.set i pc') < _
    rw [total_toPush_set hpc hzero]
    by_cases hpush : pc'.toPush = 1
    · have hroom := hbound hpush
      omega
    · omega
  · intro _ buf hthreads
    exact hlone buf (eq_of_set_eq_singleton hpc hthreads)

theorem notifyOne_spec {threads threads' : List (StreamPc β)} {woken : ℕ}
    (h : Streaming.notifyOne threads woken = some threads') :
    threads'.length = threads.length ∧
      total StreamPc.toPush threads' = total StreamPc.toPush threads ∧
        ∀ buf, threads' ≠ [.blocked buf false] := by
  unfold Streaming.notifyOne at h
  split at h
  · next buf notified hpc =>
      cases h
      refine ⟨List.length_set, total_toPush_set hpc rfl _, ?_⟩
      intro buf' heq
      cases eq_of_set_eq_singleton hpc heq
  · next hpc =>
      split at h
      · cases h
      · next hnone =>
          cases h
          refine ⟨rfl, rfl, ?_⟩
          rintro buf rfl
          exact hnone rfl

theorem held_step {n : ℕ} {s t : Streaming β} {e : StreamEvent β} (hs : Held n s)
    (hstep : s.step e = some t) : Held n t := by
  cases stream_move hstep with
  | enter i buf hpc => exact hs.move hpc rfl (by rintro ⟨⟩) (by rintro _ ⟨⟩)
  | pass i buf hpc hroom => exact hs.move hpc rfl (fun _ ↦ hroom) (by rintro _ ⟨⟩)
  | block i buf hpc hfull => exact hs.move hpc rfl (by rintro ⟨⟩) (fun _ _ ↦ hfull)
  | wake i buf notified hpc => exact hs.move hpc rfl (by rintro ⟨⟩) (by rintro _ ⟨⟩)
  | push i buf hpc hworker =>
      have htotal := total_set (f := StreamPc.toPush) hpc .idle
      have hbound := hs.bound
      have hroom : n = 1 → s.client.dataBuffers.length < maxQueueSize := by
        rintro rfl
        simp only [StreamPc.toPush] at htotal
        omega
      refine ⟨?_, ?_, ?_, ?_⟩
      · rw [List.length_set]
        exact hs.count
      · change (s.client.notifyNewSample buf).dataBuffers.length +
          total StreamPc.toPush (s.threads.set i .idle) < _
        rw [length_notifyNewSample]
        simp only [StreamPc.toPush] at htotal
        omega
      · intro _ buf' hthreads
        cases eq_of_set_eq_singleton hpc hthreads
      · intro hone
        apply (machine β).run_append_eq_some_iff.mpr
        refine ⟨s.client, hs.refines hone, ?_⟩
        simp [Machine.run_cons, machine, State.step, hworker, hroom hone]
  | client event client threads hother hclient hkeep hnotify =>
      have hle := length_le_of_step hclient hother
      have hthreads : threads.length = s.threads.length ∧
          total StreamPc.toPush threads = total StreamPc.toPush s.threads := by
        by_cases hfate : s.client.fate event = .keep
        · obtain rfl := hkeep hfate
          exact ⟨rfl, rfl⟩
        · obtain ⟨woken, hwoken⟩ := hnotify hfate
          obtain ⟨hlength, htotal, -⟩ := notifyOne_spec hwoken
          exact ⟨hlength, htotal⟩
      refine ⟨hthreads.1.trans hs.count, ?_, ?_, ?_⟩
      · have hbound := hs.bound
        change client.dataBuffers.length + total StreamPc.toPush threads < _
        rw [hthreads.2]
        omega
      · intro hone buf hblocked
        change threads = _ at hblocked
        by_cases hfate : s.client.fate event = .keep
        · obtain rfl := hkeep hfate
          have hfull := hs.lone hone buf hblocked
          rw [← length_eq_of_keep hclient hother hfate] at hfull
          exact hfull
        · obtain ⟨woken, hwoken⟩ := hnotify hfate
          exact absurd hblocked ((notifyOne_spec hwoken).2.2 buf)
      · intro hone
        apply (machine β).run_append_eq_some_iff.mpr
        exact ⟨s.client, hs.refines hone, by simp [Machine.run_cons, machine, hclient]⟩

theorem held_start (n : ℕ) :
    Held n ({ threads := List.replicate n .idle } : Streaming β) := by
  refine ⟨List.length_replicate, ?_, ?_, fun _ ↦ rfl⟩
  · rw [total_eq_zero]
    · exact Nat.add_pos_left (by decide) n
    · intro pc hpc
      rw [List.eq_of_mem_replicate hpc]
      rfl
  · rintro rfl buf h
    cases h

/-- Whatever the threads, the worker, the timer and the server do in turn. -/
theorem always_held (n : ℕ) (es : List (StreamEvent β)) :
    (streaming β).Always (Held n) { threads := List.replicate n .idle } es := by
  intro pre s _ hrun
  exact (streaming β).invariant (fun _ _ _ hs hstep ↦ held_step hs hstep) (held_start n) hrun

end RialtoGStreamer.WebAudio
