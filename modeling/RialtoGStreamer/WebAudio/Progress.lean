import RialtoGStreamer.Library.Loop
import RialtoGStreamer.WebAudio.References

/-!
# Progress of the push loop

Each iteration of `pushSamples` that the backend grants frames should use up
bytes or a buffer. It does not when the front buffer is kept as it is: the
leftover computed from the available frames does not lie in the buffer, and
`gst_buffer_resize` then does nothing.
-/

namespace RialtoGStreamer.WebAudio

open Library

variable {β : Type*}

/-- What one iteration is told: the answer of `getBufferAvailable`, and whether
the buffer is mapped and written. -/
structure Answer where
  available : Option UInt32
  mapped : Bool := true
  written : Bool := true

/-- The loop of `pushSamples`. -/
def pushLoop (β : Type*) : Loop (State β) Answer where
  continues s := s.worker = .pushing
  body s answer := (s.iterate answer.available answer.mapped answer.written).getD s

/-- The queued bytes and the number of queued buffers. -/
def State.backlog (s : State β) : ℕ :=
  s.dataBuffers.flatten.length + s.dataBuffers.length

/-- `pushSamples` under the given answers: an iteration with frames available
makes progress, one without leaves the loop, and the loop is left. -/
structure Progresses (s : State β) (answers : ℕ → Answer) : Prop where
  shrinks : ∀ n availableFrames,
    (pushLoop β).continues ((pushLoop β).rounds answers s n) = true →
      (answers n).available = some availableFrames → availableFrames ≠ 0 →
        ((pushLoop β).rounds answers s (n + 1)).backlog <
          ((pushLoop β).rounds answers s n).backlog
  leaves : ∀ n, (pushLoop β).continues ((pushLoop β).rounds answers s n) = true →
    ((answers n).available = none ∨ (answers n).available = some 0) →
      (pushLoop β).continues ((pushLoop β).rounds answers s (n + 1)) = false
  exits : ∃ n, (pushLoop β).continues ((pushLoop β).rounds answers s n) = false

/-- The front buffer is discarded, used up, joined to the next one, or resized to
a part of it. -/
def Consumed (frameSize availableFrames : UInt32) (bufferSize buffersBehind : ℕ)
    (mapped written : Bool) : Prop :=
  let frames := framesToWrite frameSize availableFrames bufferSize
  let leftover := leftoverData frameSize availableFrames bufferSize
  (frames > 0 ∧ (mapped = false ∨ written = false)) ∨
    bufferSize ≤ (frames * frameSize).toNat ∨
    (leftover / frameSize = 0 ∧ 0 < buffersBehind) ∨
    ((frames * frameSize).toNat + leftover.toNat ≤ bufferSize ∧ leftover.toNat < bufferSize)

/-- An iteration with frames available consumes something. -/
def Consumes (s : State β) (answer : Answer) : Prop :=
  ∀ availableFrames buffer rest, answer.available = some availableFrames → availableFrames ≠ 0 →
    s.dataBuffers = buffer :: rest →
      Consumed s.frameSize availableFrames buffer.length rest.length answer.mapped answer.written

/-! ## One iteration -/

theorem length_gstBufferResize (buffer : List β) (offset size : ℕ) :
    (gstBufferResize buffer offset size).length =
      if offset + size ≤ buffer.length then size else buffer.length := by
  unfold gstBufferResize
  split
  · rw [List.length_take, List.length_drop]
    omega
  · rfl

theorem dataBuffers_process (s : State β) (availableFrames : UInt32) (buffer : List β)
    (rest : List (List β)) (mapped written : Bool) :
    (s.process availableFrames buffer rest mapped written).dataBuffers =
      if framesToWrite s.frameSize availableFrames buffer.length > 0 ∧
          (mapped = false ∨ written = false) then rest
      else if (framesToWrite s.frameSize availableFrames buffer.length * s.frameSize).toNat <
          buffer.length then s.keepLeftover availableFrames buffer rest
      else rest := by
  simp only [State.process]
  by_cases hpos : framesToWrite s.frameSize availableFrames buffer.length > 0
  · cases mapped <;> cases written <;> simp [hpos]
  · simp [hpos]

theorem backlog_process_lt_iff {s : State β} {availableFrames : UInt32} {buffer : List β}
    {rest : List (List β)} {mapped written : Bool} (hqueue : s.dataBuffers = buffer :: rest) :
    (s.process availableFrames buffer rest mapped written).backlog < s.backlog ↔
      Consumed s.frameSize availableFrames buffer.length rest.length mapped written := by
  have hbefore : s.backlog = buffer.length + rest.flatten.length + (rest.length + 1) := by
    rw [State.backlog, hqueue, List.flatten_cons, List.length_append, List.length_cons]
  unfold State.backlog Consumed at *
  rw [hbefore, dataBuffers_process]
  dsimp only
  split
  · next hfails =>
      refine iff_of_true ?_ (.inl hfails)
      omega
  · next hfails =>
      split
      · next hoffset =>
          rw [flatten_keepLeftover, length_keepLeftover, List.length_append,
            length_gstBufferResize, List.length_pos_iff, or_iff_right hfails,
            or_iff_right (Nat.not_le.mpr hoffset)]
          by_cases hjoin : leftoverData s.frameSize availableFrames buffer.length / s.frameSize =
              0 ∧ rest ≠ []
          · rw [if_pos hjoin]
            refine iff_of_true ?_ (.inl hjoin)
            split <;> omega
          · rw [if_neg hjoin, or_iff_right hjoin]
            split <;> omega
      · next hoffset =>
          refine iff_of_true ?_ (.inr (.inl (by omega)))
          omega

theorem toNat_pos {x : UInt32} (hx : x ≠ 0) : 0 < x.toNat :=
  UInt32.lt_iff_toNat_lt.mp (UInt32.pos_iff_ne_zero.mpr hx)

theorem div_eq_zero_iff {x y : UInt32} (hy : y ≠ 0) : x / y = 0 ↔ x.toNat < y.toNat := by
  rw [← UInt32.toNat_inj, UInt32.toNat_div]
  exact Nat.div_eq_zero_iff_lt (toNat_pos hy)

/-- The arithmetic of an iteration in which nothing is cut to 32 bits. -/
theorem consumed_iff_of_exact {size frames buffer : ℕ} {behind : Prop} (hsize : 0 < size)
    (hframes : 0 < frames) (hbuffer : buffer < 2 ^ 32) (hfit : (frames + 1) * size ≤ 2 ^ 32) :
    (buffer ≤ min frames (buffer / size) * size ∨
        ((buffer + 2 ^ 32 - frames * size % 2 ^ 32) % 2 ^ 32 < size ∧ behind) ∨
        (min frames (buffer / size) * size + (buffer + 2 ^ 32 - frames * size % 2 ^ 32) % 2 ^ 32 ≤
            buffer ∧
          (buffer + 2 ^ 32 - frames * size % 2 ^ 32) % 2 ^ 32 < buffer)) ↔
      size ∣ buffer ∨ frames ≤ buffer / size := by
  have hexpand : (frames + 1) * size = frames * size + size := Nat.succ_mul frames size
  have hpos : 0 < frames * size := Nat.mul_pos hframes hsize
  rcases Nat.lt_or_ge (buffer / size) frames with hmore | hfewer
  · -- More frames are available than fit; the leftover underflows.
    have hbeyond : buffer < frames * size := (Nat.div_lt_iff_lt_mul hsize).mp hmore
    have hwhole : buffer / size * size ≤ buffer := Nat.div_mul_le_self buffer size
    rw [Nat.min_eq_right (Nat.le_of_lt hmore), or_iff_left (Nat.not_le.mpr hmore)]
    generalize frames * size = available at *
    constructor
    · rintro (hused | ⟨hleft, -⟩ | ⟨hleft, -⟩)
      · exact ⟨buffer / size, by rw [Nat.mul_comm]; omega⟩
      · omega
      · omega
    · intro hdvd
      exact .inl (Nat.le_of_eq (Nat.div_mul_cancel hdvd).symm)
  · have hinside : frames * size ≤ buffer := (Nat.le_div_iff_mul_le hsize).mp hfewer
    rw [Nat.min_eq_left hfewer]
    refine iff_of_true (.inr (.inr ?_)) (.inr hfewer)
    generalize frames * size = available at *
    omega

/-- As long as nothing is cut to 32 bits: the frames that fit use the buffer up, or
no more than these are available. -/
theorem consumed_iff_of_small {frameSize availableFrames : UInt32} {bufferSize buffersBehind : ℕ}
    {mapped written : Bool} (hsize : frameSize ≠ 0) (hframes : availableFrames ≠ 0)
    (hbuffer : bufferSize < 2 ^ 32)
    (hfit : (availableFrames.toNat + 1) * frameSize.toNat ≤ 2 ^ 32) :
    Consumed frameSize availableFrames bufferSize buffersBehind mapped written ↔
      (framesToWrite frameSize availableFrames bufferSize > 0 ∧
          (mapped = false ∨ written = false)) ∨
        frameSize.toNat ∣ bufferSize ∨
        availableFrames.toNat ≤ bufferSize / frameSize.toNat := by
  have hdiv : bufferSize / frameSize.toNat % 2 ^ 32 = bufferSize / frameSize.toNat :=
    Nat.mod_eq_of_lt (Nat.lt_of_le_of_lt (Nat.div_le_self _ _) hbuffer)
  have hused := framesToWrite_mul_le frameSize availableFrames bufferSize
  have hwritten : (framesToWrite frameSize availableFrames bufferSize * frameSize).toNat =
      min availableFrames.toNat (bufferSize / frameSize.toNat) * frameSize.toNat := by
    rw [UInt32.toNat_mul, Nat.mod_eq_of_lt (Nat.lt_of_le_of_lt hused hbuffer),
      toNat_framesToWrite, hdiv]
  unfold Consumed
  simp only [div_eq_zero_iff hsize, hwritten, toNat_leftoverData]
  exact or_congr_right (consumed_iff_of_exact (toNat_pos hsize) (toNat_pos hframes) hbuffer hfit)

/-! ## The loop -/

/-- The player has frames, and the loop is entered only over a queue. -/
structure Loopable (s : State β) : Prop where
  frameSize : s.frameSize ≠ 0
  queued : s.worker = .pushing → s.dataBuffers ≠ []

/-- The loop has a front buffer in each of its iterations. -/
theorem Loopable.iterateMove {s : State β} (h : Loopable s) (hpushing : s.worker = .pushing)
    (answer : Answer) :
    IterateMove s answer.mapped answer.written answer.available ((pushLoop β).body s answer) := by
  obtain ⟨buffer, rest, hqueue⟩ := List.exists_cons_of_ne_nil (h.queued hpushing)
  obtain ⟨t, ht⟩ : ∃ t, s.iterate answer.available answer.mapped answer.written = some t := by
    rw [State.iterate, hpushing, hqueue]
    dsimp only
    split
    · exact ⟨_, rfl⟩
    · split
      · exact ⟨_, rfl⟩
      · exact ⟨_, if_neg h.frameSize⟩
  have hbody : (pushLoop β).body s answer = t := by simp [pushLoop, ht]
  rw [hbody]
  exact (iterate_move ht).2

theorem loopable_body {s : State β} (h : Loopable s) (hpushing : s.worker = .pushing)
    (answer : Answer) : Loopable ((pushLoop β).body s answer) := by
  have hmove := h.iterateMove hpushing answer
  generalize (pushLoop β).body s answer = t at hmove ⊢
  have hsize : t.frameSize = s.frameSize := by
    obtain ⟨-, _, _, _, _, rfl⟩ := hmove.frame
    rfl
  refine ⟨hsize.trans_ne h.frameSize, ?_⟩
  generalize answer.available = available at hmove
  cases hmove with
  | refused | full => simp
  | granted availableFrames buffer rest =>
      intro hagain hempty
      simp only [State.loop] at hagain hempty
      simp [hempty] at hagain

theorem loopable_pushSamples {s : State β} (hsize : s.frameSize ≠ 0) (hidle : s.worker = .idle) :
    Loopable s.pushSamples := by
  unfold State.pushSamples
  split
  · exact ⟨hsize, by simp [hidle]⟩
  · next hskip =>
      refine ⟨hsize, fun _ hqueue ↦ hskip ?_⟩
      simp only at hqueue
      simp [hqueue]

theorem continues_iff {s : State β} : (pushLoop β).continues s = true ↔ s.worker = .pushing :=
  decide_eq_true_iff

/-- An iteration with frames available shrinks the backlog exactly if it consumes
something. -/
theorem backlog_body_lt_iff {s : State β} (h : Loopable s) (hpushing : s.worker = .pushing)
    {answer : Answer} {availableFrames : UInt32}
    (havailable : answer.available = some availableFrames) (hframes : availableFrames ≠ 0) :
    ((pushLoop β).body s answer).backlog < s.backlog ↔ Consumes s answer := by
  have hmove := h.iterateMove hpushing answer
  rw [havailable] at hmove
  generalize (pushLoop β).body s answer = t at hmove ⊢
  cases hmove with
  | full => exact absurd rfl hframes
  | granted _ buffer rest _ _ hqueue =>
      apply (backlog_process_lt_iff hqueue).trans
      constructor
      · intro hconsumed a front behind ha _ hsplit
        obtain rfl : availableFrames = a := by simpa [havailable] using ha
        obtain ⟨rfl, rfl⟩ := List.cons.inj (hqueue.symm.trans hsplit)
        exact hconsumed
      · intro hconsumes
        exact hconsumes availableFrames buffer rest havailable hframes hqueue

theorem exits_body {s : State β} (h : Loopable s) (hpushing : s.worker = .pushing)
    {answer : Answer} (hnone : answer.available = none ∨ answer.available = some 0) :
    (pushLoop β).continues ((pushLoop β).body s answer) = false := by
  have hmove := h.iterateMove hpushing answer
  generalize (pushLoop β).body s answer = t at hmove ⊢
  rcases hnone with hnone | hnone
  · rw [hnone] at hmove
    cases hmove with
    | refused => rfl
  · rw [hnone] at hmove
    cases hmove with
    | full => rfl
    | granted _ _ _ hframes => exact absurd rfl hframes

/-! ## All the iterations -/

section Iterations

variable {s : State β} (hsize : s.frameSize ≠ 0) (hidle : s.worker = .idle) (answers : ℕ → Answer)

include hsize hidle

theorem loopable_rounds (n : ℕ) : Loopable ((pushLoop β).rounds answers s.pushSamples n) := by
  apply (pushLoop β).rounds_invariant (loopable_pushSamples hsize hidle)
  intro t answer ht hcontinues
  exact loopable_body ht (continues_iff.mp hcontinues) answer

theorem backlog_rounds_lt_iff {n : ℕ} {availableFrames : UInt32}
    (hcontinues : (pushLoop β).continues ((pushLoop β).rounds answers s.pushSamples n) = true)
    (havailable : (answers n).available = some availableFrames) (hframes : availableFrames ≠ 0) :
    ((pushLoop β).rounds answers s.pushSamples (n + 1)).backlog <
        ((pushLoop β).rounds answers s.pushSamples n).backlog ↔
      Consumes ((pushLoop β).rounds answers s.pushSamples n) (answers n) := by
  rw [(pushLoop β).rounds_succ hcontinues]
  exact backlog_body_lt_iff (loopable_rounds hsize hidle answers n)
    (continues_iff.mp hcontinues) havailable hframes

theorem exits_rounds {n : ℕ}
    (hcontinues : (pushLoop β).continues ((pushLoop β).rounds answers s.pushSamples n) = true)
    (hnone : (answers n).available = none ∨ (answers n).available = some 0) :
    (pushLoop β).continues ((pushLoop β).rounds answers s.pushSamples (n + 1)) = false := by
  rw [(pushLoop β).rounds_succ hcontinues]
  exact exits_body (loopable_rounds hsize hidle answers n) (continues_iff.mp hcontinues) hnone

/-- A round behind which the loop goes on was granted frames. -/
theorem granted_of_continues {n : ℕ}
    (hcontinues : (pushLoop β).continues ((pushLoop β).rounds answers s.pushSamples n) = true)
    (hagain : (pushLoop β).continues ((pushLoop β).rounds answers s.pushSamples (n + 1)) = true) :
    ∃ availableFrames, (answers n).available = some availableFrames ∧ availableFrames ≠ 0 := by
  have hgranted : ¬((answers n).available = none ∨ (answers n).available = some 0) := by
    intro hnone
    rw [exits_rounds hsize hidle answers hcontinues hnone] at hagain
    cases hagain
  cases havailable : (answers n).available with
  | none => exact absurd (.inl havailable) hgranted
  | some availableFrames =>
      refine ⟨availableFrames, rfl, fun hzero ↦ hgranted (.inr ?_)⟩
      rw [havailable, hzero]

end Iterations

/-- Under any answers `pushSamples` makes progress and ends exactly if each of its
iterations with frames available consumes something. -/
theorem progresses_iff {s : State β} (hsize : s.frameSize ≠ 0) (hidle : s.worker = .idle)
    (answers : ℕ → Answer) :
    Progresses s.pushSamples answers ↔
      ∀ n, ((pushLoop β).rounds answers s.pushSamples n).worker = .pushing →
        Consumes ((pushLoop β).rounds answers s.pushSamples n) (answers n) := by
  constructor
  · intro h n hpushing availableFrames buffer rest havailable hframes hqueue
    have hcontinues := continues_iff.mpr hpushing
    have hless := h.shrinks n availableFrames hcontinues havailable hframes
    exact (backlog_rounds_lt_iff hsize hidle answers hcontinues havailable hframes).mp hless
      availableFrames buffer rest havailable hframes hqueue
  · intro h
    refine ⟨?_, fun n ↦ exits_rounds hsize hidle answers, ?_⟩
    · intro n availableFrames hcontinues havailable hframes
      apply (backlog_rounds_lt_iff hsize hidle answers hcontinues havailable hframes).mpr
      exact h n (continues_iff.mp hcontinues)
    · have hexits : ∃ n ≤ s.pushSamples.backlog + 1,
          (pushLoop β).continues ((pushLoop β).rounds answers s.pushSamples n) = false := by
        apply (pushLoop β).exits_of_measure State.backlog
        intro n hcontinues hagain
        obtain ⟨_, havailable, hframes⟩ :=
          granted_of_continues hsize hidle answers hcontinues hagain
        apply (backlog_rounds_lt_iff hsize hidle answers hcontinues havailable hframes).mpr
        exact h n (continues_iff.mp hcontinues)
      obtain ⟨n, -, hexits⟩ := hexits
      exact ⟨n, hexits⟩

/-- Frames of four bytes, and three bytes left at the end of the stream. -/
def trailingBytes : State ℕ where
  isOpen := true
  frameSize := 4
  dataBuffers := [[0, 1, 2]]

/-- As long as a frame is available the trailing bytes keep the event loop busy. -/
theorem rounds_trailingBytes (n : ℕ) :
    (pushLoop ℕ).rounds (fun _ ↦ { available := some 1 }) trailingBytes.pushSamples n =
      trailingBytes.pushSamples :=
  (pushLoop ℕ).rounds_eq_of_fixed (fun _ ↦ rfl) n

theorem not_progresses_trailingBytes :
    ¬Progresses trailingBytes.pushSamples fun _ ↦ { available := some 1 } := by
  intro h
  obtain ⟨n, hn⟩ := h.exits
  rw [rounds_trailingBytes] at hn
  exact absurd hn (by decide)

theorem progresses_iff_trailingBytes :
    ¬∀ n, ((pushLoop ℕ).rounds (fun _ ↦ { available := some 1 }) trailingBytes.pushSamples
      n).worker = .pushing →
        Consumes ((pushLoop ℕ).rounds (fun _ ↦ { available := some 1 }) trailingBytes.pushSamples n)
          { available := some 1 } := by
  intro h
  exact not_progresses_trailingBytes
    ((progresses_iff (s := trailingBytes) (by decide) rfl fun _ ↦ { available := some 1 }).mpr h)

theorem endless_push_reachable : ¬∀ (s : State ℕ) (answers : ℕ → Answer), s.frameSize ≠ 0 →
    s.worker = .idle → Progresses s.pushSamples answers := by
  intro h
  exact not_progresses_trailingBytes (h trailingBytes _ (by decide) rfl)

end RialtoGStreamer.WebAudio
